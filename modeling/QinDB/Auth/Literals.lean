/-
# Auth.Literals — values of the system tables

One instance of the values that the system tables hold, small enough to run: 64-bit
numbers, texts and flags, each written in the form of its column. Expressions are
literals.

* `fields`: they are read back as they were written.
-/
import QinDB.Auth.AuthManager
import QinDB.Executor.Blobs

namespace QinDB.Auth.Literals

open QinDB.Base QinDB.Core QinDB.Storage QinDB.Executor

set_option autoImplicit false

inductive Value where
  | null
  | number (content : UInt64)
  | text (content : Identifier)
  | flag (content : Bool)
  deriving DecidableEq, Repr

namespace Value

def toNumber : Value → UInt64
  | .number content => content
  | _ => 0

def toText : Value → Identifier
  | .text content => content
  | _ => []

def toFlag : Value → Bool
  | .flag content => content
  | _ => false

end Value

def write (column : ColumnDef) (value : Value) : Bytes :=
  match column.type with
  | .BIGINT => LittleEndian.encode 8 value.toNumber.toNat
  | .INT => LittleEndian.encode 4 (if value.toFlag then 1 else 0)
  | .BOOLEAN => LittleEndian.encode 1 (if value.toFlag then 1 else 0)
  | _ => Blobs.writeName value.toText

def read (column : ColumnDef) (stream : Bytes) : Option (Value × Bytes) :=
  match column.type with
  | .BIGINT =>
      if stream.length < 8 then none
      else some (.number (.ofNat (LittleEndian.decode (stream.take 8))), stream.drop 8)
  | .INT =>
      if stream.length < 4 then none
      else some (.flag (decide (LittleEndian.decode (stream.take 4) ≠ 0)), stream.drop 4)
  | .BOOLEAN =>
      if stream.length < 1 then none
      else some (.flag (decide (LittleEndian.decode (stream.take 1) ≠ 0)), stream.drop 1)
  | _ => (Blobs.readName stream).map fun (content, rest) => (.text content, rest)

def qt : Variant Value where
  null := .null
  isNull := fun value => decide (value = .null)
  toBool := Value.toFlag
  ofRowId := fun rowId => .number (.ofNat rowId)
  write := write
  read := read

/-- An integer of a fixed width in front of other bytes. -/
theorem decode_front {w n : Nat} (small : n < 256 ^ w) (rest : Bytes) :
    ¬ (LittleEndian.encode w n ++ rest).length < w ∧
      LittleEndian.decode ((LittleEndian.encode w n ++ rest).take w) = n ∧
      (LittleEndian.encode w n ++ rest).drop w = rest := by
  have width := LittleEndian.length_encode w n
  refine ⟨by rw [List.length_append, width]; omega, ?_, List.drop_left' width⟩
  rw [List.take_left' width, LittleEndian.decode_encode_of_lt w small]

def fields : Fields qt where
  ofNumber := .number
  ofText := .text
  ofFlag := .flag
  ofBool := .flag
  toNumber := Value.toNumber
  toText := Value.toText
  toFlag := Value.toFlag
  toNumber_ofNumber := fun _ => rfl
  toText_ofText := fun _ => rfl
  toFlag_ofFlag := fun _ => rfl
  number_notNull := fun _ => rfl
  text_notNull := fun _ => rfl
  flag_notNull := fun _ => rfl
  number_width := fun column number type => by
    simp only [qt, write, type, LittleEndian.length_encode]
  flag_width := fun column flag type => by
    simp only [qt, write, type, LittleEndian.length_encode]
  number_read := fun column number rest type => by
    obtain ⟨enough, value, behind⟩ := decode_front (w := 8) number.toNat_lt rest
    simp only [qt, write, read, type, Value.toNumber, if_neg enough, value, behind,
      UInt64.ofNat_toNat]
  text_read := fun column text rest type => by
    simp only [qt, write, read, type, Value.toText, Blobs.readName_writeName, Option.map_some]
  flag_read := fun column flag rest type => by
    simp only [qt, write, read, type]
    cases flag <;> rfl

end QinDB.Auth.Literals
