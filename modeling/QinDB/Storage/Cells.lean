/-
# Storage.Cells — the values of a row and their encoding in a record

A cell is NULL, a 64-bit integer, a text or a byte array: the values the SQL evaluator
produces for integer, string and binary columns. `write` is the conversion of a value to the
type of its column followed by the stream operator (`serializeField`), `read` the operator on
the other side (`deserializeField`). The stream of a record is little-endian. A text or a byte
array is preceded by its size in bytes: four of them, or a mark and eight more; another mark
stands for a null text.

The conversions between kinds of values are Qt's and a parameter; nothing depends on them,
since a column always gives back its own kind.
-/
import QinDB.Base.Delimited
import QinDB.Base.LittleEndian
import QinDB.Base.Trim
import QinDB.Storage.TablePage

namespace QinDB.Storage

open QinDB.Core QinDB.Base QinDB.Base.PartialReader

set_option autoImplicit false

/-! ## Cells -/

/-- A text of UTF-16 units. Its size in bytes is a signed 64-bit number. -/
structure Text where
  units : List UInt16
  size : 2 * units.length < 2 ^ 63
  deriving DecidableEq

structure Binary where
  content : Bytes
  size : content.length < 2 ^ 63
  deriving DecidableEq

inductive Cell where
  | null
  | integer (value : Int64)
  | text (value : Text)
  | bytes (value : Binary)
  deriving DecidableEq

/-- What Qt makes of a value of another kind, and how it streams the kinds of values that are
not cells. -/
structure Conversions where
  toBool : Cell → Bool
  toInt : Cell → Int32
  toLongLong : Cell → Int64
  toText : Cell → Text
  toByteArray : Cell → Binary
  write : DataType → Cell → Bytes
  read : DataType → PartialReader UInt8 Cell

/-! ## Sizes, integers, texts and byte arrays on the stream -/

/-- The size of a null text or byte array. -/
def NULL_SIZE : Nat := 2 ^ 32 - 1

/-- The mark of a size that follows in eight bytes. -/
def EXTENDED_SIZE : Nat := 2 ^ 32 - 2

def writeSize (size : Nat) : Bytes :=
  if size < EXTENDED_SIZE then LittleEndian.encode 4 size
  else LittleEndian.encode 4 EXTENDED_SIZE ++ LittleEndian.encode 8 size

def readNumber (width : Nat) : PartialReader UInt8 Nat := (items width).map LittleEndian.decode

def readSize : PartialReader UInt8 Nat :=
  (readNumber 4).andThen fun size =>
    if size = NULL_SIZE then nothing 0
    else if size = EXTENDED_SIZE then readNumber 8
    else nothing size

def readSigned (width : Nat) : PartialReader UInt8 Int :=
  (readNumber width).map (LittleEndian.signed width)

def writeUnits (units : List UInt16) : Bytes :=
  units.flatMap fun unit => LittleEndian.encode 2 unit.toNat

def unitsOf : Bytes → List UInt16
  | low :: high :: rest => UInt16.ofNat (LittleEndian.decode [low, high]) :: unitsOf rest
  | _ => []

def writeText (units : List UInt16) : Bytes := writeSize (2 * units.length) ++ writeUnits units

/-- An odd size is corrupt. -/
def readText : PartialReader UInt8 Text :=
  readSize.andThen fun size =>
    if size % 2 = 1 then refuse
    else (items size).andThen fun content =>
      if fits : 2 * (unitsOf content).length < 2 ^ 63 then nothing ⟨unitsOf content, fits⟩
      else refuse

def writeBinary (content : Bytes) : Bytes := writeSize content.length ++ content

def readBinary : PartialReader UInt8 Binary :=
  readSize.andThen fun size => (items size).andThen fun content =>
    if fits : content.length < 2 ^ 63 then nothing ⟨content, fits⟩ else refuse

/-- The bytes a size takes. -/
def sizeWidth (size : Nat) : Nat := if size < EXTENDED_SIZE then 4 else 12

theorem length_writeSize (size : Nat) : (writeSize size).length = sizeWidth size := by
  rw [writeSize, sizeWidth]
  split
  · rw [LittleEndian.length_encode]
  · rw [List.length_append, LittleEndian.length_encode, LittleEndian.length_encode]

theorem length_writeBinary (content : Bytes) :
    (writeBinary content).length = sizeWidth content.length + content.length := by
  rw [writeBinary, List.length_append, length_writeSize]

/-! ## Texts of fixed length -/

/-- `QChar::isSpace`. -/
def isSpace (unit : UInt16) : Bool := isSpaceCode unit.toNat

/-- `QString::trimmed`. -/
def trimmed (units : List UInt16) : List UInt16 := trimBy isSpace units

/-- `QString::leftJustified` with a blank to fill up and truncation. -/
def leftJustified (width : Nat) (units : List UInt16) : List UInt16 :=
  if units.length < width then units ++ List.replicate (width - units.length) 0x20
  else units.take width

/-- A text as it is written in a CHAR column; a column without a length takes it as it is. -/
def justified (column : ColumnDef) (units : List UInt16) : List UInt16 :=
  if 0 < column.length then leftJustified column.length units else units

theorem length_trimmed_le (units : List UInt16) : (trimmed units).length ≤ units.length :=
  Nat.le_trans (List.rdropWhile_prefix isSpace _).length_le
    (List.dropWhile_sublist isSpace).length_le

/-! ## Columns -/

namespace Cell

variable (conv : Conversions)

def toInt : Cell → Int32
  | .integer value => value.toInt32
  | value => conv.toInt value

def toLongLong : Cell → Int64
  | .integer value => value
  | value => conv.toLongLong value

def toText : Cell → Text
  | .text value => value
  | value => conv.toText value

def toByteArray : Cell → Binary
  | .bytes value => value
  | value => conv.toByteArray value

/-- The conversion to the type of the column and `<<`. -/
def write (column : ColumnDef) (value : Cell) : Bytes :=
  match column.type with
  | .INT => LittleEndian.encodeInt 4 (value.toInt conv).toInt
  | .BIGINT => LittleEndian.encodeInt 8 (value.toLongLong conv).toInt
  | .CHAR => writeText (justified column (value.toText conv).units)
  | .VARCHAR | .TEXT | .DATE | .TIME | .DATETIME | .DECIMAL => writeText (value.toText conv).units
  | .BLOB => writeBinary (value.toByteArray conv).content
  | type => conv.write type value

def read (column : ColumnDef) : PartialReader UInt8 Cell :=
  match column.type with
  | .INT => (readSigned 4).map fun value => .integer (Int32.ofInt value).toInt64
  | .BIGINT => (readSigned 8).map fun value => .integer (Int64.ofInt value)
  | .CHAR => readText.map fun value =>
      .text ⟨trimmed value.units, Nat.lt_of_le_of_lt
        (Nat.mul_le_mul_left 2 (length_trimmed_le value.units)) value.size⟩
  | .VARCHAR | .TEXT | .DATE | .TIME | .DATETIME | .DECIMAL => readText.map .text
  | .BLOB => readBinary.map .bytes
  | type => conv.read type

end Cell

/-- Cells as the values of a row. -/
def cells (conv : Conversions) : Variant Cell where
  null := .null
  isNull := fun value => decide (value = .null)
  toBool := conv.toBool
  ofRowId := fun rowId => .integer (Int64.ofNat rowId)
  write := Cell.write conv
  read := Cell.read conv

end QinDB.Storage
