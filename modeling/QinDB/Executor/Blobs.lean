/-
# Executor.Blobs — tables of byte strings

The executor takes values and their encoding from Qt, and expressions from the
evaluator. This module is one instance of both, small enough to run: BLOB columns,
whose values are byte arrays and are written as a little-endian length followed by the
bytes, and expressions made of literals, columns and equality.
-/
import QinDB.Executor.Statements
import QinDB.Storage.DataStream

namespace QinDB.Executor.Blobs

open QinDB.Base QinDB.Core QinDB.Storage

set_option autoImplicit false

/-! ## Values -/

inductive Value where
  | null
  | bytes (content : Bytes)
  deriving DecidableEq, Repr

def writeValue : Value → Bytes
  | .null => LittleEndian.encode 4 (2 ^ 32 - 1)
  | .bytes content => LittleEndian.encode 4 content.length ++ content

/-- Four bytes of length, then as many bytes as it says. -/
def readValue (stream : Bytes) : Option (Value × Bytes) :=
  let size := LittleEndian.decode (stream.take 4)
  if stream.length < 4 + size then none
  else some (.bytes ((stream.drop 4).take size), stream.drop (4 + size))

def qt : Variant Value where
  null := .null
  isNull := fun value => decide (value = .null)
  toBool := fun value =>
    match value with
    | .null => false
    | .bytes content => !content.isEmpty
  ofRowId := fun rowId => .bytes (LittleEndian.encode 8 rowId)
  write := fun _ => writeValue
  read := fun _ => readValue

def column (name : String) : ColumnDef := { name := name.toList, type := .BLOB }

/-! ## Names -/

/-- A name as a list of letters, each announced by a one and written in four bytes, and a
closing zero. -/
def writeName : Identifier → Bytes
  | [] => [0]
  | letter :: letters => 1 :: (LittleEndian.encode 4 letter.toNat ++ writeName letters)

def readName : Bytes → Option (Identifier × Bytes)
  | 0 :: rest => some ([], rest)
  | 1 :: a :: b :: c :: d :: rest =>
      (readName rest).map fun (letters, rest) =>
        (Char.ofNat (LittleEndian.decode [a, b, c, d]) :: letters, rest)
  | _ => none

theorem readName_writeName (name : Identifier) (rest : Bytes) :
    readName (writeName name ++ rest) = some (name, rest) := by
  induction name with
  | nil => rfl
  | cons letter letters ih =>
    have small : letter.toNat < 256 ^ 4 := lt_of_lt_of_le (UInt32.toNat_lt letter.val) (by decide)
    have back := LittleEndian.decode_encode_of_lt 4 small
    change (readName (writeName letters ++ rest)).map (fun (letters, rest) =>
      (Char.ofNat (LittleEndian.decode (LittleEndian.encode 4 letter.toNat)) :: letters, rest)) = _
    rw [ih, back, Option.map_some, Char.ofNat_toNat]

def names : TextCodec Identifier where
  empty := []
  write := writeName
  read := readName
  read_write := readName_writeName

/-! ## Expressions -/

inductive Expr where
  | literal (value : Value)
  | column (name : Identifier)
  | equals (left right : Expr)
  /-- A function that the evaluator does not know. -/
  | unknown (name : String)
  deriving DecidableEq, Repr

def evaluateWithRow : Expr → Option TableSchema → List Value → Except String Value
  | .literal value, _, _ => .ok value
  | .column name, schema, row =>
      match (schema.bind fun table => table.columns.findIdx? fun definition =>
          definition.name.toLower = name.toLower).bind fun index => row[index]? with
      | some value => .ok value
      | none => .error ("Unknown column: " ++ String.ofList name)
  | .equals left right, schema, row =>
      match evaluateWithRow left schema row, evaluateWithRow right schema row with
      | .error message, _ => .error message
      | .ok _, .error message => .error message
      | .ok .null, .ok _ => .ok .null
      | .ok _, .ok .null => .ok .null
      | .ok (.bytes left), .ok (.bytes right) => .ok (.bytes (if left = right then [1] else []))
  | .unknown name, _, _ => .error ("Unknown function: " ++ name)

def ev : Evaluator Value Expr := ⟨evaluateWithRow⟩

/-! ## Results -/

def insertSorted (less : List Value → List Value → Bool) (row : List Value) :
    List (List Value) → List (List Value)
  | [] => [row]
  | other :: rest => if less other row then other :: insertSorted less row rest
      else row :: other :: rest

def valueText : Value → Identifier
  | .null => []
  | .bytes content => content.map fun byte => Char.ofNat byte.toNat

def view : Presentation Value Expr where
  columnName := fun expr =>
    match expr with
    | .column name => some name
    | _ => none
  exprText := fun _ => []
  valueText := valueText
  ofText := fun text => .bytes (text.map fun letter => UInt8.ofNat letter.toNat)
  ofCount := fun count => .bytes (LittleEndian.encode 8 count)
  textLess := fun left right => decide (left < right)
  compare := fun left right => some (compareOfLessAndEq (valueText left) (valueText right))
  sort := fun less rows => rows.foldr (insertSorted less) []
  exportsTo := fun _ => true

/-! ## Sessions -/

def createTable (name : String) : Statement Expr := .createTable name.toList [column "c"]

/-- One row for each byte string. -/
def insertInto (name : String) (rows : List Bytes) : Statement Expr :=
  .insert { tableName := name.toList, values := rows.map fun content => [.literal (.bytes content)] }

/-- The transaction and the database of a session that has run these statements on a new
database with eight free pages. -/
def session (stmts : List (Statement Expr)) : TransactionId × Database Value :=
  runSession qt ev view true stmts (INVALID_TXN_ID, .create [1, 2, 3, 4, 5, 6, 7, 8])

theorem session_reachable (stmts : List (Statement Expr)) :
    Reachable qt ev view (session stmts).2 :=
  Reachable.runSession true stmts _ (.create _ (by decide) (by decide)) (by decide)

/-! ### Two histories of one table -/

def twoRows : Database Value :=
  (session [createTable "t", insertInto "t" [[1], [2]]]).2

/-- The table's entry in the catalog, in both. -/
def sample : TableDef :=
  { name := ['t'], columns := [column "c"], firstPageId := 1, nextRowId := 3 }

end QinDB.Executor.Blobs
