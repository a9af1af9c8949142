/-
# Utils.ResultExporter — results as texts

`result_exporter.cpp`: a result is written as CSV. The cells of a row that have a column name are
taken; texts and column names are written with quotes, and every other cell of this module's first
four kinds without.

* `exportToCSV_recovers`: RFC 4180 gives the column names and the cells back, and tells NULL from
  every text.
-/
import QinDB.Base.Csv
import QinDB.Storage.Texts

namespace QinDB.Utils

open QinDB.Base QinDB.Base.Numerals QinDB.Storage

set_option autoImplicit false

/-! ## Results -/

/-- A `QVariant` as the exporters see it. The integer types are read by `toLongLong`; of the other
types a value has the text that Qt gives for it: `real` that of `QString::number(value, 'g', 15)`,
`encoded` the Base64 text of bytes or the ISO text of a date or time, `other` that of `toString`. -/
inductive Variant where
  | null
  | boolean (value : Bool)
  | integer (value : Int64)
  | string (text : List UInt16)
  | real (text : List UInt16)
  | encoded (text : List UInt16)
  | other (text : List UInt16)
  deriving DecidableEq

structure QueryResult where
  columnNames : List (List UInt16)
  rows : List (List Variant)
  deriving DecidableEq

abbrev newline : UInt16 := 0x0a
abbrev quote : UInt16 := 0x22

/-- `value.toBool() ? "true" : "false"` -/
def booleanText (value : Bool) : List UInt16 := if value then units "true" else units "false"

def quoted (text : List UInt16) : List UInt16 := quote :: (text ++ [quote])

/-! ## CSV -/

def escapeCSV (str : List UInt16) : List UInt16 :=
  str.flatMap fun ch => if ch = quote then [ch, ch] else [ch]

def variantToCSV : Variant → List UInt16
  | .null => units "NULL"
  | .boolean value => booleanText value
  | .integer value => number value.toInt
  | .real text => text
  | .string text => quoted (escapeCSV text)
  | .encoded text => quoted text
  | .other text => quoted (escapeCSV text)

def exportToCSV (result : QueryResult) : List UInt16 :=
  (units ",").intercalate (result.columnNames.map fun name => quoted (escapeCSV name)) ++
    newline :: result.rows.flatMap fun row =>
      (units ",").intercalate ((row.take result.columnNames.length).map variantToCSV) ++ [newline]

/-! ## CSV read back -/

/-- NULL, truth values, integers and texts. -/
def Variant.isBasic : Variant → Bool
  | .null | .boolean _ | .integer _ | .string _ => true
  | .real _ | .encoded _ | .other _ => false

/-- Results of basic cells, each row as long as the column list. -/
structure QueryResult.Basic (result : QueryResult) : Prop where
  aligned : ∀ row ∈ result.rows, row.length = result.columnNames.length
  cells : ∀ row ∈ result.rows, ∀ cell ∈ row, cell.isBasic = true

def rfc4180 : Csv.Dialect UInt16 := ⟨quote, 0x2c, 0x0d, newline, by decide⟩

/-- The text that stands for a basic cell. -/
def Variant.text : Variant → List UInt16
  | .null => units "NULL"
  | .boolean value => booleanText value
  | .integer value => number value.toInt
  | .string text | .real text | .encoded text | .other text => text

def Variant.isString : Variant → Bool
  | .string _ => true
  | _ => false

/-- Digits and signs are no marks. -/
theorem isPlain_of_digit {unit : UInt16} (is_digit : IsDigit 10 unit) : Csv.IsPlain rfc4180 unit := by
  intro mark
  simp only [rfc4180, List.mem_cons, List.not_mem_nil, or_false] at mark
  rcases mark with rfl | rfl | rfl | rfl <;> exact absurd is_digit (by decide)

theorem isPlain_number (n : Int) : ∀ unit ∈ number n, Csv.IsPlain rfc4180 unit := by
  have digits := fun unit member => isPlain_of_digit
    (numeral_digits (by decide) (by decide) n.natAbs unit member)
  rw [number]
  split
  · exact List.forall_mem_cons.mpr ⟨by decide, digits⟩
  · exact digits

theorem cell_printable {cell : Variant} (basic : cell.isBasic = true) :
    Csv.Field.Printable rfc4180 ⟨cell.isString, cell.text⟩ ∧
      Csv.printField rfc4180 ⟨cell.isString, cell.text⟩ = variantToCSV cell := by
  have word : ∀ text : List UInt16, (text.all fun unit => decide (Csv.IsPlain rfc4180 unit)) →
      ∀ unit ∈ text, Csv.IsPlain rfc4180 unit :=
    fun _ all unit member => of_decide_eq_true (List.all_eq_true.mp all unit member)
  cases cell with
  | null => exact ⟨fun _ => word _ (by decide), rfl⟩
  | boolean value => exact ⟨fun _ => word _ (by cases value <;> decide), rfl⟩
  | integer value => exact ⟨fun _ => isPlain_number value.toInt, rfl⟩
  | string text => exact ⟨nofun, rfl⟩
  | real | encoded | other => cases basic

/-- The records of a result. -/
def records (result : QueryResult) : List (List (Csv.Field UInt16)) :=
  (result.columnNames.map fun name => ⟨true, name⟩) ::
    result.rows.map fun row => row.map fun cell => ⟨cell.isString, cell.text⟩

/-- The export prints them. -/
theorem exportToCSV_eq {result : QueryResult} (basic : result.Basic) :
    exportToCSV result = Csv.print rfc4180 (records result) := by
  have row : ∀ row ∈ result.rows,
      (units ",").intercalate ((row.take result.columnNames.length).map variantToCSV) ++ [newline] =
        Csv.printRecord rfc4180 (row.map fun cell => ⟨cell.isString, cell.text⟩) ++ [newline] := by
    intro row member
    rw [← basic.aligned row member, List.take_length, Csv.printRecord, List.map_map]
    refine congrArg (List.intercalate _ · ++ [newline]) (List.map_congr_left fun cell inside => ?_)
    exact (cell_printable (basic.cells row member cell inside)).2.symm
  rw [exportToCSV, records, Csv.print, List.flatMap_cons, List.flatMap_map, List.append_assoc,
    List.singleton_append, Csv.printRecord, List.map_map]
  refine congrArg (_ ++ newline :: ·) ?_
  rw [List.flatMap_def, List.flatMap_def, List.map_congr_left row]
  rfl

/-- With at least one column, the reader of RFC 4180 gives back the column names, the rows and the
text of every cell; exactly the texts have quotes. -/
theorem exportToCSV_recovers (result : QueryResult) (basic : result.Basic)
    (columns : result.columnNames ≠ []) :
    Csv.parse rfc4180 (exportToCSV result) =
      some ((result.columnNames.map fun name => ⟨true, name⟩) ::
        result.rows.map fun row => row.map fun cell => ⟨cell.isString, cell.text⟩) := by
  rw [exportToCSV_eq basic, Csv.parse_print, records]
  have header : ∀ field ∈ result.columnNames.map fun name => (⟨true, name⟩ : Csv.Field UInt16),
      field.Printable rfc4180 := List.forall_mem_map.mpr fun name _ plain => nomatch plain
  rw [records, List.forall_mem_cons]
  refine ⟨⟨by simpa using columns, header⟩, List.forall_mem_map.mpr fun row member => ?_⟩
  constructor
  · rw [ne_eq, List.map_eq_nil_iff, ← List.length_eq_zero_iff, basic.aligned row member,
      List.length_eq_zero_iff]
    exact columns
  · exact List.forall_mem_map.mpr fun cell inside =>
      (cell_printable (basic.cells row member cell inside)).1

theorem exportToCSV_recovers_null :
    let result : QueryResult := ⟨[units "a,b", units "n"], [[.string (units "x\"\ny"), .null],
      [.string (units "NULL"), .integer (-5)]]⟩
    Csv.parse rfc4180 (exportToCSV result) =
      some [[⟨true, units "a,b"⟩, ⟨true, units "n"⟩], [⟨true, units "x\"\ny"⟩, ⟨false, units "NULL"⟩],
        [⟨true, units "NULL"⟩, ⟨false, units "-5"⟩]] :=
  exportToCSV_recovers _ ⟨by decide, by decide⟩ (by decide)

end QinDB.Utils
