/-
# Network.QueryResponse — results on the wire

`encodeQueryResponse` writes each cell by the type of its value, in a block with its
length; `decodeQueryResponse` reads each cell by the type of its column. The server
calls every column VARCHAR, so the client reads every block as a text. A message of more
than `2 ^ 31` bytes after its length reaches the client without a payload.

* `queryResponse_survives_iff`: a result arrives as it was sent exactly if its cells are
  NULL or texts that UTF-8 keeps, one for each column, and it is not too large.
-/
import QinDB.Network.Codec

namespace QinDB.Network

open QinDB.Base QinDB.Base.Decoder QinDB.Core QinDB.Storage

set_option autoImplicit false

/-! ## Values -/

/-- A `QVariant`, by its run-time type; for any other type the text that `toString` gives. -/
inductive QVariant where
  | null
  | int (value : Int32)
  | longLong (value : Int64)
  | double (bits : UInt64)
  | string (text : QString)
  | bool (value : Bool)
  | other (text : QString)
  deriving DecidableEq, Repr

def QVariant.isNull : QVariant → Bool
  | .null => true
  | _ => false

/-- The number of an enumerator in its 8-bit field. -/
def dataTypeCode (type : DataType) : UInt8 := .ofNat type.ctorIdx

structure ColumnInfo where
  name : QString
  type : UInt8
  deriving DecidableEq, Repr

abbrev QueryStatus := UInt8
abbrev ResultType := UInt8

def QueryStatus.SUCCESS : QueryStatus := 0x00
def ResultType.EMPTY : ResultType := 0x00
def ResultType.TABLE_DATA : ResultType := 0x01

structure QueryResponse where
  status : QueryStatus
  resultType : ResultType
  rowsAffected : UInt64
  columns : List ColumnInfo
  rows : List (List QVariant)
  currentDatabase : QString
  deriving DecidableEq, Repr

section Wire

variable (memory : Nat → UInt8)

/-! ## Encoding -/

/-- The block of a value, by the type of the value. -/
def variantData : QVariant → Bytes
  | .int value => streamWrite 4 value.toUInt32.toNat
  | .longLong value => streamWrite 8 value.toUInt64.toNat
  | .double bits => streamWrite 8 bits.toNat
  | .string text => encodeString text
  | .bool value => streamWrite 1 value.toNat
  | .null => encodeString []
  | .other text => encodeString text

def encodeVariant (value : QVariant) : Bytes :=
  streamWrite 4 ((variantData value).length % 2 ^ 32) ++ variantData value

def encodeCell (value : QVariant) : Bytes :=
  streamWrite 1 value.isNull.toNat ++ if value.isNull then [] else encodeVariant value

def encodeColumn (column : ColumnInfo) : Bytes :=
  encodeString column.name ++ streamWrite 1 column.type.toNat

def encodeRow (row : List QVariant) : Bytes := row.flatMap encodeCell

def encodeQueryResponse (result : QueryResponse) : Bytes :=
  encodeMessage MessageType.QUERY_RESPONSE
    (streamWrite 1 result.status.toNat ++ (streamWrite 1 result.resultType.toNat ++
      (streamWrite 8 result.rowsAffected.toNat ++
        (streamWrite 4 (result.columns.length % 2 ^ 32) ++
          (streamWrite 4 (result.rows.length % 2 ^ 32) ++
            (result.columns.flatMap encodeColumn ++ (result.rows.flatMap encodeRow ++
              encodeString result.currentDatabase)))))))

/-! ## Decoding -/

/-- A value from its block, by the type of the column. -/
def decodeData (type : UInt8) : Decoder UInt8 QVariant :=
  if type = dataTypeCode .INT ∨ type = dataTypeCode .BIGINT ∨ type = dataTypeCode .SMALLINT then do
    let value ← readUInt 4
    pure (.int (UInt32.ofNat value).toInt32)
  else if type = dataTypeCode .DOUBLE ∨ type = dataTypeCode .FLOAT then do
    let value ← readUInt 8
    pure (.double (.ofNat value))
  else if type = dataTypeCode .BOOL then do
    let value ← readUInt 1
    pure (.bool (value ≠ 0))
  else do
    let text ← decodeString memory
    pure (.string text)

def decodeVariant (type : UInt8) : Decoder UInt8 QVariant := do
  let length ← readUInt 4
  if length = 0 then pure .null
  else
    let data ← readArray memory length
    nested data (decodeData memory type)

def decodeCell (type : UInt8) : Decoder UInt8 QVariant := do
  let isNull ← readUInt 1
  if isNull ≠ 0 then pure .null else decodeVariant memory type

def decodeColumn : Decoder UInt8 ColumnInfo := do
  let name ← decodeString memory
  let type ← readUInt 1
  pure ⟨name, .ofNat type⟩

def decodeRow (columns : List ColumnInfo) : Decoder UInt8 (List QVariant) := do
  request columns.length
  forEach (fun column : ColumnInfo => decodeCell memory column.type) columns

def decodeColumns (columnCount : Nat) : Decoder UInt8 (List ColumnInfo) := do
  request columnCount
  forEach (fun _ => decodeColumn memory) (List.replicate columnCount ())

def decodeRows (columns : List ColumnInfo) (rowCount : Nat) :
    Decoder UInt8 (List (List QVariant)) := do
  request rowCount
  forEach (fun _ => decodeRow memory columns) (List.replicate rowCount ())

def queryResponseFields : Decoder UInt8 QueryResponse := do
  let status ← readUInt 1
  let resultType ← readUInt 1
  let rowsAffected ← readUInt 8
  let columnCount ← readUInt 4
  let rowCount ← readUInt 4
  let columns ← decodeColumns memory columnCount
  let rows ← decodeRows memory columns rowCount
  let currentDatabase ← decodeString memory
  pure ⟨.ofNat status, .ofNat resultType, .ofNat rowsAffected, columns, rows, currentDatabase⟩

def decodeQueryResponse : Bytes → Option QueryResponse :=
  decodePayload (queryResponseFields memory)

/-- What `handleQueryRequest` makes of a result with these columns and rows. -/
def queryResponse (columnNames : List QString) (rows : List (List QVariant)) (currentDatabase : QString) :
    QueryResponse where
  status := QueryStatus.SUCCESS
  resultType := if rows.isEmpty then ResultType.EMPTY else ResultType.TABLE_DATA
  rowsAffected := .ofNat rows.length
  columns := columnNames.map fun name => ⟨name, dataTypeCode .VARCHAR⟩
  rows := rows
  currentDatabase := currentDatabase

end Wire

/-! ## Cells -/

section Cells

variable {memory : Nat → UInt8}

/-- A text that is read back: its surrogates are in pairs, and no byte order mark is in front. -/
def Legible (text : QString) : Prop := Utf8.Paired text = true ∧ Unmarked text

/-- NULL or a text that is read back. -/
def TextCell : QVariant → Prop
  | .null => True
  | .string text => Legible text
  | _ => False

theorem received_eq_iff {text : QString} : received text = text ↔ Legible text :=
  Utf8.decode_encode_eq_iff text

theorem decodeData_varchar : decodeData memory (dataTypeCode .VARCHAR) =
    (do let text ← decodeString memory; pure (.string text)) := by
  rw [decodeData, if_neg (by decide), if_neg (by decide), if_neg (by decide)]

variable (memory) in
/-- A VARCHAR cell is decoded as NULL or as a text. -/
theorem decodeCell_varchar (s : Stream UInt8) :
    (decodeCell memory (dataTypeCode .VARCHAR) s).1 = .null ∨
      ∃ text, (decodeCell memory (dataTypeCode .VARCHAR) s).1 = .string text := by
  rw [decodeCell, bind_apply]
  split
  · exact .inl rfl
  · rw [decodeVariant, bind_apply]
    split
    · exact .inl rfl
    · rw [decodeData_varchar]
      exact .inr ⟨_, rfl⟩

@[simp] theorem sticky_decodeVariant (type : UInt8) : Sticky (decodeVariant memory type) :=
  (sticky_readUInt 4).bind fun _ => by simp

@[simp] theorem sticky_decodeCell (type : UInt8) : Sticky (decodeCell memory type) := by
  simp [decodeCell]

@[simp] theorem sticky_decodeColumn : Sticky (decodeColumn memory) := by simp [decodeColumn]

@[simp] theorem sticky_decodeRow (columns : List ColumnInfo) : Sticky (decodeRow memory columns) :=
  (Sticky.request _).bind fun _ => .forEach (fun _ => sticky_decodeCell _) columns

theorem length_encodeString {text : QString} :
    (encodeString text).length = 4 + (Utf8.encode text).length := by
  rw [encodeString, List.length_append, length_streamWrite]

variable (memory) in
/-- A block read as a text, whatever stands after it. -/
theorem reads_nested_text {text : QString} (short : (Utf8.encode text).length < 2 ^ 32) :
    Reads (nested (encodeString text) (decodeData memory (dataTypeCode .VARCHAR))) []
      (.string (received text)) := by
  refine ⟨fun {s rest} ok front => ⟨?_, front, ok⟩,
    fun _ shorter proper => (proper (List.prefix_nil.mp shorter)).elim⟩
  rw [decodeData_varchar]
  have read : Reads (decodeString memory) (encodeString text) (received text) := reads_decodeString short
  exact ((read.bind_pure QVariant.string).whole
    (s := ⟨encodeString text, true, s.iterations, s.requested⟩) rfl (List.append_nil _).symm).1

/-- The size of the block of a cell fits its field. -/
def ShortCell : QVariant → Prop
  | .string text => 4 + (Utf8.encode text).length < 2 ^ 32
  | _ => True

theorem reads_decodeCell {cell : QVariant} (fits : TextCell cell ∧ ShortCell cell) :
    Reads (decodeCell memory (dataTypeCode .VARCHAR)) (encodeCell cell) cell := by
  obtain ⟨text, short⟩ := fits
  have one_lt : 1 < 256 ^ 1 := by decide
  cases cell with
  | null => exact (reads_readUInt one_lt).bind (.pure _) (by simp)
  | string text' =>
    have size : (encodeString text').length < 2 ^ 32 := by
      rw [length_encodeString]
      exact short
    have block : Reads (decodeVariant memory (dataTypeCode .VARCHAR))
        (encodeVariant (.string text')) (.string text') := by
      rw [encodeVariant, variantData, Nat.mod_eq_of_lt size]
      refine (reads_readUInt size).bind ?_ (by simp)
      rw [if_neg (by rw [length_encodeString]; omega)]
      have data : Reads (do
          let data ← readArray memory (encodeString text').length
          nested data (decodeData memory (dataTypeCode .VARCHAR)))
          (encodeString text' ++ []) (.string (received text')) :=
        (reads_readArray memory (encodeString text')).bind
          (reads_nested_text memory (lt_of_le_of_lt (Nat.le_add_left _ _) short)) (by simp)
      rwa [List.append_nil, received_eq_iff.mpr text] at data
    exact (reads_readUInt (Nat.pow_pos (by decide))).bind block (by simp)
  | int | longLong | double | bool | other => exact text.elim

/-- A text is not decoded from far fewer of its bytes. -/
theorem decode_take_ne {text : QString} {k : Nat} (fewer : k + 2 ^ 32 ≤ (Utf8.encode text).length) :
    Utf8.decode ((Utf8.encode text).take k) ≠ text := by
  intro same
  have bound := Utf8.length_encode_decode_take text k
  rw [same] at bound
  omega

/-- A text that comes back fits its length field and is read back. -/
theorem legible_of_decodeString {text : QString} {s : Stream UInt8} {rest : Bytes} (ok : s.ok = true)
    (front : s.left = encodeString text ++ rest) (back : (decodeString memory s).1 = text) :
    (Utf8.encode text).length < 2 ^ 32 ∧ Legible text := by
  have short : (Utf8.encode text).length < 2 ^ 32 := by
    by_contra long
    rw [encodeString, List.append_assoc] at front
    have read := (decodeString_of_length memory (Nat.mod_lt _ (by decide)) front
      (by rw [List.length_append]; omega)).1
    rw [back, List.take_append_of_le_length (Nat.mod_le _ _)] at read
    exact decode_take_ne (by omega) read.symm
  have read : Reads (decodeString memory) (encodeString text) (received text) := reads_decodeString short
  exact ⟨short, received_eq_iff.mp ((read.whole ok front).1.symm.trans back)⟩

/-- The text in a block of which only `size` bytes arrive, too few for it. -/
theorem nested_text_ne {text : QString} {s : Stream UInt8} {size : Nat}
    (wrapped : size = (4 + (Utf8.encode text).length) % 2 ^ 32)
    (long : 2 ^ 32 ≤ 4 + (Utf8.encode text).length) :
    (nested ((encodeString text).take size)
      (decodeData memory (dataTypeCode .VARCHAR)) s).1 ≠ .string text := by
  rw [decodeData_varchar]
  intro same
  have text_back : (decodeString memory
      ⟨(encodeString text).take size, true, s.iterations, s.requested⟩).1 = text :=
    QVariant.string.inj same
  by_cases inside : size < 4
  · -- not even the inner length has arrived, so it reads as zero
    have zero : readUInt 4 ⟨(encodeString text).take size, true, s.iterations, s.requested⟩ =
        (0, ⟨[], false, s.iterations, s.requested⟩) := by
      have few : ((encodeString text).take size).length < 4 := by
        rw [List.length_take]
        omega
      simp only [readUInt, streamRead, if_pos few, decide_eq_false (not_le.mpr few), Bool.and_false]
    rw [decodeString, bind_apply, zero] at text_back
    have empty : text = [] := text_back.symm
    rw [empty] at long
    exact absurd long (by decide)
  · have inner : (Utf8.encode text).length % 2 ^ 32 = size - 4 := by omega
    have body : (encodeString text).take size =
        streamWrite 4 (size - 4) ++ (Utf8.encode text).take (size - 4) := by
      rw [encodeString, inner, List.take_append, length_streamWrite, List.take_of_length_le]
      rw [length_streamWrite]
      omega
    have read := (decodeString_of_length memory
      (s := ⟨(encodeString text).take size, true, s.iterations, s.requested⟩)
      (by omega) body (by rw [List.length_take]; omega)).1
    rw [text_back, List.take_take, Nat.min_self] at read
    exact decode_take_ne (by omega) read.symm

/-- A cell that is decoded as VARCHAR to itself is NULL or a text that fits and is read back. -/
theorem textCell_of_decodeCell {cell : QVariant} {s : Stream UInt8} {rest : Bytes}
    (front : s.left = encodeCell cell ++ rest)
    (back : (decodeCell memory (dataTypeCode .VARCHAR) s).1 = cell) : TextCell cell ∧ ShortCell cell := by
  cases cell with
  | null => exact ⟨trivial, trivial⟩
  | string text =>
    obtain ⟨size, wrapped⟩ : ∃ size, size = (4 + (Utf8.encode text).length) % 2 ^ 32 := ⟨_, rfl⟩
    have small : size < 256 ^ 4 := wrapped ▸ Nat.mod_lt _ (by decide)
    have cell_front : s.left = streamWrite 1 0 ++
        (streamWrite 4 size ++ (encodeString text ++ rest)) := by
      rw [front, wrapped, ← length_encodeString, ← List.append_assoc, ← List.append_assoc]
      exact congrArg (· ++ rest) (List.append_assoc _ _ _).symm
    rw [decodeCell, bind_apply, readUInt_write (by decide) cell_front, if_neg fun h => h rfl,
      decodeVariant, bind_apply, readUInt_write small rfl] at back
    split at back
    · cases back
    · -- the block is cut to the length that its field can hold
      have enough : size ≤ (encodeString text).length := by
        rw [length_encodeString, wrapped]
        exact Nat.mod_le _ _
      have data : readRawData memory size (encodeString text ++ rest) =
          (encodeString text).take size := by
        rw [readRawData_of_le (by rw [List.length_append]; omega),
          List.take_append_of_le_length enough]
      simp only [bind_apply, readArray, request, data] at back
      by_cases long : 2 ^ 32 ≤ 4 + (Utf8.encode text).length
      · exact absurd back (nested_text_ne wrapped long)
      · have whole : (encodeString text).take size = encodeString text := by
          rw [wrapped, Nat.mod_eq_of_lt (not_le.mp long), ← length_encodeString, List.take_length]
        have short : 4 + (Utf8.encode text).length < 2 ^ 32 := not_le.mp long
        have block : (Utf8.encode text).length < 2 ^ 32 :=
          lt_of_le_of_lt (Nat.le_add_left _ _) short
        have read := (reads_nested_text memory block).whole
          (s := ⟨(encodeString text ++ rest).drop size, true, s.iterations, s.requested + size⟩) rfl
          rfl
        rw [whole] at back
        exact ⟨received_eq_iff.mp (QVariant.string.inj (read.1.symm.trans back)), short⟩
  | int | longLong | double | bool | other =>
    rcases decodeCell_varchar memory s with null | ⟨text, string⟩
    · cases back.symm.trans null
    · cases back.symm.trans string

end Cells

/-! ## Columns and rows -/

section Tables

variable {memory : Nat → UInt8}

/-- The column that the server makes of a name. -/
def varcharColumn (name : QString) : ColumnInfo := ⟨name, dataTypeCode .VARCHAR⟩

/-- A name whose length fits its field and that is read back. -/
def TextName (name : QString) : Prop := (Utf8.encode name).length < 2 ^ 32 ∧ Legible name

theorem reads_decodeColumn {name : QString} (fits : TextName name) :
    Reads (decodeColumn memory) (encodeColumn (varcharColumn name)) (varcharColumn name) := by
  have read : Reads (decodeString memory) (encodeString name) (received name) := reads_decodeString fits.1
  rw [received_eq_iff.mpr fits.2] at read
  refine read.bind ?_ (by simp)
  have code : (dataTypeCode .VARCHAR).toNat < 256 ^ 1 := by decide
  have type := (reads_readUInt code).bind_pure fun type => (⟨name, .ofNat type⟩ : ColumnInfo)
  rwa [UInt8.ofNat_toNat] at type

variable {columns : List ColumnInfo}

theorem reads_decodeRow {row : List QVariant}
    (varchar : ∀ column ∈ columns, column.type = dataTypeCode .VARCHAR)
    (width : row.length = columns.length) (cells : ∀ cell ∈ row, TextCell cell ∧ ShortCell cell) :
    Reads (decodeRow memory columns) (encodeRow row) row := by
  have each : ∀ column ∈ columns, ∀ cell ∈ row,
      Reads (decodeCell memory column.type) (encodeCell cell) cell := by
    intro column among cell listed
    rw [varchar column among]
    exact reads_decodeCell (cells cell listed)
  have loop := Reads.forEach encodeCell id width.symm each (by simp)
  rw [List.map_id] at loop
  exact (Reads.request _).bind loop (by simp)

/-- A row that comes back has a cell for each column, and all of them are NULL or texts. -/
theorem fits_of_decodeRow {row : List QVariant} {s : Stream UInt8} {rest : Bytes}
    (varchar : ∀ column ∈ columns, column.type = dataTypeCode .VARCHAR) (ok : s.ok = true)
    (front : s.left = encodeRow row ++ rest) (back : (decodeRow memory columns s).1 = row) :
    row.length = columns.length ∧ ∀ cell ∈ row, TextCell cell ∧ ShortCell cell := by
  have looped : (forEach (fun column : ColumnInfo => decodeCell memory column.type) columns
      (request columns.length s).2).1 = row := back
  refine ⟨by rw [← looped, length_forEach], ?_⟩
  have seen : (forEach (fun column : ColumnInfo => decodeCell memory column.type) columns
      (request columns.length s).2).1.map id = row.map fun cell => id (id cell) := by rw [looped]; rfl
  have started : (request columns.length s).2.left = encodeRow row ++ rest := front
  refine forEach_fits id id (fun column among cell fits => ?_)
    (fun column among cell s rest _ front back => ?_) (s := (request columns.length s).2) ok started
    seen
  · rw [varchar column among]
    exact reads_decodeCell fits
  · rw [varchar column among] at back
    exact textCell_of_decodeCell front back

theorem varcharColumn_type {columnNames : List QString} :
    ∀ column ∈ columnNames.map varcharColumn, column.type = dataTypeCode .VARCHAR := by
  intro column listed
  obtain ⟨name, -, rfl⟩ := List.mem_map.mp listed
  rfl

variable {columnNames : List QString} {rows : List (List QVariant)}

/-- The columns on the wire. -/
def encodeColumns (columnNames : List QString) : Bytes :=
  columnNames.flatMap fun name => encodeColumn (varcharColumn name)

/-- The columns and rows fit the fields for their counts and lengths and are read back. -/
structure Fits (columnNames : List QString) (rows : List (List QVariant)) : Prop where
  columnCount : columnNames.length < 2 ^ 32
  rowCount : rows.length < 2 ^ 32
  names : ∀ name ∈ columnNames, TextName name
  rows : ∀ row ∈ rows, row.length = columnNames.length ∧ ∀ cell ∈ row, TextCell cell ∧ ShortCell cell

variable (memory) in
theorem reads_decodeColumns (names : ∀ name ∈ columnNames, TextName name) :
    Reads (decodeColumns memory columnNames.length) (encodeColumns columnNames)
      (columnNames.map varcharColumn) :=
  (Reads.request _).bind (Reads.forEach _ varcharColumn List.length_replicate
    (fun _ _ name listed => reads_decodeColumn (names name listed)) (by simp)) (by simp)

variable (memory) in
theorem reads_decodeRows (fits : Fits columnNames rows) :
    Reads (decodeRows memory (columnNames.map varcharColumn) rows.length) (rows.flatMap encodeRow)
      rows := by
  have loop : Reads (forEach (fun _ => decodeRow memory (columnNames.map varcharColumn))
      (List.replicate rows.length ())) (rows.flatMap encodeRow) (rows.map id) :=
    Reads.forEach _ id List.length_replicate (fun _ _ row listed =>
      reads_decodeRow varcharColumn_type (by rw [(fits.rows row listed).1, List.length_map])
        (fits.rows row listed).2) (by simp)
  rw [List.map_id] at loop
  exact (Reads.request _).bind loop (by simp)

/-- Column names that come back fit their length fields and are read back. -/
theorem names_of_decodeColumns {s : Stream UInt8} {rest : Bytes} (ok : s.ok = true)
    (front : s.left = encodeColumns columnNames ++ rest)
    (back : (decodeColumns memory columnNames.length s).1.map ColumnInfo.name = columnNames) :
    ∀ name ∈ columnNames, TextName name := by
  have seen : (forEach (fun _ => decodeColumn memory) (List.replicate columnNames.length ())
      (request columnNames.length s).2).1.map ColumnInfo.name =
      columnNames.map fun name => (varcharColumn name).name :=
    back.trans (List.map_id _).symm
  refine forEach_fits varcharColumn ColumnInfo.name (fun _ _ name fits => reads_decodeColumn fits)
    (fun _ _ name s rest ok front back => ?_) (s := (request columnNames.length s).2) ok front seen
  rw [encodeColumn, List.append_assoc] at front
  exact legible_of_decodeString ok front back

/-- Rows that come back have a cell for each column, NULL or a text. -/
theorem fits_of_decodeRows {s : Stream UInt8} {rest : Bytes} (ok : s.ok = true)
    (front : s.left = rows.flatMap encodeRow ++ rest)
    (back : (decodeRows memory (columnNames.map varcharColumn) rows.length s).1 = rows) :
    ∀ row ∈ rows, row.length = columnNames.length ∧ ∀ cell ∈ row, TextCell cell ∧ ShortCell cell := by
  have seen : (forEach (fun _ => decodeRow memory (columnNames.map varcharColumn))
      (List.replicate rows.length ()) (request rows.length s).2).1.map id =
      rows.map fun row => id (id row) := by
    rw [List.map_id]
    exact back.trans (List.map_id _).symm
  refine forEach_fits id id (fun _ _ row fits => ?_) (fun _ _ row s rest ok front back => ?_)
    (s := (request rows.length s).2) ok front seen
  · exact reads_decodeRow varcharColumn_type (by rw [fits.1, List.length_map]) fits.2
  · have fits := fits_of_decodeRow varcharColumn_type ok front back
    rwa [List.length_map] at fits

/-! ## The payload -/

/-- What stands in front of the columns. -/
def counted (result : QueryResponse) (body : Bytes) : Bytes :=
  streamWrite 1 result.status.toNat ++ (streamWrite 1 result.resultType.toNat ++
    (streamWrite 8 result.rowsAffected.toNat ++ (streamWrite 4 (result.columns.length % 2 ^ 32) ++
      (streamWrite 4 (result.rows.length % 2 ^ 32) ++ body))))

/-- The columns, the rows and the bytes of the name of the database. -/
def responseBody (columnNames : List QString) (rows : List (List QVariant)) (name : Bytes) : Bytes :=
  encodeColumns columnNames ++ (rows.flatMap encodeRow ++ name)

/-- The payload of a response, with these bytes for the name of the database. -/
def payloadWith (columnNames : List QString) (rows : List (List QVariant)) (currentDatabase : QString)
    (name : Bytes) : Bytes :=
  counted (queryResponse columnNames rows currentDatabase) (responseBody columnNames rows name)

theorem encodeQueryResponse_eq (currentDatabase : QString) :
    encodeQueryResponse (queryResponse columnNames rows currentDatabase) =
      encodeMessage MessageType.QUERY_RESPONSE
        (payloadWith columnNames rows currentDatabase (encodeString currentDatabase)) := by
  have wire : (queryResponse columnNames rows currentDatabase).columns.flatMap encodeColumn =
      encodeColumns columnNames := List.flatMap_map _ _ _
  rw [encodeQueryResponse, wire]
  rfl

theorem counted_append (result : QueryResponse) (body : Bytes) :
    counted result body = counted result [] ++ body := by
  simp only [counted, List.append_assoc, List.nil_append]

theorem length_counted (result : QueryResponse) (body : Bytes) :
    (counted result body).length = 18 + body.length := by
  simp only [counted, List.length_append, length_streamWrite]
  omega

theorem take_counted (result : QueryResponse) (body : Bytes) (k : Nat) :
    (counted result body).take (18 + k) = counted result (body.take k) := by
  have front := length_counted result []
  rw [counted_append, List.take_append, front, counted_append result (body.take k),
    List.take_of_length_le (by rw [front]; simp)]
  simp

variable (memory columnNames rows) in
/-- The fields of a response: the columns and rows, as many as the 32-bit counts say. -/
theorem queryResponseFields_counted (currentDatabase : QString) (body : Bytes) :
    let result := queryResponse columnNames rows currentDatabase
    queryResponseFields memory (start (counted result body)) =
      (do
        let columns ← decodeColumns memory (columnNames.length % 2 ^ 32)
        let rows ← decodeRows memory columns (rows.length % 2 ^ 32)
        let name ← decodeString memory
        pure ⟨result.status, result.resultType, result.rowsAffected, columns, rows, name⟩ :
        Decoder UInt8 QueryResponse) (start body) := by
  intro result
  rw [counted, queryResponseFields]
  rw [bind_apply, readUInt_write (UInt8.toNat_lt _) rfl]
  rw [bind_apply, readUInt_write (UInt8.toNat_lt _) rfl]
  rw [bind_apply, readUInt_write (UInt64.toNat_lt _) rfl]
  rw [bind_apply, readUInt_write (Nat.mod_lt _ (by decide)) rfl]
  rw [bind_apply, readUInt_write (Nat.mod_lt _ (by decide)) rfl]
  have count : result.columns.length = columnNames.length := List.length_map _
  rw [UInt8.ofNat_toNat, UInt8.ofNat_toNat, UInt64.ofNat_toNat, count]
  rfl

variable {currentDatabase : QString}

variable (memory currentDatabase) in
/-- Columns and rows that fit are decoded from a body whose name is as long as it says; what is left
is what follows the name. -/
theorem queryResponseFields_of_fits (fits : Fits columnNames rows) {k : Nat} (small : k < 2 ^ 32)
    {name : Bytes} (enough : k ≤ name.length) :
    ∃ response s, queryResponseFields memory
        (start (payloadWith columnNames rows currentDatabase (streamWrite 4 k ++ name))) =
          (response, s) ∧
      response.columns = columnNames.map varcharColumn ∧ response.rows = rows ∧ s.ok = true ∧
      s.left = name.drop k := by
  obtain ⟨columns, left, ok⟩ := (reads_decodeColumns memory fits.names).whole
    (s := start (responseBody columnNames rows (streamWrite 4 k ++ name))) rfl rfl
  obtain ⟨decoded, left', ok'⟩ := (reads_decodeRows memory fits).whole ok left
  obtain ⟨-, fine, last⟩ := decodeString_of_length memory small left' enough
  rw [payloadWith, queryResponseFields_counted, Nat.mod_eq_of_lt fits.columnCount, Nat.mod_eq_of_lt fits.rowCount]
  simp only [bind_apply, pure_apply, columns, decoded]
  exact ⟨_, _, rfl, rfl, rfl, fine.trans ok', last⟩

/-- Columns and rows that come back fit. -/
theorem fits_of_queryResponseFields {name : Bytes}
    (names : (queryResponseFields memory (start (payloadWith columnNames rows currentDatabase
      name))).1.columns.map ColumnInfo.name = columnNames)
    (back : (queryResponseFields memory (start (payloadWith columnNames rows currentDatabase
      name))).1.rows = rows) : Fits columnNames rows := by
  rw [payloadWith, queryResponseFields_counted] at names back
  simp only [bind_apply, pure_apply] at names back
  -- as many columns and rows come back as their 32-bit counts say
  have columnCount : columnNames.length % 2 ^ 32 = columnNames.length := by
    have count := congrArg List.length names
    rwa [List.length_map, decodeColumns, bind_apply, length_forEach, List.length_replicate] at count
  have rowCount : rows.length % 2 ^ 32 = rows.length := by
    have count := congrArg List.length back
    rwa [decodeRows, bind_apply, length_forEach, List.length_replicate] at count
  rw [columnCount] at names back
  rw [rowCount] at back
  have short := names_of_decodeColumns rfl rfl names
  obtain ⟨columns, left, ok⟩ := (reads_decodeColumns memory short).whole
    (s := start (responseBody columnNames rows name)) rfl rfl
  rw [columns] at back
  exact {
    columnCount := columnCount ▸ Nat.mod_lt _ (by decide)
    rowCount := rowCount ▸ Nat.mod_lt _ (by decide)
    names := short
    rows := fits_of_decodeRows ok left back }

theorem extends_decodeCell (type : UInt8) : Extends (decodeCell memory type) :=
  (extends_readUInt 1).bind fun _ => .ite (.pure _) ((extends_readUInt 4).bind fun _ =>
    .ite (.pure _) ((extends_readArray memory _).bind fun _ => .nested _ _))

theorem extends_queryResponseFields : Extends (queryResponseFields memory) := by
  have text : Extends (decodeString memory) := extends_decodeString
  have columns : ∀ count, Extends (decodeColumns memory count) := fun _ =>
    (Extends.request _).bind fun _ => .forEach (fun _ => text.bind fun _ =>
      (extends_readUInt 1).bind fun _ => .pure _) _
  have rows : ∀ columns count, Extends (decodeRows memory columns count) := fun _ _ =>
    (Extends.request _).bind fun _ => .forEach (fun _ => (Extends.request _).bind fun _ =>
      .forEach (fun _ => extends_decodeCell _) _) _
  exact (extends_readUInt 1).bind fun _ => (extends_readUInt 1).bind fun _ =>
    (extends_readUInt 8).bind fun _ => (extends_readUInt 4).bind fun _ => (extends_readUInt 4).bind
      fun _ => (columns _).bind fun _ => (rows _ _).bind fun _ => text.bind fun _ => .pure _

/-! ## Messages of the client -/

/-- The bytes of a response that the client looks at: of a name of `2 ^ 32` bytes or more only as many
as its length field says. -/
def responseSize (columnNames : List QString) (rows : List (List QVariant)) (currentDatabase : QString) :
    Nat :=
  22 + (encodeColumns columnNames).length + (rows.flatMap encodeRow).length +
    (Utf8.encode currentDatabase).length % 2 ^ 32

/-- Every row has a cell for each column, every name is read back, every cell is NULL or a text that is
read back, there are not too many rows, and the message is not too large. -/
structure Deliverable (columnNames : List QString) (rows : List (List QVariant))
    (currentDatabase : QString) : Prop where
  rowCount : rows.length < 2 ^ 32
  names : ∀ name ∈ columnNames, Legible name
  widths : ∀ row ∈ rows, row.length = columnNames.length
  cells : ∀ row ∈ rows, ∀ cell ∈ row, TextCell cell
  size : responseSize columnNames rows currentDatabase < 2 ^ 31

/-- The client has the columns and rows of the server. -/
def Survives (memory : Nat → UInt8) (columnNames : List QString) (rows : List (List QVariant))
    (currentDatabase : QString) : Prop :=
  ∃ payload response, decodeMessage memory
      (encodeQueryResponse (queryResponse columnNames rows currentDatabase)) =
        some (MessageType.QUERY_RESPONSE, payload) ∧
    decodeQueryResponse memory payload = some response ∧
    response.columns.map ColumnInfo.name = columnNames ∧ response.rows = rows

theorem length_le_flatMap {α : Type} (write : α → Bytes) {x : α} {xs : List α} (listed : x ∈ xs) :
    (write x).length ≤ (xs.flatMap write).length := by
  obtain ⟨before, after, rfl⟩ := List.append_of_mem listed
  simp only [List.flatMap_append, List.flatMap_cons, List.length_append]
  omega

theorem length_le_encodeColumns (columnNames : List QString) :
    columnNames.length ≤ (encodeColumns columnNames).length := by
  induction columnNames with
  | nil => exact Nat.zero_le _
  | cons name columnNames ih =>
    rw [encodeColumns] at ih
    rw [encodeColumns, List.flatMap_cons, encodeColumn, List.length_append, List.length_append,
      length_streamWrite, List.length_cons]
    omega

/-- The counts and lengths of a message that is not too large fit their fields. -/
theorem Deliverable.fits (deliverable : Deliverable columnNames rows currentDatabase) :
    Fits columnNames rows := by
  have size := deliverable.size
  rw [responseSize] at size
  refine ⟨?_, deliverable.rowCount, fun name listed => ⟨?_, deliverable.names name listed⟩,
    fun row listed => ⟨deliverable.widths row listed, fun cell among => ⟨deliverable.cells row listed cell among, ?_⟩⟩⟩
  · have columns := length_le_encodeColumns columnNames
    omega
  · have here := length_le_flatMap (fun name => encodeColumn (varcharColumn name)) listed
    simp only [encodeColumn, varcharColumn, List.length_append, length_encodeString] at here
    rw [encodeColumns] at size
    simp only [encodeColumn, varcharColumn] at size
    omega
  · cases cell with
    | string text =>
      have inRow := length_le_flatMap encodeCell among
      have inRows := length_le_flatMap encodeRow listed
      have block : 4 + (Utf8.encode text).length ≤ (encodeCell (.string text)).length := by
        simp only [encodeCell, encodeVariant, variantData, QVariant.isNull, List.length_append,
          length_streamWrite, length_encodeString, Bool.false_eq_true, if_false]
        omega
      rw [encodeRow] at inRows
      show 4 + _ < 2 ^ 32
      omega
    | _ => trivial

theorem length_payloadWith (name : Bytes) :
    (payloadWith columnNames rows currentDatabase name).length = 18 +
      (encodeColumns columnNames).length + (rows.flatMap encodeRow).length + name.length := by
  rw [payloadWith, length_counted, responseBody, List.length_append, List.length_append]
  omega

/-- What the client has of a response whose size it can hold. -/
theorem take_response (columnNames : List QString) (rows : List (List QVariant)) (currentDatabase : QString) :
    (payloadWith columnNames rows currentDatabase (encodeString currentDatabase)).take
        (responseSize columnNames rows currentDatabase) =
    payloadWith columnNames rows currentDatabase
      (streamWrite 4 ((Utf8.encode currentDatabase).length % 2 ^ 32) ++
        (Utf8.encode currentDatabase).take ((Utf8.encode currentDatabase).length % 2 ^ 32)) := by
  generalize name : Utf8.encode currentDatabase = bytes
  have size : responseSize columnNames rows currentDatabase = 18 + ((encodeColumns columnNames).length +
      ((rows.flatMap encodeRow).length + (4 + bytes.length % 2 ^ 32))) := by
    rw [responseSize, name]
    omega
  rw [size, payloadWith, take_counted, responseBody, List.take_length_add_append, List.take_length_add_append,
    encodeString, name]
  have four : (streamWrite 4 (bytes.length % 2 ^ 32) ++ bytes).take
      ((streamWrite 4 (bytes.length % 2 ^ 32)).length + bytes.length % 2 ^ 32) =
    streamWrite 4 (bytes.length % 2 ^ 32) ++ bytes.take (bytes.length % 2 ^ 32) :=
      List.take_length_add_append _
  rw [length_streamWrite] at four
  rw [four, payloadWith, responseBody]

theorem survives_of_deliverable (deliverable : Deliverable columnNames rows currentDatabase) :
    Survives memory columnNames rows currentDatabase := by
  have size := deliverable.size
  have field : (1 + (payloadWith columnNames rows currentDatabase
      (encodeString currentDatabase)).length) % 2 ^ 32 =
        1 + responseSize columnNames rows currentDatabase := by
    rw [responseSize] at size ⊢
    rw [length_payloadWith, length_encodeString]
    omega
  have message : decodeMessage memory _ = _ :=
    decodeMessage_encodeMessage_take MessageType.QUERY_RESPONSE _ size field
  rw [← encodeQueryResponse_eq, take_response] at message
  have enough : (Utf8.encode currentDatabase).length % 2 ^ 32 ≤ ((Utf8.encode currentDatabase).take
      ((Utf8.encode currentDatabase).length % 2 ^ 32)).length := by
    rw [List.length_take]
    exact Nat.le_min.mpr ⟨Nat.le_refl _, Nat.mod_le _ _⟩
  obtain ⟨response, s, fields, names, back, ok, -⟩ := queryResponseFields_of_fits memory
    currentDatabase deliverable.fits (Nat.mod_lt _ (by decide)) enough
  refine ⟨_, response, message, ?_, ?_, back⟩
  · rw [decodeQueryResponse, decodePayload, if_neg (by simp [payloadWith, counted, ← List.length_eq_zero_iff]), fields]
    simp only [ok, if_true]
  · rw [names, List.map_map]
    exact List.map_id _

theorem deliverable_of_survives (survives : Survives memory columnNames rows currentDatabase) :
    Deliverable columnNames rows currentDatabase := by
  obtain ⟨payload, response, message, decoded, names, back⟩ := survives
  rw [encodeQueryResponse_eq] at message
  obtain ⟨size, small, rfl⟩ := exists_take_of_decodeMessage message
  generalize whole : payloadWith columnNames rows currentDatabase (encodeString currentDatabase) =
    payload at decoded
  rw [decodeQueryResponse, decodePayload] at decoded
  split at decoded
  · cases decoded
  dsimp only at decoded
  split at decoded
  swap
  · cases decoded
  rename_i ok
  rw [← Option.some.inj decoded] at names back
  -- the rest of the payload does not change what is decoded from its beginning
  have longer := extends_queryResponseFields.longer (start (payload.take size)) (payload.drop size) ok
  have again : { start (payload.take size) with
      left := (start (payload.take size)).left ++ payload.drop size } = start payload :=
    congrArg start (List.take_append_drop size payload)
  rw [again] at longer
  have same : (queryResponseFields memory (start payload)).1 =
    (queryResponseFields memory (start (payload.take size))).1 := by rw [longer]
  have fits : Fits columnNames rows := by
    rw [← same, ← whole] at names back
    exact fits_of_queryResponseFields names back
  obtain ⟨response, s, fields, -, -, -, left⟩ := queryResponseFields_of_fits memory
    currentDatabase fits (Nat.mod_lt _ (by decide))
    (Nat.mod_le (Utf8.encode currentDatabase).length (2 ^ 32))
  rw [← encodeString, whole, longer, Prod.mk.injEq] at fields
  rw [← fields.2] at left
  have taken := congrArg List.length left
  have length := congrArg List.length whole
  rw [length_payloadWith, length_encodeString] at length
  simp only [List.length_append, List.length_drop] at taken
  refine ⟨fits.rowCount, fun name listed => (fits.names name listed).2,
    fun row listed => (fits.rows row listed).1,
    fun row listed cell among => ((fits.rows row listed).2 cell among).1, ?_⟩
  rw [responseSize]
  omega

end Tables

/-- A result arrives as it was sent exactly if its cells are NULL or texts that UTF-8 keeps, one for
each column, and it is not too large. -/
theorem queryResponse_survives_iff (memory : Nat → UInt8) (columnNames : List QString)
    (rows : List (List QVariant)) (currentDatabase : QString) :
    Survives memory columnNames rows currentDatabase ↔ Deliverable columnNames rows currentDatabase :=
  ⟨deliverable_of_survives, survives_of_deliverable⟩

/-- The number 7 arrives as a text. -/
theorem queryResponse_loses_int :
    ¬ Survives (fun _ => 0) [[0x6e]] [[.int 7]] [0x64, 0x62] := by
  intro survives
  have deliverable := deliverable_of_survives survives
  exact deliverable.cells _ List.mem_cons_self _ List.mem_cons_self

end QinDB.Network
