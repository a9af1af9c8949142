/-
# Storage.TypeSerializer — values of all types as bytes

`type_serializer.cpp`: a mark for NULL, and behind it the bytes of the value by its type. Integers
are cut to the width of their type. Texts and byte arrays have their length in front, in two bytes or
in four: a longer content is cut to what is left of its length there, and the reader has limits of its
own. Dates and times are counted from the epoch in days, seconds or microseconds.

What Qt makes of a value of another kind, floating-point numbers, JSON documents and shapes are a
parameter; nothing here depends on them.

* `Kept`: what is asked of a value so that nothing is cut or refused.
* `deserialize_serialize_iff`: what is written is read back as an equal value if and only if the value
  is kept.
* `integer_cut`: a number that does not fit is written as another one.
-/
import Mathlib.Data.List.TakeDrop
import QinDB.Base.Utf8
import QinDB.Storage.Uuid

namespace QinDB.Storage.TypeSerializer

open QinDB.Base QinDB.Base.PartialReader QinDB.Core

set_option autoImplicit false

/-! ## Types -/

def isFloatType : DataType → Bool
  | .FLOAT | .REAL | .DOUBLE | .DOUBLE_PRECISION | .BINARY_FLOAT | .BINARY_DOUBLE => true
  | _ => false

def isStringType : DataType → Bool
  | .CHAR | .VARCHAR | .VARCHAR2 | .NCHAR | .NVARCHAR | .TEXT | .TINYTEXT | .MEDIUMTEXT
  | .LONGTEXT | .NTEXT | .CLOB | .NCLOB => true
  | _ => false

def isDateTimeType : DataType → Bool
  | .DATE | .TIME | .DATETIME | .DATETIME2 | .SMALLDATETIME | .TIMESTAMP | .TIMESTAMP_TZ
  | .DATETIMEOFFSET => true
  | _ => false

/-! ## Values -/

/-- A valid `QDate`. -/
structure Day where
  julianDay : Int
  low : -784350574879 ≤ julianDay
  high : julianDay ≤ 784354017364
  deriving DecidableEq

/-- The first of January 1970. -/
def EPOCH : Int := 2440588

/-- A valid `QTime`. -/
structure TimeOfDay where
  msecs : Nat
  below : msecs < 86400000
  deriving DecidableEq

/-- A `QVariant`; a date or a time that is not valid is `none`, and a point in time is counted in
milliseconds from the epoch. -/
inductive Value where
  | null
  | integer (value : Int64)
  | boolean (value : Bool)
  | text (units : List UInt16)
  | bytes (content : Bytes)
  | date (day : Option Day)
  | time (time : Option TimeOfDay)
  | dateTime (msecs : Option Int64)
  deriving DecidableEq

/-- What Qt makes of a value of another kind, and the formats that are Qt's own. -/
structure Qt where
  toInt : Value → Option Int32
  toLongLong : Value → Option Int64
  toBool : Value → Bool
  toText : Value → List UInt16
  toByteArray : Value → Bytes
  toDate : Value → Option Day
  toTime : Value → Option TimeOfDay
  toDateTime : Value → Option Int64
  compactJson : List UInt16 → Option (List UInt16)
  writeFloat : DataType → Value → Option Bytes
  readFloat : DataType → PartialReader UInt8 Value
  parseWKB : List UInt16 → Bytes
  formatWKT : Bytes → List UInt16

namespace Qt

variable (qt : Qt)

/-- The number is cut, and `ok` does not tell. -/
def int : Value → Option Int32
  | .integer value => some value.toInt32
  | value => qt.toInt value

def longLong : Value → Option Int64
  | .integer value => some value
  | value => qt.toLongLong value

def bool : Value → Bool
  | .boolean value => value
  | value => qt.toBool value

def text : Value → List UInt16
  | .text units => units
  | value => qt.toText value

def byteArray : Value → Bytes
  | .bytes content => content
  | value => qt.toByteArray value

def date : Value → Option Day
  | .date day => day
  | value => qt.toDate value

def time : Value → Option TimeOfDay
  | .time time => time
  | value => qt.toTime value

def dateTime : Value → Option Int64
  | .dateTime msecs => msecs
  | value => qt.toDateTime value

end Qt

/-! ## Writing -/

/-- A length, and what is left of the content at that length. -/
def counted (width : Nat) (content : Bytes) : Bytes :=
  LittleEndian.encode width content.length ++ content.take (content.length % 256 ^ width)

/-- The types for short contents keep 255 units or bytes. -/
def tiny {α : Type} (short : Bool) (content : List α) : List α :=
  if short && 255 < content.length then content.take 255 else content

section Write

variable (qt : Qt) (value : Value)

def serializeInteger : DataType → Option Bytes
  | .TINYINT => (qt.int value).map fun v => LittleEndian.encodeInt 1 v.toInt
  | .SMALLINT => (qt.int value).map fun v => LittleEndian.encodeInt 2 v.toInt
  | .MEDIUMINT => (qt.int value).map fun v => LittleEndian.encodeInt 3 v.toInt
  | .INT | .INTEGER | .SERIAL => (qt.int value).map fun v => LittleEndian.encodeInt 4 v.toInt
  | .BIGINT | .BIGSERIAL => (qt.longLong value).map fun v => LittleEndian.encodeInt 8 v.toInt
  | _ => none

def serializeDecimal : Bytes := counted 2 (Utf8.encode (qt.text value))

/-- No length is given for CHAR, so nothing is filled up. -/
def serializeString (type : DataType) : Bytes :=
  counted 2 (Utf8.encode (tiny (type = .TINYTEXT) (qt.text value)))

def serializeBinary (type : DataType) : Bytes :=
  counted 4 (tiny (type = .TINYBLOB) (qt.byteArray value))

def serializeDateTime : DataType → Option Bytes
  | .DATE => (qt.date value).map fun day => LittleEndian.encodeInt 4 (day.julianDay - EPOCH)
  | .TIME => (qt.time value).map fun time => LittleEndian.encodeInt 4 ((time.msecs / 1000 : Nat) : Int)
  | .DATETIME | .DATETIME2 | .TIMESTAMP | .TIMESTAMP_TZ | .DATETIMEOFFSET =>
      (qt.dateTime value).map fun msecs => LittleEndian.encodeInt 8 (msecs.toInt * 1000)
  | .SMALLDATETIME =>
      (qt.dateTime value).map fun msecs => LittleEndian.encodeInt 4 (msecs.toInt.tdiv 1000)
  | _ => none

def serializeBoolean : Bytes := [if qt.bool value then 1 else 0]

def serializeJsonXml (type : DataType) : Bytes :=
  let str := qt.text value
  counted 4 (Utf8.encode
    (if type = .JSON ∨ type = .JSONB then (qt.compactJson str).getD str else str))

def serializeSpecial : DataType → Option Bytes
  | .UUID | .UNIQUEIDENTIFIER =>
      let uuidData := Uuid.parseUUID (qt.text value)
      if uuidData.length ≠ 16 then none else some uuidData
  | .ROWID => some (LittleEndian.encodeInt 8 ((qt.longLong value).getD 0).toInt)
  | .GEOMETRY | .GEOGRAPHY => some (counted 4 (qt.parseWKB (qt.text value)))
  | .HIERARCHYID => some (counted 2 (Utf8.encode (qt.text value)))
  | _ => none

def serializeValue (type : DataType) : Option Bytes :=
  if isIntegerType type then serializeInteger qt value type
  else if isFloatType type then qt.writeFloat type value
  else if type = .DECIMAL ∨ type = .NUMERIC then some (serializeDecimal qt value)
  else if isStringType type then some (serializeString qt value type)
  else if isBinaryType type then some (serializeBinary qt value type)
  else if isDateTimeType type then serializeDateTime qt value type
  else if type = .BOOLEAN ∨ type = .BOOL then some (serializeBoolean qt value)
  else if type = .JSON ∨ type = .JSONB ∨ type = .XML then some (serializeJsonXml qt value type)
  else if type = .UUID ∨ type = .UNIQUEIDENTIFIER ∨ type = .GEOMETRY ∨ type = .GEOGRAPHY ∨
      type = .HIERARCHYID ∨ type = .ROWID then serializeSpecial qt value type
  else none

/-- `none` is `false`. -/
def serialize (type : DataType) : Option Bytes :=
  if value = .null then some [1] else (serializeValue qt value type).map (0 :: ·)

end Write

/-! ## Reading -/

/-- A content behind its length, which must not exceed a limit. -/
def readCounted (width limit : Nat) : PartialReader UInt8 Bytes :=
  (readNumber width).andThen fun len => if limit < len then refuse else items len

def readInteger (width : Nat) : PartialReader UInt8 Value :=
  (readSigned width).map fun v => .integer (.ofInt v)

def deserializeInteger : DataType → PartialReader UInt8 Value
  | .TINYINT => readInteger 1
  | .SMALLINT => readInteger 2
  | .MEDIUMINT => readInteger 3
  | .INT | .INTEGER | .SERIAL => readInteger 4
  | .BIGINT | .BIGSERIAL => readInteger 8
  | _ => refuse

def deserializeDecimal : PartialReader UInt8 Value :=
  (readCounted 2 1024).map fun encoded => .text (Utf8.decode encoded)

/-- No length of two bytes is too large. -/
def deserializeString (type : DataType) : PartialReader UInt8 Value :=
  (readCounted 2 65535).map fun utf8 =>
    let str := Utf8.decode utf8
    .text (if type = .CHAR then trimmed str else str)

def MAX_BINARY : Nat := 16 * 1024 * 1024

def deserializeBinary : PartialReader UInt8 Value := (readCounted 4 MAX_BINARY).map .bytes

/-- `QDate(1970, 1, 1).addDays(days)`: a date outside the range is not valid. -/
def addDays (days : Int) : Option Day :=
  if range : -784350574879 ≤ EPOCH + days ∧ EPOCH + days ≤ 784354017364 then
    some ⟨EPOCH + days, range.1, range.2⟩
  else none

/-- `QTime(0, 0, 0).addSecs(seconds)` -/
def addSecs (seconds : Int) : TimeOfDay :=
  ⟨(seconds.tmod 86400 * 1000 % 86400000).toNat, by omega⟩

def deserializeDateTime : DataType → PartialReader UInt8 Value
  | .DATE => (readSigned 4).map fun days => .date (addDays days)
  | .TIME => (readSigned 4).map fun seconds => .time (some (addSecs seconds))
  | .DATETIME | .DATETIME2 | .TIMESTAMP | .TIMESTAMP_TZ | .DATETIMEOFFSET =>
      (readSigned 8).map fun micros => .dateTime (some (.ofInt (micros.tdiv 1000)))
  | .SMALLDATETIME => (readSigned 4).map fun secs => .dateTime (some (.ofInt (secs * 1000)))
  | _ => refuse

def deserializeBoolean : PartialReader UInt8 Value :=
  (readNumber 1).map fun v => .boolean (v ≠ 0)

def deserializeJsonXml : PartialReader UInt8 Value :=
  (readCounted 4 MAX_BINARY).map fun utf8 => .text (Utf8.decode utf8)

def deserializeSpecial (qt : Qt) : DataType → PartialReader UInt8 Value
  | .UUID | .UNIQUEIDENTIFIER => (items 16).map fun uuidData => .text (Uuid.formatUUID uuidData)
  | .ROWID => readInteger 8
  | .GEOMETRY | .GEOGRAPHY => (readCounted 4 MAX_BINARY).map fun wkb => .text (qt.formatWKT wkb)
  | .HIERARCHYID => (readCounted 2 1024).map fun utf8 => .text (Utf8.decode utf8)
  | _ => refuse

def deserializeValue (qt : Qt) (type : DataType) : PartialReader UInt8 Value :=
  if isIntegerType type then deserializeInteger type
  else if isFloatType type then qt.readFloat type
  else if type = .DECIMAL ∨ type = .NUMERIC then deserializeDecimal
  else if isStringType type then deserializeString type
  else if isBinaryType type then deserializeBinary
  else if isDateTimeType type then deserializeDateTime type
  else if type = .BOOLEAN ∨ type = .BOOL then deserializeBoolean
  else if type = .JSON ∨ type = .JSONB ∨ type = .XML then deserializeJsonXml
  else if type = .UUID ∨ type = .UNIQUEIDENTIFIER ∨ type = .GEOMETRY ∨ type = .GEOGRAPHY ∨
      type = .HIERARCHYID ∨ type = .ROWID then deserializeSpecial qt type
  else refuse

/-- The mark of an empty array is read as zero, and nothing is read behind it. What is left at the end
is not looked at. -/
def deserialize (qt : Qt) (data : Bytes) (type : DataType) : Option Value :=
  match data with
  | [] => none
  | isNull :: rest =>
      if isNull ≠ 0 then some .null else (deserializeValue qt type rest).map Prod.fst

/-! ## Values that are kept -/

inductive Kind where
  | integer | boolean | text | bytes | date | time | dateTime
  deriving DecidableEq, Repr

def Value.kind : Value → Option Kind
  | .null => none
  | .integer _ => some .integer
  | .boolean _ => some .boolean
  | .text _ => some .text
  | .bytes _ => some .bytes
  | .date _ => some .date
  | .time _ => some .time
  | .dateTime _ => some .dateTime

/-- The kind of value that a type is for. -/
def kindOf : DataType → Option Kind
  | .TINYINT | .SMALLINT | .MEDIUMINT | .INT | .INTEGER | .BIGINT | .SERIAL | .BIGSERIAL | .ROWID =>
      some .integer
  | .BOOLEAN | .BOOL => some .boolean
  | .DECIMAL | .NUMERIC | .CHAR | .VARCHAR | .VARCHAR2 | .NCHAR | .NVARCHAR | .TEXT | .TINYTEXT
  | .MEDIUMTEXT | .LONGTEXT | .NTEXT | .CLOB | .NCLOB | .JSON | .JSONB | .XML | .UUID
  | .UNIQUEIDENTIFIER | .HIERARCHYID => some .text
  | .BINARY | .VARBINARY | .BYTEA | .BLOB | .TINYBLOB | .MEDIUMBLOB | .LONGBLOB | .IMAGE =>
      some .bytes
  | .DATE => some .date
  | .TIME => some .time
  | .DATETIME | .DATETIME2 | .SMALLDATETIME | .TIMESTAMP | .TIMESTAMP_TZ | .DATETIMEOFFSET =>
      some .dateTime
  | _ => none

/-- NULL, or a value of the kind of the type. -/
def Of (type : DataType) (value : Value) : Prop := value = .null ∨ value.kind = kindOf type

/-- The types whose values are written in a format of this module. -/
def Covered (type : DataType) : Prop :=
  isFloatType type = false ∧ type ≠ .JSON ∧ type ≠ .JSONB ∧ type ≠ .XML ∧ type ≠ .HIERARCHYID

/-- UUIDs are equal if their digits are. -/
def normal (type : DataType) : Value → Value
  | .text units => .text (if type = .UUID ∨ type = .UNIQUEIDENTIFIER then Uuid.digits units else units)
  | value => value

def Fits (width : Nat) (v : Int) : Prop := -(256 ^ width : Int) ≤ 2 * v ∧ 2 * v < 256 ^ width

def integerWidth : DataType → Nat
  | .TINYINT => 1
  | .SMALLINT => 2
  | .MEDIUMINT => 3
  | .INT | .INTEGER | .SERIAL => 4
  | .BIGINT | .BIGSERIAL | .ROWID => 8
  | _ => 0

/-- What UTF-8 keeps of a text. -/
def Readable (text : List UInt16) : Prop := Utf8.Paired text = true ∧ text.head? ≠ some 0xFEFF

/-- Nothing of the value is cut, and the reader does not refuse it. -/
def Kept (type : DataType) : Value → Prop
  | .integer v => Fits (integerWidth type) v.toInt
  | .text units =>
      if type = .DECIMAL ∨ type = .NUMERIC then
        Readable units ∧ (Utf8.encode units).length ≤ 1024
      else if type = .UUID ∨ type = .UNIQUEIDENTIFIER then Uuid.IsUuid units
      else Readable units ∧ (Utf8.encode units).length < 65536 ∧
        (type = .TINYTEXT → units.length ≤ 255) ∧ (type = .CHAR → trimmed units = units)
  | .bytes content =>
      content.length ≤ MAX_BINARY ∧ (type = .TINYBLOB → content.length ≤ 255)
  | .date (some day) => Fits 4 (day.julianDay - EPOCH)
  | .time (some time) => 1000 ∣ time.msecs
  | .dateTime (some msecs) =>
      if type = .SMALLDATETIME then 1000 ∣ msecs.toInt ∧ Fits 4 (msecs.toInt / 1000)
      else Fits 8 (msecs.toInt * 1000)
  | _ => True

/-! ## Numbers -/

/-- The number that is read of an integer that has been written in so many bytes. -/
def cut (width : Nat) (v : Int) : Int :=
  LittleEndian.signed width (LittleEndian.decode (LittleEndian.encodeInt width v))

theorem read_encodeInt (width : Nat) (v : Int) :
    readSigned width (LittleEndian.encodeInt width v) = some (cut width v, []) := by
  have taken := (takes_items (LittleEndian.encodeInt width v)).whole []
  rw [List.append_nil, LittleEndian.length_encodeInt] at taken
  rw [readSigned, readNumber, PartialReader.map, PartialReader.map, taken]
  rfl

theorem fits_cut (width : Nat) (v : Int) : Fits width (cut width v) := by
  have below := LittleEndian.decode_lt (LittleEndian.encodeInt width v)
  rw [LittleEndian.length_encodeInt] at below
  have known : (LittleEndian.decode (LittleEndian.encodeInt width v) : Int) < 256 ^ width := by
    exact_mod_cast below
  rw [Fits, cut, LittleEndian.signed]
  split
  · rename_i half
    have : 2 * (LittleEndian.decode (LittleEndian.encodeInt width v) : Int) < 256 ^ width := by
      exact_mod_cast half
    omega
  · rename_i half
    have : (256 ^ width : Int) ≤ 2 * (LittleEndian.decode (LittleEndian.encodeInt width v) : Int) := by
      exact_mod_cast Nat.le_of_not_lt half
    omega

theorem cut_eq_iff (width : Nat) (v : Int) : cut width v = v ↔ Fits width v :=
  ⟨fun same => same ▸ fits_cut width v, fun fits => LittleEndian.signed_encodeInt fits.1 fits.2⟩

theorem Fits.mono {width more : Nat} {v : Int} (le : width ≤ more) (fits : Fits width v) :
    Fits more v := by
  have grows : (256 ^ width : Int) ≤ 256 ^ more := by
    exact_mod_cast Nat.pow_le_pow_right (by decide) le
  exact ⟨by have := fits.1; omega, by have := fits.2; omega⟩

/-- An integer that fits in eight bytes is one of the machine. -/
theorem ofInt_eq_iff {v : Int} (fits : Fits 8 v) (n : Int64) : Int64.ofInt v = n ↔ v = n.toInt := by
  have back : (Int64.ofInt v).toInt = v :=
    Int64.toInt_ofInt_of_le (by have := fits.1; omega) (by have := fits.2; omega)
  rw [← Int64.toInt_inj, back]

/-- The cut to 32 bits does not change the low bytes. -/
theorem encodeInt_toInt32 {width : Nat} (few : width ≤ 4) (v : Int64) :
    LittleEndian.encodeInt width v.toInt32.toInt = LittleEndian.encodeInt width v.toInt := by
  have divides : (256 ^ width : Int) ∣ (2 ^ 32 : Nat) := by
    have : (256 ^ width : Nat) ∣ 256 ^ 4 := Nat.pow_dvd_pow 256 few
    exact_mod_cast this
  have low : v.toInt32.toInt % 256 ^ width = v.toInt % 256 ^ width := by
    rw [Int64.toInt_toInt32, ← Int.emod_emod_of_dvd _ divides, Int.bmod_emod, Int.emod_emod_of_dvd _ divides]
  rw [LittleEndian.encodeInt, LittleEndian.encodeInt, low]

theorem integer_back {width : Nat} (few : width ≤ 8) (v : Int64) :
    Value.integer (.ofInt (cut width v.toInt)) = .integer v ↔ Fits width v.toInt := by
  rw [Value.integer.injEq, ofInt_eq_iff ((fits_cut width _).mono few), cut_eq_iff]

/-! ## Dates and times -/

theorem date_back (day : Day) :
    Value.date (addDays (cut 4 (day.julianDay - EPOCH))) = .date (some day) ↔
      Fits 4 (day.julianDay - EPOCH) := by
  rw [Value.date.injEq, ← cut_eq_iff, addDays]
  have low := day.low
  have high := day.high
  obtain ⟨julianDay, _, _⟩ := day
  split
  · rw [Option.some.injEq, Day.mk.injEq]
    simp only
    omega
  · rename_i outside
    refine iff_of_false nofun fun same => outside ?_
    rw [same]
    simp only at low high ⊢
    omega

theorem time_back (time : TimeOfDay) :
    Value.time (some (addSecs (cut 4 ((time.msecs / 1000 : Nat) : Int)))) = .time (some time) ↔
      1000 ∣ time.msecs := by
  have below := time.below
  have whole : cut 4 ((time.msecs / 1000 : Nat) : Int) = ((time.msecs / 1000 : Nat) : Int) := by
    refine (cut_eq_iff 4 _).mpr ⟨?_, ?_⟩ <;> omega
  have same : (addSecs ((time.msecs / 1000 : Nat) : Int)).msecs = time.msecs / 1000 * 1000 := by
    rw [addSecs]
    simp only
    rw [Int.tmod_eq_of_lt (by omega) (by omega)]
    omega
  rw [whole, Value.time.injEq, Option.some.injEq]
  constructor
  · intro back
    rw [back] at same
    omega
  · intro divides
    rw [Nat.div_mul_cancel divides] at same
    generalize addSecs _ = read at same ⊢
    cases read
    cases time
    cases same
    rfl

/-- Division cuts towards zero. -/
theorem tdiv_thousand (m : Int) :
    m.tdiv 1000 = if 0 ≤ m ∨ 1000 ∣ m then m / 1000 else m / 1000 + 1 := by
  rw [Int.tdiv_eq_ediv]
  split
  · exact Int.add_zero _
  · rfl

theorem dateTime_back (msecs : Int64) :
    Value.dateTime (some (.ofInt ((cut 8 (msecs.toInt * 1000)).tdiv 1000))) = .dateTime (some msecs) ↔
      Fits 8 (msecs.toInt * 1000) := by
  have fits := fits_cut 8 (msecs.toInt * 1000)
  generalize read : cut 8 (msecs.toInt * 1000) = micros at fits
  rw [tdiv_thousand]
  have quotient : Fits 8 (if 0 ≤ micros ∨ 1000 ∣ micros then micros / 1000 else micros / 1000 + 1) := by
    rw [Fits] at fits ⊢
    split <;> omega
  rw [Value.dateTime.injEq, Option.some.injEq, ofInt_eq_iff quotient]
  constructor
  · intro same
    rw [← same]
    rw [Fits] at fits ⊢
    split <;> omega
  · intro whole
    rw [← read, (cut_eq_iff _ _).mpr whole, if_pos (.inr ⟨msecs.toInt, Int.mul_comm _ _⟩)]
    omega

theorem smallDateTime_back (msecs : Int64) :
    Value.dateTime (some (.ofInt (cut 4 (msecs.toInt.tdiv 1000) * 1000))) = .dateTime (some msecs) ↔
      1000 ∣ msecs.toInt ∧ Fits 4 (msecs.toInt / 1000) := by
  have fits := fits_cut 4 (msecs.toInt.tdiv 1000)
  generalize read : cut 4 (msecs.toInt.tdiv 1000) = secs at fits
  have product : Fits 8 (secs * 1000) := by
    rw [Fits] at fits ⊢
    omega
  rw [tdiv_thousand] at read
  rw [Value.dateTime.injEq, Option.some.injEq, ofInt_eq_iff product]
  constructor
  · intro same
    have quotient : msecs.toInt / 1000 = secs := by omega
    rw [quotient]
    exact ⟨⟨secs, by omega⟩, fits⟩
  · rintro ⟨divides, whole⟩
    rw [← read, if_pos (.inr divides), (cut_eq_iff _ _).mpr whole]
    omega

/-! ## Texts and byte arrays -/

theorem read_counted (width limit : Nat) (content : Bytes) :
    readCounted width limit (counted width content) =
      if limit < content.length % 256 ^ width then none
      else some (content.take (content.length % 256 ^ width), []) := by
  have number : readNumber width (counted width content) =
      some (content.length % 256 ^ width, content.take (content.length % 256 ^ width)) := by
    have taken := (takes_items (LittleEndian.encode width content.length)).whole
      (content.take (content.length % 256 ^ width))
    rw [LittleEndian.length_encode] at taken
    rw [readNumber, PartialReader.map, counted, taken, Option.map_some, LittleEndian.decode_encode]
  have rest := (takes_items (content.take (content.length % 256 ^ width))).whole []
  rw [List.append_nil, List.length_take, Nat.min_eq_left (Nat.mod_le _ _)] at rest
  rw [readCounted, PartialReader.andThen, number, Option.bind_some]
  split
  · rfl
  · exact rest

/-- The text behind a length of two bytes. -/
def stored (text : List UInt16) : List UInt16 :=
  Utf8.decode ((Utf8.encode text).take ((Utf8.encode text).length % 256 ^ 2))

theorem stored_of_short {text : List UInt16} (short : (Utf8.encode text).length < 65536) :
    stored text = Utf8.decode (Utf8.encode text) := by
  rw [stored, Nat.mod_eq_of_lt (show _ < 256 ^ 2 from short), List.take_length]

/-- A longer text is stored as one whose bytes are fewer. -/
theorem length_encode_stored_lt {text : List UInt16} (long : 65536 ≤ (Utf8.encode text).length) :
    (Utf8.encode (stored text)).length < (Utf8.encode text).length := by
  have bound := Utf8.length_encode_decode_take text ((Utf8.encode text).length % 256 ^ 2)
  rw [stored]
  omega

theorem stored_eq_iff (text : List UInt16) :
    stored text = text ↔ Readable text ∧ (Utf8.encode text).length < 65536 := by
  rcases Nat.lt_or_ge (Utf8.encode text).length 65536 with short | long
  · rw [stored_of_short short, Utf8.decode_encode_eq_iff, Readable, and_iff_left short]
  · refine iff_of_false (fun same => ?_) fun kept => Nat.not_lt.mpr long kept.2
    have fewer := length_encode_stored_lt long
    rw [same] at fewer
    exact Nat.lt_irrefl _ fewer

theorem trimmed_isInfix (text : List UInt16) : trimmed text <:+: text :=
  (List.rdropWhile_prefix _ _).isInfix.trans (List.dropWhile_suffix _).isInfix

theorem trimmed_stored_eq_iff (text : List UInt16) : trimmed (stored text) = text ↔
    (Readable text ∧ (Utf8.encode text).length < 65536) ∧ trimmed text = text := by
  rw [← stored_eq_iff]
  constructor
  · intro same
    suffices kept : stored text = text from ⟨kept, by rwa [kept] at same⟩
    rcases Nat.lt_or_ge (Utf8.encode text).length 65536 with short | long
    · -- Neither reading nor trimming makes a text longer.
      have read := Utf8.length_decode_encode_le text
      rw [← stored_of_short short] at read
      have all := (trimmed_isInfix (stored text)).sublist.eq_of_length_le (by rw [same]; exact read)
      rwa [all] at same
    · have fewer := length_encode_stored_lt long
      have part : (Utf8.encode (trimmed (stored text))).length ≤ (Utf8.encode (stored text)).length :=
        Nat.le_trans (Utf8.length_encode_front_le (List.rdropWhile_prefix _ _))
          (Utf8.length_encode_back_le (List.dropWhile_suffix _))
      rw [same] at part
      omega
  · rintro ⟨kept, whole⟩
    rw [kept, whole]

theorem tiny_eq_self {α : Type} {short : Bool} {content : List α}
    (fits : short = true → content.length ≤ 255) : tiny short content = content := by
  rw [tiny, if_neg]
  rw [Bool.and_eq_true, decide_eq_true_eq]
  exact fun long => Nat.not_lt.mpr (fits long.1) long.2

theorem length_tiny_le {α : Type} (content : List α) : (tiny true content).length ≤ 255 := by
  rw [tiny]
  split
  · exact List.length_take_le _ _
  · rename_i short
    rw [Bool.true_and, decide_eq_true_eq] at short
    omega

theorem stored_tiny_eq_iff (short : Bool) (text : List UInt16) : stored (tiny short text) = text ↔
    (Readable text ∧ (Utf8.encode text).length < 65536) ∧ (short = true → text.length ≤ 255) := by
  by_cases fits : short = true → text.length ≤ 255
  · rw [tiny_eq_self fits, stored_eq_iff, and_iff_left fits]
  · refine iff_of_false (fun same => fits fun here => ?_) fun kept => fits kept.2
    subst here
    have size := length_tiny_le text
    have bytes := Utf8.length_encode_le (tiny true text)
    have read := Utf8.length_decode_encode_le (tiny true text)
    rw [← stored_of_short (by omega), same] at read
    exact Nat.le_trans read size

theorem string_back (type : DataType) (text : List UInt16) :
    (if type = .CHAR then trimmed (stored (tiny (type = .TINYTEXT) text))
      else stored (tiny (type = .TINYTEXT) text)) = text ↔
      Readable text ∧ (Utf8.encode text).length < 65536 ∧ (type = .TINYTEXT → text.length ≤ 255) ∧
        (type = .CHAR → trimmed text = text) := by
  by_cases char : type = .CHAR
  · rw [if_pos char, tiny_eq_self (by rw [char]; nofun), trimmed_stored_eq_iff]
    simp only [char, reduceCtorEq, false_implies, true_implies, true_and, and_assoc]
  · rw [if_neg char, stored_tiny_eq_iff]
    simp only [char, decide_eq_true_eq, false_implies, and_true, and_assoc]

theorem decimal_back (text : List UInt16) :
    (¬ 1024 < (Utf8.encode text).length % 256 ^ 2 ∧ stored text = text) ↔
      Readable text ∧ (Utf8.encode text).length ≤ 1024 := by
  rw [stored_eq_iff]
  constructor
  · rintro ⟨small, readable, short⟩
    exact ⟨readable, by omega⟩
  · rintro ⟨readable, few⟩
    exact ⟨by omega, readable, by omega⟩

theorem binary_back (short : Bool) (data : Bytes) :
    (¬ MAX_BINARY < (tiny short data).length % 256 ^ 4 ∧
      (tiny short data).take ((tiny short data).length % 256 ^ 4) = data) ↔
      data.length ≤ MAX_BINARY ∧ (short = true → data.length ≤ 255) := by
  by_cases fits : short = true → data.length ≤ 255
  · rw [tiny_eq_self fits, and_iff_left fits, List.take_eq_self_iff, MAX_BINARY]
    omega
  · refine iff_of_false (fun same => fits fun here => ?_) fun kept => fits kept.2
    subst here
    rw [← same.2]
    exact Nat.le_trans (List.length_take_le' _ _) (length_tiny_le data)

/-! ## Round trips -/

/-- An equal value is read from the bytes. -/
def Restored (qt : Qt) (type : DataType) (value : Value) (data : Bytes) : Prop :=
  ∃ back, deserialize qt data type = some back ∧ normal type back = normal type value

variable {qt : Qt} {type : DataType} {value : Value} {content : Bytes}

theorem restored_iff {back : Value} {rest : Bytes}
    (read : deserializeValue qt type content = some (back, rest)) :
    Restored qt type value (0 :: content) ↔ normal type back = normal type value := by
  have here : deserialize qt (0 :: content) type = some back := by
    rw [deserialize, if_neg (not_not_intro rfl), read, Option.map_some]
  rw [Restored, here]
  simp only [Option.some.injEq, exists_eq_left']

theorem not_restored (refused : deserializeValue qt type content = none) :
    ¬ Restored qt type value (0 :: content) := by
  rintro ⟨back, here, _⟩
  rw [deserialize, if_neg (not_not_intro rfl), refused] at here
  cases here

theorem map_some {α β : Type} {reader : PartialReader UInt8 α} {a : α} (f : α → β) {rest : Bytes}
    (read : reader content = some (a, rest)) : reader.map f content = some (f a, rest) := by
  rw [PartialReader.map, read, Option.map_some]

theorem restored_signed {width : Nat} {v : Int} {f : Int → Value}
    (reads : deserializeValue qt type = (readSigned width).map f) :
    Restored qt type value (0 :: LittleEndian.encodeInt width v) ↔
      normal type (f (cut width v)) = normal type value :=
  restored_iff (by rw [reads]; exact map_some f (read_encodeInt width v))

theorem restored_integer (kind : kindOf type = some .integer) {v : Int64}
    (written : serializeValue qt (.integer v) type = some content) :
    Restored qt type (.integer v) (0 :: content) ↔ Kept type (.integer v) := by
  have low : ∀ width ≤ 4, some (LittleEndian.encodeInt width v.toInt32.toInt) =
      some (LittleEndian.encodeInt width v.toInt) := fun width few => by rw [encodeInt_toInt32 few]
  have format : serializeValue qt (.integer v) type =
      some (LittleEndian.encodeInt (integerWidth type) v.toInt) ∧
      deserializeValue qt type = readInteger (integerWidth type) ∧ integerWidth type ≤ 8 := by
    cases type <;> first
      | exact absurd kind (by decide)
      | exact ⟨rfl, rfl, by decide⟩
      | exact ⟨low _ (by decide), rfl, by decide⟩
  obtain ⟨writes, reads, few⟩ := format
  cases writes.symm.trans written
  exact (restored_signed reads).trans (integer_back few v)

theorem restored_decimal (decimal : type = .DECIMAL ∨ type = .NUMERIC) {units : List UInt16}
    (written : serializeValue qt (.text units) type = some content) :
    Restored qt type (.text units) (0 :: content) ↔ Kept type (.text units) := by
  have format : serializeValue qt (.text units) type = some (counted 2 (Utf8.encode units)) ∧
      deserializeValue qt type = deserializeDecimal ∧
      (Kept type (.text units) ↔ Readable units ∧ (Utf8.encode units).length ≤ 1024) ∧
      normal type = id := by
    rcases decimal with rfl | rfl
    · exact ⟨rfl, rfl, Iff.rfl, funext fun value => by cases value <;> rfl⟩
    · exact ⟨rfl, rfl, Iff.rfl, funext fun value => by cases value <;> rfl⟩
  obtain ⟨writes, reads, kept, same⟩ := format
  cases writes.symm.trans written
  have counted := read_counted 2 1024 (Utf8.encode units)
  rw [kept, ← decimal_back]
  split at counted
  · rename_i long
    refine iff_of_false (not_restored ?_) fun back => back.1 long
    rw [reads, deserializeDecimal, PartialReader.map, counted, Option.map_none]
  · rename_i short
    rw [restored_iff (by rw [reads]; exact map_some _ counted), same, and_iff_right short]
    exact Value.text.injEq _ _ ▸ Iff.rfl

theorem string_format (qt : Qt) (string : isStringType type = true) (units : List UInt16) :
    serializeValue qt (.text units) type =
        some (counted 2 (Utf8.encode (tiny (type = .TINYTEXT) units))) ∧
      deserializeValue qt type = deserializeString type ∧
      ∀ units, normal type (.text units) = .text units := by
  cases type <;> first
    | exact absurd string Bool.false_ne_true
    | exact ⟨rfl, rfl, fun _ => rfl⟩

theorem read_string (string : isStringType type = true) {units : List UInt16}
    (written : serializeValue qt (.text units) type = some content) :
    deserializeValue qt type content = some (.text
      (if type = .CHAR then trimmed (stored (tiny (type = .TINYTEXT) units))
        else stored (tiny (type = .TINYTEXT) units)), []) := by
  obtain ⟨writes, reads, _⟩ := string_format qt string units
  cases writes.symm.trans written
  have counted := read_counted 2 65535 (Utf8.encode (tiny (type = .TINYTEXT) units))
  rw [if_neg (by omega)] at counted
  rw [reads]
  exact map_some _ counted

theorem restored_string (string : isStringType type = true) {units : List UInt16}
    (written : serializeValue qt (.text units) type = some content) :
    Restored qt type (.text units) (0 :: content) ↔ Kept type (.text units) := by
  have kept : Kept type (.text units) ↔ Readable units ∧ (Utf8.encode units).length < 65536 ∧
      (type = .TINYTEXT → units.length ≤ 255) ∧ (type = .CHAR → trimmed units = units) := by
    cases type <;> first
      | exact absurd string Bool.false_ne_true
      | exact Iff.rfl
  obtain ⟨_, _, same⟩ := string_format qt string units
  rw [restored_iff (read_string string written), same, same, kept, ← string_back, Value.text.injEq]

theorem restored_uuid (uuid : type = .UUID ∨ type = .UNIQUEIDENTIFIER) {units : List UInt16}
    (written : serializeValue qt (.text units) type = some content) :
    Restored qt type (.text units) (0 :: content) ↔ Kept type (.text units) := by
  have length := Uuid.length_parseUUID units
  have format : serializeValue qt (.text units) type =
      (if (Uuid.parseUUID units).length ≠ 16 then none else some (Uuid.parseUUID units)) ∧
      deserializeValue qt type =
        (items 16).map (fun uuidData => .text (Uuid.formatUUID uuidData)) ∧
      (Kept type (.text units) ↔ Uuid.IsUuid units) ∧
      ∀ units, normal type (.text units) = .text (Uuid.digits units) := by
    rcases uuid with rfl | rfl
    · exact ⟨rfl, rfl, Iff.rfl, fun _ => rfl⟩
    · exact ⟨rfl, rfl, Iff.rfl, fun _ => rfl⟩
  obtain ⟨writes, reads, kept, same⟩ := format
  rw [if_neg (not_not_intro length)] at writes
  cases writes.symm.trans written
  have taken := (takes_items (Uuid.parseUUID units)).whole []
  rw [List.append_nil, length] at taken
  rw [restored_iff (by rw [reads]; exact map_some _ taken), same, same, kept, ← Uuid.digits_parsed_iff,
    Value.text.injEq]

theorem restored_text (covered : Covered type) (kind : kindOf type = some .text)
    {units : List UInt16} (written : serializeValue qt (.text units) type = some content) :
    Restored qt type (.text units) (0 :: content) ↔ Kept type (.text units) := by
  have family : (type = .DECIMAL ∨ type = .NUMERIC) ∨ isStringType type = true ∨
      (type = .UUID ∨ type = .UNIQUEIDENTIFIER) := by
    obtain ⟨_, json, jsonb, xml, hierarchy⟩ := covered
    cases type <;> first
      | exact absurd kind (by decide)
      | decide
      | contradiction
  rcases family with decimal | string | uuid
  · exact restored_decimal decimal written
  · exact restored_string string written
  · exact restored_uuid uuid written

theorem read_binary (kind : kindOf type = some .bytes) {data : Bytes}
    (written : serializeValue qt (.bytes data) type = some content) :
    deserializeValue qt type content =
      if MAX_BINARY < (tiny (type = .TINYBLOB) data).length % 256 ^ 4 then none
      else some (.bytes ((tiny (type = .TINYBLOB) data).take
        ((tiny (type = .TINYBLOB) data).length % 256 ^ 4)), []) := by
  have format : serializeValue qt (.bytes data) type = some (counted 4 (tiny (type = .TINYBLOB) data)) ∧
      deserializeValue qt type = deserializeBinary := by
    cases type <;> first
      | exact absurd kind (by decide)
      | exact ⟨rfl, rfl⟩
  obtain ⟨writes, reads⟩ := format
  cases writes.symm.trans written
  rw [reads, deserializeBinary, PartialReader.map, read_counted]
  split <;> rfl

theorem restored_binary (kind : kindOf type = some .bytes) {data : Bytes}
    (written : serializeValue qt (.bytes data) type = some content) :
    Restored qt type (.bytes data) (0 :: content) ↔ Kept type (.bytes data) := by
  have read := read_binary kind written
  have kept := binary_back (type = .TINYBLOB) data
  rw [decide_eq_true_eq] at kept
  refine Iff.trans ?_ kept
  split at read
  · rename_i long
    exact iff_of_false (not_restored read) fun back => back.1 long
  · rename_i short
    rw [restored_iff read, and_iff_right short]
    exact Value.bytes.injEq _ _ ▸ Iff.rfl

theorem restored_dateTime (kind : kindOf type = some .dateTime) {msecs : Int64}
    (written : serializeValue qt (.dateTime (some msecs)) type = some content) :
    Restored qt type (.dateTime (some msecs)) (0 :: content) ↔
      Kept type (.dateTime (some msecs)) := by
  by_cases small : type = .SMALLDATETIME
  · subst small
    cases written
    exact (restored_signed (f := fun secs => .dateTime (some (.ofInt (secs * 1000)))) rfl).trans
      (smallDateTime_back msecs)
  · have format : serializeValue qt (.dateTime (some msecs)) type =
        some (LittleEndian.encodeInt 8 (msecs.toInt * 1000)) ∧
        deserializeValue qt type =
          (readSigned 8).map (fun micros => .dateTime (some (.ofInt (micros.tdiv 1000)))) := by
      cases type <;> first
        | exact absurd kind (by decide)
        | exact absurd rfl small
        | exact ⟨rfl, rfl⟩
    obtain ⟨writes, reads⟩ := format
    cases writes.symm.trans written
    rw [Kept, if_neg small]
    exact (restored_signed reads).trans (dateTime_back msecs)

theorem restored_iff_kept {data : Bytes} (covered : Covered type) (is_of : Of type value)
    (written : serialize qt value type = some data) : Restored qt type value data ↔ Kept type value := by
  rcases is_of with rfl | kind
  · cases written
    exact iff_of_true ⟨.null, rfl, rfl⟩ trivial
  cases value with
  | null =>
    cases written
    exact iff_of_true ⟨.null, rfl, rfl⟩ trivial
  | integer v =>
    obtain ⟨content, here, rfl⟩ := Option.map_eq_some_iff.mp written
    exact restored_integer kind.symm here
  | boolean v =>
    have read : deserialize qt data type = some (.boolean v) := by
      have kind : kindOf type = some .boolean := kind.symm
      cases type <;> first
        | exact absurd kind (by decide)
        | cases written; cases v <;> rfl
    exact iff_of_true ⟨_, read, rfl⟩ trivial
  | text units =>
    obtain ⟨content, here, rfl⟩ := Option.map_eq_some_iff.mp written
    exact restored_text covered kind.symm here
  | bytes data =>
    obtain ⟨content, here, rfl⟩ := Option.map_eq_some_iff.mp written
    exact restored_binary kind.symm here
  | date day =>
    obtain ⟨content, here, rfl⟩ := Option.map_eq_some_iff.mp written
    obtain rfl : type = .DATE := by
      have kind : kindOf type = some .date := kind.symm
      cases type <;> first
        | exact absurd kind (by decide)
        | rfl
    cases day with
    | none => cases here
    | some day =>
      cases here
      exact (restored_signed (f := fun days => .date (addDays days)) rfl).trans (date_back day)
  | time time =>
    obtain ⟨content, here, rfl⟩ := Option.map_eq_some_iff.mp written
    obtain rfl : type = .TIME := by
      have kind : kindOf type = some .time := kind.symm
      cases type <;> first
        | exact absurd kind (by decide)
        | rfl
    cases time with
    | none => cases here
    | some time =>
      cases here
      exact (restored_signed (f := fun seconds => .time (some (addSecs seconds))) rfl).trans
        (time_back time)
  | dateTime msecs =>
    obtain ⟨content, here, rfl⟩ := Option.map_eq_some_iff.mp written
    cases msecs with
    | none =>
      have invalid : serializeValue qt (.dateTime none) type = none := by
        have kind : kindOf type = some .dateTime := kind.symm
        cases type <;> first
          | exact absurd kind (by decide)
          | rfl
      cases invalid.symm.trans here
    | some msecs => exact restored_dateTime kind.symm here

/-- What is written is read back as an equal value if and only if the value is kept; NULL always is. -/
theorem deserialize_serialize_iff (qt : Qt) (type : DataType) (value : Value) (data : Bytes)
    (covered : Covered type) (is_of : Of type value) (written : serialize qt value type = some data) :
    (∃ back, deserialize qt data type = some back ∧ normal type back = normal type value) ↔
      Kept type value :=
  restored_iff_kept covered is_of written

/-- A Qt that converts nothing. -/
def Qt.plain : Qt where
  toInt _ := none
  toLongLong _ := none
  toBool _ := false
  toText _ := []
  toByteArray _ := []
  toDate _ := none
  toTime _ := none
  toDateTime _ := none
  compactJson _ := none
  writeFloat _ _ := none
  readFloat _ := refuse
  parseWKB _ := []
  formatWKT _ := []

theorem deserialize_serialize_iff_tinyInt :
    ∃ back, deserialize .plain [0, 0xff] .TINYINT = some back ∧
      normal .TINYINT back = normal .TINYINT (.integer (-1)) :=
  (deserialize_serialize_iff .plain .TINYINT (.integer (-1)) [0, 0xff] ⟨rfl, by decide⟩ (.inr rfl)
    (by decide)).mpr ⟨by decide, by decide⟩

/-- A number that does not fit is written, and read as another one. -/
theorem integer_cut : serialize .plain (.integer 300) .TINYINT = some [0, 44] ∧
    deserialize .plain [0, 44] .TINYINT = some (.integer 44) := by
  decide

end QinDB.Storage.TypeSerializer
