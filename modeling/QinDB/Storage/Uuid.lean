/-
# Storage.Uuid — UUIDs as sixteen bytes

`parseUUID` and `formatUUID` of `type_serializer.cpp`. Braces and hyphens are taken out, and each two
units that are left are read as a byte: those that are no number are left out, and zeros are added at
the end. A UUID stands for its digits, whatever their case.

* `digits_formatUUID`: the digits of a formatted UUID are those of its bytes.
* `digits_parsed_iff`: parsing keeps the digits of a text if and only if it has thirty-two, and nothing
  else.
-/
import QinDB.Storage.Texts

namespace QinDB.Storage.Uuid

open QinDB.Base.Numerals QinDB.Core

set_option autoImplicit false

def cleaned (text : List UInt16) : List UInt16 :=
  ((text.filter (· ≠ 0x7b)).filter (· ≠ 0x7d)).filter (· ≠ 0x2d)

/-- `mid(i, 2)` for every second `i`. -/
def twos : List UInt16 → List (List UInt16)
  | first :: second :: rest => [first, second] :: twos rest
  | [] => []
  | [last] => [[last]]

def parseUUID (uuidStr : List UInt16) : Bytes :=
  let result := (twos ((cleaned uuidStr).take 32)).filterMap fun byteStr =>
    (unsigned 16 (2 ^ 32) byteStr).map UInt8.ofNat
  result ++ List.replicate (16 - result.length) 0

/-- `QString("%1").arg(byte, 2, 16, QChar('0'))` -/
def hexByte (byte : UInt8) : List UInt16 :=
  let text := numeral 16 byte.toNat
  List.replicate (2 - text.length) 0x30 ++ text

def toUpper (unit : UInt16) : UInt16 := if 0x61 ≤ unit ∧ unit ≤ 0x7a then unit - 0x20 else unit

def toLower (unit : UInt16) : UInt16 := if 0x41 ≤ unit ∧ unit ≤ 0x5a then unit + 0x20 else unit

def formatUUID (uuidData : Bytes) : List UInt16 :=
  if uuidData.length ≠ 16 then []
  else
    (uuidData.zipIdx.flatMap fun entry => hexByte entry.1 ++
      if entry.2 = 3 ∨ entry.2 = 5 ∨ entry.2 = 7 ∨ entry.2 = 9 then [0x2d] else []).map toUpper

/-- What a text stands for as a UUID. -/
def digits (text : List UInt16) : List UInt16 := (cleaned text).map toLower

/-! ## Digits -/

variable {unit : UInt16}

theorem hexByte_eq (byte : UInt8) :
    hexByte byte = [digit (byte.toNat / 16), digit (byte.toNat % 16)] := by
  have small := byte.toNat_lt
  have high : byte.toNat / 16 < 16 := by omega
  rw [hexByte, numeral, numeralOnto]
  split
  · rename_i low
    rw [Nat.div_eq_of_lt low, Nat.mod_eq_of_lt low]
    rfl
  · rename_i large
    cases count : byte.toNat with
    | zero => omega
    | succ n =>
      rw [count] at high
      rw [numeralOnto, if_pos high]
      rfl

/-- The units of a digit in lower and in upper case. -/
theorem digitValue_eq_some_iff {d : Nat} (small : d < 16) :
    digitValue 16 unit = some d ↔ toLower unit = digit d := by
  have bound := unit.toNat_lt
  have written : (digit d).toNat = if d < 10 then 0x30 + d else 0x61 + (d - 10) := by
    rw [digit]
    split
    · exact UInt16.toNat_ofNat_of_lt (show _ < 65536 by omega)
    · exact UInt16.toNat_ofNat_of_lt (show _ < 65536 by omega)
  have lowered : (toLower unit).toNat =
      if 0x41 ≤ unit.toNat ∧ unit.toNat ≤ 0x5a then unit.toNat + 0x20 else unit.toNat := by
    simp only [toLower, UInt16.le_iff_toNat_le, UInt16.reduceToNat]
    split
    · rw [UInt16.toNat_add, Nat.mod_eq_of_lt (by simp only [UInt16.reduceToNat]; omega)]
      rfl
    · rfl
  rw [← UInt16.toNat_inj, written, lowered, digitValue, Option.filter_eq_some_iff]
  simp only [UInt16.le_iff_toNat_le, UInt16.reduceToNat, decide_eq_true_eq]
  split_ifs <;> simp only [Option.some.injEq, false_and, false_iff] <;> omega

theorem isDigit_iff : IsDigit 16 unit ↔ ∃ d < 16, toLower unit = digit d := by
  constructor
  · intro is_digit
    obtain ⟨d, here⟩ := Option.isSome_iff_exists.mp is_digit
    have small := digitValue_lt here
    exact ⟨d, small, (digitValue_eq_some_iff small).mp here⟩
  · rintro ⟨d, small, same⟩
    rw [IsDigit, (digitValue_eq_some_iff small).mpr same, Option.isSome_some]

/-! ## Formatting -/

theorem cleaned_append (front back : List UInt16) :
    cleaned (front ++ back) = cleaned front ++ cleaned back := by
  simp only [cleaned, List.filter_append]

/-- Digits are not taken out, and formatting them in upper case keeps them. -/
theorem digits_map_hexByte (byte : UInt8) : digits ((hexByte byte).map toUpper) = hexByte byte := by
  have small := byte.toNat_lt
  have each : ∀ high low : Fin 16, digits ([digit high, digit low].map toUpper) = [digit high, digit low] := by
    decide
  rw [hexByte_eq]
  exact each ⟨byte.toNat / 16, by omega⟩ ⟨byte.toNat % 16, by omega⟩

theorem digits_append (front back : List UInt16) : digits (front ++ back) = digits front ++ digits back := by
  rw [digits, cleaned_append, List.map_append, digits, digits]

theorem digits_formatUUID {uuidData : Bytes} (whole : uuidData.length = 16) :
    digits (formatUUID uuidData) = uuidData.flatMap hexByte := by
  have entries : ∀ entries : List (UInt8 × Nat),
      digits ((entries.flatMap fun entry => hexByte entry.1 ++
        if entry.2 = 3 ∨ entry.2 = 5 ∨ entry.2 = 7 ∨ entry.2 = 9 then [0x2d] else []).map toUpper) =
      (entries.map Prod.fst).flatMap hexByte := by
    intro entries
    induction entries with
    | nil => rfl
    | cons entry entries ih =>
      have hyphen : digits ((if entry.2 = 3 ∨ entry.2 = 5 ∨ entry.2 = 7 ∨ entry.2 = 9 then [0x2d]
          else []).map toUpper) = [] := by
        split <;> rfl
      rw [List.flatMap_cons, List.map_append, List.map_append, digits_append, digits_append, hyphen, ih,
        digits_map_hexByte, List.append_nil, List.map_cons, List.flatMap_cons]
  rw [formatUUID, if_neg (not_not_intro whole), entries, List.zipIdx_map_fst]

/-! ## Parsing -/

theorem parse_two {first second : UInt16} (one : IsDigit 16 first) (two : IsDigit 16 second) :
    ∃ byte, (unsigned 16 (2 ^ 32) [first, second]).map UInt8.ofNat = some byte ∧
      hexByte byte = [toLower first, toLower second] := by
  obtain ⟨high, highSmall, highSame⟩ := isDigit_iff.mp one
  obtain ⟨low, lowSmall, lowSame⟩ := isDigit_iff.mp two
  have read : unsigned 16 (2 ^ 32) [first, second] = some (high * 16 + low) := by
    rw [unsigned_of_digits _ (by simp [one, two]), value, if_neg (List.cons_ne_nil _ _), valueFrom,
      (digitValue_eq_some_iff highSmall).mpr highSame, Option.bind_some, valueFrom,
      (digitValue_eq_some_iff lowSmall).mpr lowSame, Option.bind_some, valueFrom, Option.filter_some,
      if_pos (decide_eq_true (by omega)), Nat.zero_mul, Nat.zero_add]
  have number : (UInt8.ofNat (high * 16 + low)).toNat = high * 16 + low :=
    UInt8.toNat_ofNat_of_lt (show _ < 256 by omega)
  refine ⟨_, by rw [read, Option.map_some], ?_⟩
  rw [hexByte_eq, number, highSame, lowSame, show (high * 16 + low) / 16 = high by omega,
    show (high * 16 + low) % 16 = low by omega]

theorem parse_twos {text : List UInt16} (even : text.length % 2 = 0)
    (hex : ∀ unit ∈ text, IsDigit 16 unit) :
    ((twos text).filterMap fun byteStr => (unsigned 16 (2 ^ 32) byteStr).map UInt8.ofNat).flatMap hexByte =
      text.map toLower := by
  induction text using twos.induct with
  | case1 first second rest ih =>
    obtain ⟨byte, read, same⟩ := parse_two (hex first (by simp)) (hex second (by simp))
    have more := ih (by simp only [List.length_cons] at even; omega)
      fun unit member => hex unit (by simp [member])
    rw [twos, List.filterMap_cons, read]
    simp only [List.flatMap_cons, same, more, List.map_cons, List.cons_append, List.nil_append]
  | case2 => rfl
  | case3 last => cases even

theorem length_flatMap_hexByte (bytes : Bytes) : (bytes.flatMap hexByte).length = 2 * bytes.length := by
  induction bytes with
  | nil => rfl
  | cons byte bytes ih =>
    rw [List.flatMap_cons, List.length_append, ih, hexByte_eq, List.length_cons]
    simp only [List.length_cons, List.length_nil]
    omega

theorem length_twos_le (text : List UInt16) : 2 * (twos text).length ≤ text.length + 1 := by
  induction text using twos.induct with
  | case1 first second rest ih =>
    simp only [twos, List.length_cons]
    omega
  | case2 => exact Nat.zero_le _
  | case3 last => exact Nat.le_refl _

theorem length_parseUUID (text : List UInt16) : (parseUUID text).length = 16 := by
  have few := length_twos_le ((cleaned text).take 32)
  have read := List.length_filterMap_le (fun byteStr => (unsigned 16 (2 ^ 32) byteStr).map UInt8.ofNat)
    (twos ((cleaned text).take 32))
  rw [List.length_take] at few
  rw [parseUUID, List.length_append, List.length_replicate]
  omega

/-- Thirty-two digits are left. -/
def IsUuid (text : List UInt16) : Prop :=
  (cleaned text).length = 32 ∧ ∀ unit ∈ cleaned text, IsDigit 16 unit

/-- The case of digits does not change their number. -/
theorem valueFrom_toLower {s t : List UInt16} (hex : ∀ unit ∈ s, IsDigit 16 unit)
    (same : s.map toLower = t.map toLower) (start : Nat) :
    valueFrom 16 start s = valueFrom 16 start t := by
  induction s generalizing t start with
  | nil =>
    cases List.map_eq_nil_iff.mp same.symm
    rfl
  | cons unit s ih =>
    obtain ⟨other, t, rfl⟩ : ∃ other rest, t = other :: rest := by
      cases t with
      | nil => cases same
      | cons other rest => exact ⟨other, rest, rfl⟩
    obtain ⟨first, rest⟩ := List.cons.inj same
    obtain ⟨d, small, here⟩ := isDigit_iff.mp (hex unit List.mem_cons_self)
    rw [valueFrom, valueFrom, (digitValue_eq_some_iff small).mpr here,
      (digitValue_eq_some_iff small).mpr (first.symm.trans here), Option.bind_some, Option.bind_some,
      ih (fun unit member => hex unit (List.mem_cons_of_mem _ member)) rest]

/-- The first eight bytes of equal UUIDs are one number. -/
theorem unsigned_digits {s t : List UInt16} (uuidS : IsUuid s) (uuidT : IsUuid t)
    (same : digits s = digits t) :
    ∃ n, unsigned 16 (2 ^ 64) ((cleaned s).take 16) = some n ∧
      unsigned 16 (2 ^ 64) ((cleaned t).take 16) = some n := by
  have read : ∀ {text : List UInt16}, IsUuid text → unsigned 16 (2 ^ 64) ((cleaned text).take 16) =
      (valueFrom 16 0 ((cleaned text).take 16)).filter fun number => decide (number < 2 ^ 64) := by
    intro text uuid
    have some_digits : (cleaned text).take 16 ≠ [] := by
      intro none
      have length := congrArg List.length none
      rw [List.length_take, uuid.1] at length
      cases length
    rw [unsigned_of_digits _ fun unit member => uuid.2 unit (List.mem_of_mem_take member), value,
      if_neg some_digits]
  have hex : ∀ unit ∈ (cleaned s).take 16, IsDigit 16 unit := fun unit member =>
    uuidS.2 unit (List.mem_of_mem_take member)
  have lower : ((cleaned s).take 16).map toLower = ((cleaned t).take 16).map toLower := by
    rw [List.map_take, List.map_take]
    exact congrArg (List.take 16) same
  obtain ⟨n, below, number⟩ := exists_valueFrom hex 0
  rw [List.length_take, uuidS.1] at below
  have small : decide (n < 2 ^ 64) = true := decide_eq_true below
  refine ⟨n, ?_, ?_⟩
  · rw [read uuidS, number, Option.filter_some, if_pos small]
  · rw [read uuidT, ← valueFrom_toLower hex lower, number, Option.filter_some, if_pos small]

theorem isUuid_of_digits {text other : List UInt16} (uuid : IsUuid text)
    (same : digits other = digits text) : IsUuid other := by
  have length := congrArg List.length same
  rw [digits, digits, List.length_map, List.length_map, uuid.1] at length
  refine ⟨length, fun unit member => isDigit_iff.mpr ?_⟩
  have lower : toLower unit ∈ digits text := same ▸ List.mem_map_of_mem member
  obtain ⟨source, from_text, equal⟩ := List.mem_map.mp lower
  rw [← equal]
  exact isDigit_iff.mp (uuid.2 source from_text)

/-- Parsing keeps the digits if and only if there are thirty-two, and nothing else. -/
theorem digits_parsed_iff (text : List UInt16) :
    digits (formatUUID (parseUUID text)) = digits text ↔ IsUuid text := by
  rw [digits_formatUUID (length_parseUUID text)]
  constructor
  · intro same
    have length := congrArg List.length same
    rw [length_flatMap_hexByte, length_parseUUID, digits, List.length_map] at length
    refine ⟨length.symm, fun unit member => isDigit_iff.mpr ?_⟩
    have written : toLower unit ∈ (parseUUID text).flatMap hexByte := by
      rw [same]
      exact List.mem_map_of_mem member
    obtain ⟨byte, _, digit⟩ := List.mem_flatMap.mp written
    have small := byte.toNat_lt
    rw [hexByte_eq] at digit
    rcases List.mem_cons.mp digit with high | low
    · exact ⟨byte.toNat / 16, by omega, high⟩
    · exact ⟨byte.toNat % 16, by omega, List.mem_singleton.mp low⟩
  · rintro ⟨length, hex⟩
    have all : (cleaned text).take 32 = cleaned text := List.take_of_length_le (Nat.le_of_eq length)
    have read := parse_twos (by rw [length]) hex
    have size := congrArg List.length read
    rw [length_flatMap_hexByte, List.length_map, length] at size
    have full := Nat.sub_eq_zero_of_le (Nat.le_of_eq (Nat.eq_of_mul_eq_mul_left Nat.two_pos
      (show 2 * 16 = _ from size.symm)))
    rw [parseUUID, all, full, List.replicate_zero, List.append_nil, read, digits]

end QinDB.Storage.Uuid
