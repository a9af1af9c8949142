/-
# Base.Utf8 — texts of UTF-16 units as UTF-8

A text is a list of UTF-16 units, and surrogates need not be in pairs. `encode` and `decode` are
`toUtf8` and `fromUtf8` of `QString`: a surrogate outside a pair is written as a question mark; a
byte order mark at the beginning is skipped, and a byte that begins no character is read as the
replacement character.

* `decode_encode_eq_iff`: a text is read back if and only if its surrogates are in pairs and it does
  not begin with the mark.
* `length_encode_decode_take`: what is read of a text whose bytes are cut is not much longer than they
  are, so it is not the text.
-/
import Mathlib.Data.List.Basic

namespace QinDB.Base.Utf8

set_option autoImplicit false

/-! ## Characters -/

def isHigh (unit : UInt16) : Bool := 0xD800 ≤ unit && unit ≤ 0xDBFF

def isLow (unit : UInt16) : Bool := 0xDC00 ≤ unit && unit ≤ 0xDFFF

/-- The character of a unit that is not part of a pair. -/
def single (unit : UInt16) : Char :=
  if isHigh unit || isLow unit then '?' else .ofNat unit.toNat

def joined (high low : UInt16) : Char :=
  .ofNat (0x10000 + (high.toNat - 0xD800) * 0x400 + (low.toNat - 0xDC00))

def characters : List UInt16 → List Char
  | [] => []
  | [unit] => [single unit]
  | unit :: next :: rest =>
      if isHigh unit && isLow next then joined unit next :: characters rest
      else single unit :: characters (next :: rest)

def units (c : Char) : List UInt16 :=
  if c.toNat < 0x10000 then [.ofNat c.toNat]
  else [.ofNat (0xD800 + (c.toNat - 0x10000) / 0x400), .ofNat (0xDC00 + (c.toNat - 0x10000) % 0x400)]

/-- All surrogates are in pairs. -/
def Paired : List UInt16 → Bool
  | [] => true
  | [unit] => !(isHigh unit || isLow unit)
  | unit :: next :: rest =>
      if isHigh unit && isLow next then Paired rest
      else !(isHigh unit || isLow unit) && Paired (next :: rest)

/-! ## Bytes -/

def encode (text : List UInt16) : List UInt8 := (characters text).flatMap String.utf8EncodeChar

/-- The first argument counts the bytes that belong to the character before them. -/
def decodeFrom : Nat → List UInt8 → List UInt16
  | _, [] => []
  | skip + 1, _ :: rest => decodeFrom skip rest
  | 0, byte :: rest =>
      match (byte :: rest).toByteArray.utf8DecodeChar? 0 with
      | some c => units c ++ decodeFrom (c.utf8Size - 1) rest
      | none => 0xFFFD :: decodeFrom 0 rest

def MARK : List UInt8 := [0xEF, 0xBB, 0xBF]

def decode (bytes : List UInt8) : List UInt16 :=
  decodeFrom 0 (if MARK.isPrefixOf bytes then bytes.drop 3 else bytes)

/-! ## Units and characters -/

variable {unit next : UInt16} {c : Char}

theorem isHigh_iff : isHigh unit = true ↔ 0xD800 ≤ unit.toNat ∧ unit.toNat ≤ 0xDBFF := by
  simp [isHigh, UInt16.le_iff_toNat_le]

theorem isLow_iff : isLow unit = true ↔ 0xDC00 ≤ unit.toNat ∧ unit.toNat ≤ 0xDFFF := by
  simp [isLow, UInt16.le_iff_toNat_le]

theorem toNat_ofNat {n : Nat} (valid : n.isValidChar) : (Char.ofNat n).toNat = n := by
  rw [Char.ofNat, dif_pos valid]
  exact UInt32.toNat_ofNatLT

/-- Characters are not surrogates. -/
theorem toNat_valid (c : Char) : c.toNat < 0xD800 ∨ 0xDFFF < c.toNat ∧ c.toNat < 0x110000 := c.valid

theorem toNat_single (plain : ¬ (isHigh unit || isLow unit) = true) :
    (single unit).toNat = unit.toNat := by
  have small := unit.toNat_lt
  rw [single, if_neg plain, toNat_ofNat]
  rw [Bool.or_eq_true, isHigh_iff, isLow_iff] at plain
  rw [Nat.isValidChar]
  omega

theorem toNat_joined (high : isHigh unit = true) (low : isLow next = true) :
    (joined unit next).toNat =
      0x10000 + (unit.toNat - 0xD800) * 0x400 + (next.toNat - 0xDC00) := by
  rw [isHigh_iff] at high
  rw [isLow_iff] at low
  refine toNat_ofNat ?_
  rw [Nat.isValidChar]
  omega

theorem units_single (plain : ¬ (isHigh unit || isLow unit) = true) : units (single unit) = [unit] := by
  rw [units, toNat_single plain, if_pos unit.toNat_lt, UInt16.ofNat_toNat]

theorem units_question (lone : (isHigh unit || isLow unit) = true) : units (single unit) = [0x3f] := by
  rw [single, if_pos lone]
  decide

theorem units_single_cases (unit : UInt16) : ∃ only, units (single unit) = [only] := by
  by_cases plain : (isHigh unit || isLow unit) = true
  · exact ⟨_, units_question plain⟩
  · exact ⟨_, units_single plain⟩

theorem units_joined (high : isHigh unit = true) (low : isLow next = true) :
    units (joined unit next) = [unit, next] := by
  rw [units, toNat_joined high low, if_neg (by omega)]
  rw [isHigh_iff] at high
  rw [isLow_iff] at low
  have first : 0xD800 + (0x10000 + (unit.toNat - 0xD800) * 0x400 + (next.toNat - 0xDC00) - 0x10000) /
      0x400 = unit.toNat := by omega
  have second : 0xDC00 + (0x10000 + (unit.toNat - 0xD800) * 0x400 + (next.toNat - 0xDC00) - 0x10000) %
      0x400 = next.toNat := by omega
  rw [first, second, UInt16.ofNat_toNat, UInt16.ofNat_toNat]

theorem characters_cons (plain : isHigh unit = false) (text : List UInt16) :
    characters (unit :: text) = single unit :: characters text := by
  cases text with
  | nil => rfl
  | cons next rest => rw [characters, plain, Bool.false_and, if_neg Bool.false_ne_true]

theorem characters_units_append (c : Char) (text : List UInt16) :
    characters (units c ++ text) = c :: characters text := by
  have valid := toNat_valid c
  rw [units]
  split
  · rename_i small
    have number : (UInt16.ofNat c.toNat).toNat = c.toNat := UInt16.toNat_ofNat_of_lt small
    have plain : ¬ (isHigh (.ofNat c.toNat) || isLow (.ofNat c.toNat)) = true := by
      rw [Bool.or_eq_true, isHigh_iff, isLow_iff, number]
      omega
    have same : single (.ofNat c.toNat) = c := Char.toNat_inj.mp ((toNat_single plain).trans number)
    rw [List.singleton_append, characters_cons (by simp_all), same]
  · rename_i large
    generalize first : UInt16.ofNat (0xD800 + (c.toNat - 0x10000) / 0x400) = high
    generalize second : UInt16.ofNat (0xDC00 + (c.toNat - 0x10000) % 0x400) = low
    have highNumber : high.toNat = 0xD800 + (c.toNat - 0x10000) / 0x400 := by
      rw [← first]
      exact UInt16.toNat_ofNat_of_lt (show _ < 65536 by omega)
    have lowNumber : low.toNat = 0xDC00 + (c.toNat - 0x10000) % 0x400 := by
      rw [← second]
      exact UInt16.toNat_ofNat_of_lt (show _ < 65536 by omega)
    have isPair : isHigh high = true ∧ isLow low = true := by
      rw [isHigh_iff, isLow_iff]
      omega
    have same : joined high low = c := by
      refine Char.toNat_inj.mp ((toNat_joined isPair.1 isPair.2).trans ?_)
      omega
    rw [List.cons_append, List.singleton_append, characters, isPair.1, isPair.2, Bool.and_self, if_pos rfl,
      same]

/-- A text with question marks for the surrogates that are not in pairs. -/
def repaired (text : List UInt16) : List UInt16 := (characters text).flatMap units

theorem length_repaired (text : List UInt16) : (repaired text).length = text.length := by
  have one : ∀ unit, (units (single unit)).length = 1 := fun unit => by
    obtain ⟨only, here⟩ := units_single_cases unit
    rw [here, List.length_singleton]
  rw [repaired]
  induction text using characters.induct with
  | case1 => rfl
  | case2 unit => simp [characters, one]
  | case3 unit next rest isPair ih =>
    rw [Bool.and_eq_true] at isPair
    rw [characters, isPair.1, isPair.2, Bool.and_self, if_pos rfl, List.flatMap_cons, List.length_append, ih,
      units_joined isPair.1 isPair.2]
    simp only [List.length_cons, List.length_nil]
    omega
  | case4 unit next rest apart ih =>
    rw [characters, if_neg apart, List.flatMap_cons, List.length_append, ih, one, Nat.add_comm]
    rfl

theorem repaired_eq_iff (text : List UInt16) : repaired text = text ↔ Paired text = true := by
  have lone : ∀ unit, units (single unit) = [unit] ↔ (!(isHigh unit || isLow unit)) = true := fun unit => by
    by_cases plain : (isHigh unit || isLow unit) = true
    · rw [units_question plain, plain]
      refine iff_of_false (fun same => ?_) nofun
      cases same
      exact absurd plain (by decide)
    · rw [units_single plain]
      simp [plain]
  rw [repaired]
  induction text using characters.induct with
  | case1 => exact iff_of_true rfl rfl
  | case2 unit => simpa [characters, Paired] using lone unit
  | case3 unit next rest isPair ih =>
    rw [characters, if_pos isPair, Paired, if_pos isPair, List.flatMap_cons]
    rw [Bool.and_eq_true] at isPair
    rw [units_joined isPair.1 isPair.2]
    simpa using ih
  | case4 unit next rest apart ih =>
    obtain ⟨only, one⟩ := units_single_cases unit
    have here := lone unit
    rw [characters, if_neg apart, Paired, if_neg apart, List.flatMap_cons, Bool.and_eq_true, one,
      List.singleton_append, List.cons_eq_cons]
    rw [one, List.cons_eq_cons, and_iff_left rfl] at here
    exact and_congr here ih

/-! ## Reading back -/

theorem decodeFrom_skip (more bytes : List UInt8) :
    decodeFrom more.length (more ++ bytes) = decodeFrom 0 bytes := by
  induction more with
  | nil => rfl
  | cons byte more ih => exact ih

theorem decodeFrom_encodeChar_append (c : Char) (bytes : List UInt8) :
    decodeFrom 0 (String.utf8EncodeChar c ++ bytes) = units c ++ decodeFrom 0 bytes := by
  have found : (String.utf8EncodeChar c ++ bytes).toByteArray.utf8DecodeChar? 0 = some c := by
    rw [List.toByteArray_append]
    exact ByteArray.utf8DecodeChar?_utf8EncodeChar_append
  have size := String.length_utf8EncodeChar c
  cases encoded : String.utf8EncodeChar c with
  | nil => exact absurd encoded String.utf8EncodeChar_ne_nil
  | cons byte more =>
    rw [encoded, List.cons_append] at found
    rw [encoded, List.length_cons] at size
    rw [List.cons_append, decodeFrom, found]
    simp only [← size, Nat.add_sub_cancel, decodeFrom_skip]

theorem decodeFrom_flatMap (text : List Char) :
    decodeFrom 0 (text.flatMap String.utf8EncodeChar) = text.flatMap units := by
  induction text with
  | nil => rfl
  | cons c text ih => rw [List.flatMap_cons, List.flatMap_cons, decodeFrom_encodeChar_append, ih]

theorem first_mark {text : List UInt16} {rest : List Char}
    (first : characters text = '\uFEFF' :: rest) : ∃ tail, text = 0xFEFF :: tail := by
  have only : ∀ unit, single unit = '\uFEFF' → unit = 0xFEFF := fun unit same => by
    by_cases plain : (isHigh unit || isLow unit) = true
    · rw [single, if_pos plain] at same
      exact absurd same (by decide)
    · exact UInt16.toNat_inj.mp ((toNat_single plain).symm.trans (congrArg Char.toNat same))
  cases text with
  | nil => cases first
  | cons unit text =>
    cases text with
    | nil => exact ⟨[], by rw [only unit (List.cons.inj first).1]⟩
    | cons next text =>
      rw [characters] at first
      split at first
      · rename_i isPair
        rw [Bool.and_eq_true] at isPair
        have number := toNat_joined isPair.1 isPair.2
        rw [(List.cons.inj first).1, show ('\uFEFF').toNat = 0xFEFF from rfl] at number
        omega
      · exact ⟨next :: text, by rw [only unit (List.cons.inj first).1]⟩

theorem encode_mark (text : List UInt16) : encode (0xFEFF :: text) = MARK ++ encode text := by
  rw [encode, characters_cons (by decide), List.flatMap_cons]
  rfl

/-- Only a text that begins with the byte order mark has its bytes at the beginning. -/
theorem isPrefixOf_encode (text : List UInt16) :
    MARK.isPrefixOf (encode text) = true ↔ ∃ rest, text = 0xFEFF :: rest := by
  rw [List.isPrefixOf_iff_prefix]
  constructor
  · rintro ⟨bytes, same⟩
    have mark : (encode text).toByteArray.utf8DecodeChar? 0 = some '\uFEFF' := by
      have encoded : MARK = String.utf8EncodeChar '\uFEFF' := rfl
      rw [← same, List.toByteArray_append, encoded]
      exact ByteArray.utf8DecodeChar?_utf8EncodeChar_append
    cases split : characters text with
    | nil =>
      rw [encode, split] at same
      cases same
    | cons c rest =>
      rw [encode, split, List.flatMap_cons, List.toByteArray_append,
        ByteArray.utf8DecodeChar?_utf8EncodeChar_append] at mark
      cases mark
      exact first_mark split
  · rintro ⟨rest, rfl⟩
    rw [encode_mark]
    exact List.prefix_append _ _

theorem decode_encode_of_markless {text : List UInt16} (markless : text.head? ≠ some 0xFEFF) :
    decode (encode text) = repaired text := by
  have other : ¬ MARK.isPrefixOf (encode text) = true := by
    rw [isPrefixOf_encode]
    rintro ⟨rest, rfl⟩
    exact markless rfl
  rw [decode, if_neg other, encode, decodeFrom_flatMap, repaired]

theorem decode_encode_mark (text : List UInt16) : decode (encode (0xFEFF :: text)) = repaired text := by
  have dropped : (MARK ++ encode text).drop 3 = encode text := rfl
  rw [decode, if_pos ((isPrefixOf_encode _).mpr ⟨text, rfl⟩), encode_mark, dropped, encode,
    decodeFrom_flatMap, repaired]

/-- A text is read back if and only if its surrogates are in pairs and no mark is in front of it. -/
theorem decode_encode_eq_iff (text : List UInt16) :
    decode (encode text) = text ↔ Paired text = true ∧ text.head? ≠ some 0xFEFF := by
  by_cases marked : text.head? = some 0xFEFF
  · refine iff_of_false (fun same => ?_) fun kept => kept.2 marked
    obtain ⟨rest, rfl⟩ := List.head?_eq_some_iff.mp marked
    rw [decode_encode_mark] at same
    have length := congrArg List.length same
    rw [length_repaired, List.length_cons] at length
    omega
  · rw [decode_encode_of_markless marked, repaired_eq_iff, and_iff_left marked]

theorem length_decode_encode_le (text : List UInt16) :
    (decode (encode text)).length ≤ text.length := by
  by_cases marked : text.head? = some 0xFEFF
  · obtain ⟨rest, rfl⟩ := List.head?_eq_some_iff.mp marked
    rw [decode_encode_mark, length_repaired]
    exact Nat.le_succ _
  · exact Nat.le_of_eq (by rw [decode_encode_of_markless marked, length_repaired])

/-! ## Lengths -/

theorem utf8Size_single_le (unit : UInt16) : (single unit).utf8Size ≤ 3 := by
  have small : (single unit).toNat < 0x10000 := by
    by_cases plain : (isHigh unit || isLow unit) = true
    · rw [single, if_pos plain]
      decide
    · rw [toNat_single plain]
      exact unit.toNat_lt
  have four := mt Char.utf8Size_eq_four_iff.mp (UInt32.not_lt.mpr (UInt32.le_iff_toNat_le.mpr
    (Nat.le_of_lt_succ small)))
  have most := Char.utf8Size_le_four (single unit)
  omega

theorem length_encode_cons (plain : isHigh unit = false) (text : List UInt16) :
    (encode (unit :: text)).length = (single unit).utf8Size + (encode text).length := by
  rw [encode, characters_cons plain, List.flatMap_cons, List.length_append, String.length_utf8EncodeChar,
    encode]

theorem length_encode_pair (isPair : (isHigh unit && isLow next) = true) (rest : List UInt16) :
    (encode (unit :: next :: rest)).length = (joined unit next).utf8Size + (encode rest).length := by
  rw [encode, characters, if_pos isPair, List.flatMap_cons, List.length_append,
    String.length_utf8EncodeChar, encode]

theorem length_encode_apart (apart : ¬ (isHigh unit && isLow next) = true) (rest : List UInt16) :
    (encode (unit :: next :: rest)).length =
      (single unit).utf8Size + (encode (next :: rest)).length := by
  rw [encode, characters, if_neg apart, List.flatMap_cons, List.length_append,
    String.length_utf8EncodeChar, encode]

theorem length_encode_singleton (unit : UInt16) : (encode [unit]).length = (single unit).utf8Size := by
  simp [encode, characters]

theorem length_encode_le (text : List UInt16) : (encode text).length ≤ 3 * text.length := by
  induction text using characters.induct with
  | case1 => exact Nat.le_refl 0
  | case2 unit =>
    rw [length_encode_singleton]
    exact utf8Size_single_le unit
  | case3 unit next rest isPair ih =>
    have size := Char.utf8Size_le_four (joined unit next)
    rw [length_encode_pair isPair]
    simp only [List.length_cons]
    omega
  | case4 unit next rest apart ih =>
    have size := utf8Size_single_le unit
    rw [length_encode_apart apart, List.length_cons]
    omega

/-- A byte is read as at most two units. -/
theorem length_decodeFrom_le (skip : Nat) (bytes : List UInt8) :
    (decodeFrom skip bytes).length ≤ 2 * bytes.length := by
  have two : ∀ c, (units c).length ≤ 2 := fun c => by
    rw [units]
    split <;> simp
  fun_induction decodeFrom skip bytes with
  | case1 => exact Nat.zero_le _
  | case2 skip byte rest ih =>
    rw [List.length_cons]
    omega
  | case3 byte rest c found ih =>
    have few := two c
    rw [List.length_append, List.length_cons]
    omega
  | case4 byte rest found ih =>
    rw [List.length_cons, List.length_cons]
    omega

/-- What is read of a text whose bytes are cut needs few more bytes than those that are left: only
the character at the cut is read as others. -/
theorem length_encode_decodeFrom_take (text : List Char) (count : Nat) :
    (encode (decodeFrom 0 ((text.flatMap String.utf8EncodeChar).take count))).length ≤ count + 18 := by
  induction text generalizing count with
  | nil => simp [decodeFrom, encode, characters]
  | cons c text ih =>
    have size := String.length_utf8EncodeChar c
    have four := Char.utf8Size_le_four c
    rw [List.flatMap_cons, List.take_append]
    by_cases whole : c.utf8Size ≤ count
    · rw [List.take_of_length_le (by omega), decodeFrom_encodeChar_append, encode, characters_units_append,
        List.flatMap_cons, List.length_append]
      have rest := ih (count - (String.utf8EncodeChar c).length)
      rw [encode] at rest
      omega
    · rw [show count - (String.utf8EncodeChar c).length = 0 by omega, List.take_zero, List.append_nil]
      have read := length_decodeFrom_le 0 ((String.utf8EncodeChar c).take count)
      have cut : ((String.utf8EncodeChar c).take count).length ≤ count := List.length_take_le _ _
      have again := length_encode_le (decodeFrom 0 ((String.utf8EncodeChar c).take count))
      omega

theorem length_encode_decode_take (text : List UInt16) (count : Nat) :
    (encode (decode ((encode text).take count))).length ≤ count + 18 := by
  rw [decode]
  split
  · rename_i marked
    obtain ⟨rest, rfl⟩ := (isPrefixOf_encode text).mp (List.isPrefixOf_iff_prefix.mpr
      ((List.isPrefixOf_iff_prefix.mp marked).trans (List.take_prefix _ _)))
    have dropped : (MARK ++ encode rest).drop 3 = encode rest := rfl
    rw [encode_mark, List.drop_take, dropped]
    exact Nat.le_trans (length_encode_decodeFrom_take _ _) (by omega)
  · exact length_encode_decodeFrom_take _ _

/-! ## Parts of a text -/

theorem length_encode_le_cons (unit : UInt16) (text : List UInt16) :
    (encode text).length ≤ (encode (unit :: text)).length := by
  cases text with
  | nil => exact Nat.zero_le _
  | cons next rest =>
    by_cases isPair : (isHigh unit && isLow next) = true
    · -- The second unit of a pair is written as one byte without the first.
      have alone : isHigh next = false ∧ single next = '?' := by
        rw [Bool.and_eq_true, isLow_iff] at isPair
        have low : isHigh next = false := by
          rw [Bool.eq_false_iff, Ne, isHigh_iff]
          omega
        exact ⟨low, by rw [single, if_pos (by rw [isLow_iff.mpr isPair.2, Bool.or_true])]⟩
      have size := Char.utf8Size_pos (joined unit next)
      rw [length_encode_cons alone.1, alone.2, length_encode_pair isPair]
      exact Nat.add_le_add_right size _
    · rw [length_encode_apart isPair]
      exact Nat.le_add_left _ _

theorem length_encode_back_le {part text : List UInt16} (suffix : part <:+ text) :
    (encode part).length ≤ (encode text).length := by
  obtain ⟨front, rfl⟩ := suffix
  induction front with
  | nil => exact Nat.le_refl _
  | cons unit front ih => exact Nat.le_trans ih (length_encode_le_cons unit _)

theorem length_encode_front_le {part text : List UInt16} (front : part <+: text) :
    (encode part).length ≤ (encode text).length := by
  obtain ⟨back, rfl⟩ := front
  induction part using characters.induct with
  | case1 => exact Nat.zero_le _
  | case2 unit =>
    cases back with
    | nil => exact Nat.le_refl _
    | cons next rest =>
      rw [List.singleton_append, length_encode_singleton]
      by_cases isPair : (isHigh unit && isLow next) = true
      · have size := Char.utf8Size_pos (joined unit next)
        have lone : single unit = '?' := by
          rw [Bool.and_eq_true] at isPair
          rw [single, isPair.1, Bool.true_or, if_pos rfl]
        rw [length_encode_pair isPair, lone]
        exact Nat.le_trans size (Nat.le_add_right _ _)
      · rw [length_encode_apart isPair]
        exact Nat.le_add_right _ _
  | case3 unit next rest isPair ih =>
    rw [List.cons_append, List.cons_append, length_encode_pair isPair, length_encode_pair isPair]
    exact Nat.add_le_add_left ih _
  | case4 unit next rest apart ih =>
    rw [List.cons_append, List.cons_append, length_encode_apart apart, length_encode_apart apart]
    exact Nat.add_le_add_left ih _

end QinDB.Base.Utf8
