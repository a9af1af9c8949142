/-
# Index.KeyComparator — the order of keys

`KeyComparator::compare` of `key_comparator.cpp` compares two keys by their type, and
`compareSerialized` the keys that are read from their bytes. What Qt does with texts that are doubles,
and the folding of case, are parameters with the few facts that are needed of them.

A comparison of type `CHAR` trims both ends, `DECIMAL` compares as doubles, and the types that no branch
is for are all equal; elsewhere keys have a rank in a linear order. Bytes keep less than the comparison
looks at, so serialized keys are compared as the keys are only if nothing is lost.

* `compare_eq_threeWay`: a comparison by rank.
* `compare_lawful_iff`: for which types keys are totally ordered, and for which of them serialized keys
  are compared likewise.
* `json_indistinct`: two keys of type JSON are equal.
-/
import Mathlib.Data.Fintype.Pigeonhole
import QinDB.Base.ThreeWay
import QinDB.Storage.TypeSerializer

namespace QinDB.Index.KeyComparator

open QinDB.Base QinDB.Base.Numerals QinDB.Core QinDB.Storage QinDB.Storage.TypeSerializer

set_option autoImplicit false

/-! ## Comparisons -/

/-- Doubles are their 64 bits. -/
structure Host extends Qt where
  folded : UInt16 → UInt16
  folded_digit : ∀ unit, IsDigit 16 unit → folded unit = Uuid.toLower unit
  toDouble : List UInt16 → Option UInt64
  less : UInt64 → UInt64 → Bool
  irreflexive : ∀ v, less v v = false
  numerals : ∀ n ≤ 2 ^ 64, (toDouble (numeral 10 n)).isSome = true
  compareFloat : Value → Value → Int

def codes (units : List UInt16) : List Int := units.map fun unit => (unit.toNat : Int)

/-- `QString::compare`, up to the size of the answer. -/
def compareTexts (s₁ s₂ : List UInt16) : Int := lexicographic (codes s₁) (codes s₂)

def octets (content : Bytes) : List Int := content.map fun byte => (byte.toNat : Int)

/-- A date or time that is not valid is before all others. -/
def moment : Option Int → List Int
  | none => []
  | some n => [n]

section Compare

variable (host : Host) (key₁ key₂ : Value)

def compareInteger : Int :=
  threeWay ((host.longLong key₁).getD 0).toInt ((host.longLong key₂).getD 0).toInt

def compareDecimal : Int :=
  let s₁ := host.text key₁
  let s₂ := host.text key₂
  match host.toDouble s₁, host.toDouble s₂ with
  | some v₁, some v₂ => if host.less v₁ v₂ then -1 else if host.less v₂ v₁ then 1 else 0
  | _, _ => compareTexts s₁ s₂

def compareString (type : DataType) : Int :=
  let s₁ := host.text key₁
  let s₂ := host.text key₂
  if type = .CHAR then compareTexts (trimmed s₁) (trimmed s₂) else compareTexts s₁ s₂

def compareBinary : Int :=
  lexicographic (octets (host.byteArray key₁)) (octets (host.byteArray key₂))

def compareDateTime : DataType → Int
  | .DATE =>
      threeWay (moment ((host.date key₁).map Day.julianDay)) (moment ((host.date key₂).map Day.julianDay))
  | .TIME =>
      threeWay (moment ((host.time key₁).map fun t => (t.msecs : Int)))
        (moment ((host.time key₂).map fun t => (t.msecs : Int)))
  | .DATETIME | .DATETIME2 | .TIMESTAMP | .TIMESTAMP_TZ | .DATETIMEOFFSET | .SMALLDATETIME =>
      threeWay (moment ((host.dateTime key₁).map Int64.toInt))
        (moment ((host.dateTime key₂).map Int64.toInt))
  | _ => 0

def compareBoolean : Int :=
  if !host.bool key₁ && host.bool key₂ then -1 else if host.bool key₁ && !host.bool key₂ then 1 else 0

def compareUUID : Int :=
  compareTexts ((Uuid.cleaned (host.text key₁)).map host.folded)
    ((Uuid.cleaned (host.text key₂)).map host.folded)

def compareValues (type : DataType) : Int :=
  if isIntegerType type then compareInteger host key₁ key₂
  else if isFloatType type then host.compareFloat key₁ key₂
  else if type = .DECIMAL ∨ type = .NUMERIC then compareDecimal host key₁ key₂
  else if isStringType type then compareString host key₁ key₂ type
  else if isBinaryType type then compareBinary host key₁ key₂
  else if isDateTimeType type then compareDateTime host key₁ key₂ type
  else if type = .BOOLEAN ∨ type = .BOOL then compareBoolean host key₁ key₂
  else if type = .UUID ∨ type = .UNIQUEIDENTIFIER then compareUUID host key₁ key₂
  else 0

/-- NULL is before every other value. -/
def compare (type : DataType) : Int :=
  if key₁ = .null then if key₂ = .null then 0 else -1
  else if key₂ = .null then 1
  else compareValues host key₁ key₂ type

end Compare

/-- Keys that cannot be read are equal to all others. -/
def compareSerialized (host : Host) (data₁ data₂ : Bytes) (type : DataType) : Int :=
  match deserialize host.toQt data₁ type, deserialize host.toQt data₂ type with
  | some key₁, some key₂ => compare host key₁ key₂ type
  | _, _ => 0

def isIndexableType : DataType → Bool
  | .GEOMETRY | .GEOGRAPHY => false
  | _ => true

/-! ## Values and their order -/

/-- A value of the type, within the limits its definition gives. -/
def IsValue (type : DataType) (value : Value) : Prop :=
  Of type value ∧ match value with
    | .integer v => Fits (integerWidth type) v.toInt
    | .text units => (type = .TINYTEXT → units.length ≤ 255) ∧
        (type = .UUID ∨ type = .UNIQUEIDENTIFIER → Uuid.IsUuid units)
    | .bytes content => (type = .TINYBLOB → content.length ≤ 255) ∧
        (type = .MEDIUMBLOB → content.length ≤ MAX_BINARY)
    | _ => True

def withoutSign : List UInt16 → List UInt16
  | 0x2d :: rest => rest
  | 0x2b :: rest => rest
  | text => text

/-- The digits of a decimal number as an integer, and how many are behind the point. -/
def decimalOf (text : List UInt16) : Option (Int × Nat) :=
  let whole := (withoutSign text).takeWhile (· ≠ 0x2e)
  let fraction := ((withoutSign text).dropWhile (· ≠ 0x2e)).drop 1
  (value 10 (whole ++ fraction)).map fun n : Nat =>
    (if text.head? = some 0x2d then -(n : Int) else n, fraction.length)

/-- Equal as values of the type: a CHAR up to blanks at its end, decimals up to their number. -/
def SameValue (type : DataType) : Value → Value → Prop
  | .text s, .text t =>
      if type = .CHAR then s.rdropWhile isSpace = t.rdropWhile isSpace
      else if type = .DECIMAL ∨ type = .NUMERIC then
        s = t ∨ ∃ m n, decimalOf s = some m ∧ decimalOf t = some n ∧ m.1 * 10 ^ n.2 = n.1 * 10 ^ m.2
      else normal type (.text s) = normal type (.text t)
  | a, b => a = b

/-- A total order in which only equal values are equal. -/
def OrderLaws (host : Host) (type : DataType) : Prop :=
  TotalOn (IsValue type) (compare host · · type) ∧
    ∀ a b, IsValue type a → IsValue type b → compare host a b type = 0 → SameValue type a b

/-- Two keys are compared by their bytes as they are themselves. -/
def AgreesAt (host : Host) (type : DataType) (a b : Value) : Prop :=
  ∀ data₁ data₂, serialize host.toQt a type = some data₁ → serialize host.toQt b type = some data₂ →
    compareSerialized host data₁ data₂ type = compare host a b type

/-- The types whose keys are ordered. -/
def Ordered : DataType → Bool
  | .CHAR | .DECIMAL | .NUMERIC | .JSON | .JSONB | .XML | .HIERARCHYID | .ROWID => false
  | _ => true

/-- The types whose bytes keep all that is compared. -/
def Exact : DataType → Bool
  | .TINYINT | .SMALLINT | .MEDIUMINT | .INT | .INTEGER | .BIGINT | .SERIAL | .BIGSERIAL
  | .BOOLEAN | .BOOL | .UUID | .UNIQUEIDENTIFIER | .TINYBLOB | .MEDIUMBLOB | .NULL_TYPE => true
  | _ => false

/-! ## Ranks -/

def rank : Value → List Int
  | .null => []
  | .integer v => [0, v.toInt]
  | .boolean v => [0, if v then 1 else 0]
  | .text units => 0 :: codes units
  | .bytes content => 0 :: octets content
  | .date day => 0 :: moment (day.map Day.julianDay)
  | .time time => 0 :: moment (time.map fun t => (t.msecs : Int))
  | .dateTime msecs => 0 :: moment (msecs.map Int64.toInt)

theorem threeWay_cons (a b : List Int) : threeWay (0 :: a) (0 :: b) = threeWay a b := by
  rw [← lexicographic_eq, ← lexicographic_eq, lexicographic, if_neg (by decide), if_neg (by decide)]

theorem threeWay_single (a b : Int) : threeWay [0, a] [0, b] = threeWay a b := by
  rw [threeWay_cons, ← lexicographic_eq]
  rfl

/-- Only NULL has an empty rank. -/
theorem rank_cons {value : Value} (present : value ≠ .null) : ∃ rest, rank value = 0 :: rest := by
  cases value <;> first
    | contradiction
    | exact ⟨_, rfl⟩

theorem normal_null_iff {type : DataType} {value : Value} :
    normal type value = .null ↔ value = .null := by
  cases value <;> simp [normal]

/-- Two values of one kind, or NULL among them. -/
inductive Alike : Value → Value → Prop where
  | nullLeft (b : Value) : Alike .null b
  | nullRight (a : Value) : a ≠ .null → Alike a .null
  | integer (v w : Int64) : Alike (.integer v) (.integer w)
  | boolean (v w : Bool) : Alike (.boolean v) (.boolean w)
  | text (s t : List UInt16) : Alike (.text s) (.text t)
  | bytes (s t : Bytes) : Alike (.bytes s) (.bytes t)
  | date (s t : Option Day) : Alike (.date s) (.date t)
  | time (s t : Option TimeOfDay) : Alike (.time s) (.time t)
  | dateTime (s t : Option Int64) : Alike (.dateTime s) (.dateTime t)

theorem Alike.of {type : DataType} {a b : Value} (ofA : Of type a) (ofB : Of type b) : Alike a b := by
  rcases ofA with rfl | kindA
  · exact .nullLeft b
  rcases ofB with rfl | kindB
  · by_cases null : a = .null
    · exact null ▸ .nullLeft _
    · exact .nullRight a null
  have kinds := kindA.trans kindB.symm
  cases a <;> cases b <;> first
    | cases kinds; done
    | constructor

variable {host : Host} {type : DataType} {a b : Value}

theorem IsValue.kind (good : IsValue type a) {kind : Kind} (known : a.kind = some kind) :
    kindOf type = some kind := by
  rcases good.1 with rfl | same
  · cases known
  · exact same.symm.trans known

/-- The digits of a UUID are compared without their case. -/
theorem map_folded {units : List UInt16} (uuid : Uuid.IsUuid units) :
    (Uuid.cleaned units).map host.folded = Uuid.digits units :=
  List.map_congr_left fun unit member => host.folded_digit unit (uuid.2 unit member)

theorem compareValues_text (ordered : Ordered type = true) (kind : kindOf type = some .text)
    {s t : List UInt16} (goodS : IsValue type (.text s)) (goodT : IsValue type (.text t)) :
    compareValues host (.text s) (.text t) type =
      threeWay (rank (normal type (.text s))) (rank (normal type (.text t))) := by
  have family : (type = .UUID ∨ type = .UNIQUEIDENTIFIER) ∨ (isStringType type = true ∧ type ≠ .CHAR) := by
    cases type <;> first
      | exact absurd kind (by decide)
      | exact absurd ordered (by decide)
      | decide
  rcases family with uuid | ⟨string, other⟩
  · have same : compareValues host (.text s) (.text t) type = compareUUID host (.text s) (.text t) := by
      rcases uuid with rfl | rfl <;> rfl
    rw [same, compareUUID, Qt.text, Qt.text, map_folded (goodS.2.2 uuid), map_folded (goodT.2.2 uuid), normal,
      normal, if_pos uuid, if_pos uuid, rank, rank, threeWay_cons, compareTexts, lexicographic_eq]
  · have same : compareValues host (.text s) (.text t) type = compareTexts s t := by
      cases type <;> first
        | exact absurd string (by decide)
        | exact absurd rfl other
        | rfl
    have plain : ¬ (type = .UUID ∨ type = .UNIQUEIDENTIFIER) := by
      rintro (rfl | rfl) <;> exact absurd string (by decide)
    rw [same, normal, normal, if_neg plain, if_neg plain, rank, rank, threeWay_cons, compareTexts,
      lexicographic_eq]

theorem compare_values (presentA : a ≠ .null) (presentB : b ≠ .null) :
    compare host a b type = compareValues host a b type := by
  rw [compare, if_neg presentA, if_neg presentB]

/-- The comparison of ordered keys is one of their ranks. -/
theorem compare_eq_threeWay (ordered : Ordered type = true) (goodA : IsValue type a)
    (goodB : IsValue type b) :
    compare host a b type = threeWay (rank (normal type a)) (rank (normal type b)) := by
  cases Alike.of goodA.1 goodB.1 with
  | nullLeft =>
    rw [compare, if_pos rfl, ← lexicographic_eq]
    by_cases null : b = .null
    · rw [if_pos null, null]
      rfl
    · obtain ⟨rest, ranked⟩ := rank_cons (mt normal_null_iff.mp null)
      rw [if_neg null, ranked]
      rfl
  | nullRight _ present =>
    obtain ⟨rest, ranked⟩ := rank_cons (mt normal_null_iff.mp present)
    rw [compare, if_neg present, if_pos rfl, ← lexicographic_eq, ranked]
    rfl
  | text s t =>
    rw [compare_values (by nofun) (by nofun)]
    exact compareValues_text ordered (goodA.kind rfl) goodA goodB
  | integer v w =>
    have kind : kindOf type = some .integer := goodA.kind rfl
    refine (compare_values (by nofun) (by nofun)).trans (Eq.trans ?_ (threeWay_single _ _).symm)
    cases type <;> first
      | exact absurd kind (by decide)
      | exact absurd ordered (by decide)
      | rfl
  | boolean v w =>
    have kind : kindOf type = some .boolean := goodA.kind rfl
    refine (compare_values (by nofun) (by nofun)).trans (Eq.trans ?_ (threeWay_single _ _).symm)
    cases type <;> first
      | exact absurd kind (by decide)
      | cases v <;> cases w <;> rfl
  | bytes s t
  | date s t
  | time s t
  | dateTime s t =>
    have kind := goodA.kind rfl
    refine (compare_values (by nofun) (by nofun)).trans (Eq.trans ?_ (threeWay_cons _ _).symm)
    cases type <;> first
      | exact absurd kind (by decide)
      | rfl
      | exact lexicographic_eq _ _

theorem codes_injective : Function.Injective codes :=
  List.map_injective_iff.mpr fun _ _ same => UInt16.toNat_inj.mp (Int.ofNat.inj same)

theorem octets_injective : Function.Injective octets :=
  List.map_injective_iff.mpr fun _ _ same => UInt8.toNat_inj.mp (Int.ofNat.inj same)

theorem moment_injective {α : Type} {f : α → Int} (injective : Function.Injective f) :
    Function.Injective fun x : Option α => moment (x.map f) := by
  intro a b same
  cases a with
  | none =>
    cases b with
    | none => rfl
    | some b => cases same
  | some a =>
    cases b with
    | none => cases same
    | some b => rw [injective (List.cons.inj same).1]

/-- Values of one rank are equal. -/
theorem eq_of_rank (alike : Alike a b) (same : rank a = rank b) : a = b := by
  cases alike with
  | nullLeft =>
    by_cases null : b = .null
    · exact null.symm
    · obtain ⟨rest, ranked⟩ := rank_cons null
      cases same.trans ranked
  | nullRight _ present =>
    obtain ⟨rest, ranked⟩ := rank_cons present
    cases same.symm.trans ranked
  | integer v w => rw [Int64.toInt_inj.mp (List.cons.inj (List.cons.inj same).2).1]
  | boolean v w => cases v <;> cases w <;> first
    | rfl
    | nomatch same
  | text s t => rw [codes_injective (List.cons.inj same).2]
  | bytes s t => rw [octets_injective (List.cons.inj same).2]
  | date s t =>
    rw [moment_injective (fun x y days => by cases x; cases y; cases days; rfl) (List.cons.inj same).2]
  | time s t =>
    rw [moment_injective (fun x y msecs => by cases x; cases y; cases msecs; rfl) (List.cons.inj same).2]
  | dateTime s t => rw [moment_injective (fun _ _ => Int64.toInt_inj.mp) (List.cons.inj same).2]

/-! ## Types whose keys are ordered -/

theorem Alike.normal (alike : Alike a b) : Alike (normal type a) (normal type b) := by
  cases alike with
  | nullLeft => exact .nullLeft _
  | nullRight _ present => exact .nullRight _ (mt normal_null_iff.mp present)
  | _ => constructor

theorem sameValue_of_normal (ordered : Ordered type = true) (same : normal type a = normal type b) :
    SameValue type a b := by
  have other : type ≠ .CHAR ∧ ¬ (type = .DECIMAL ∨ type = .NUMERIC) := by
    cases type <;> first
      | exact absurd ordered (by decide)
      | decide
  cases a with
  | text s =>
    cases b with
    | text t =>
      rw [SameValue, if_neg other.1, if_neg other.2]
      exact same
    | _ => cases same
  | _ =>
    cases b with
    | text t => cases same
    | _ => exact same

theorem orderLaws_of_ordered (ordered : Ordered type = true) : OrderLaws host type := by
  refine ⟨.of_rank (fun value => rank (normal type value)) fun a b goodA goodB =>
    compare_eq_threeWay ordered goodA goodB, fun a b goodA goodB equal => ?_⟩
  rw [compare_eq_threeWay ordered goodA goodB, threeWay_eq_zero_iff] at equal
  exact sameValue_of_normal ordered (eq_of_rank (Alike.of goodA.1 goodB.1).normal equal)

/-! ## Types whose keys are not ordered -/

/-- Two numbers have one double. -/
theorem doubles_collide (host : Host) : ∃ m n : Nat, m ≠ n ∧
    ∃ v, host.toDouble (numeral 10 m) = some v ∧ host.toDouble (numeral 10 n) = some v := by
  have read : ∀ n : Fin (2 ^ 64 + 1), host.toDouble (numeral 10 n) =
      some ((host.toDouble (numeral 10 n)).getD 0) := fun n => by
    obtain ⟨v, here⟩ := Option.isSome_iff_exists.mp (host.numerals n (Nat.le_of_lt_succ n.isLt))
    rw [here, Option.getD_some]
  obtain ⟨m, n, differ, same⟩ := Fintype.exists_ne_map_eq_of_card_lt
    (fun n : Fin (2 ^ 64 + 1) => (((host.toDouble (numeral 10 n)).getD 0).toFin : Fin (2 ^ 64))) (by
      rw [Fintype.card_fin, Fintype.card_fin]
      exact Nat.lt_succ_self _)
  refine ⟨m, n, fun numbers => differ (Fin.ext numbers), _, read m, ?_⟩
  rw [read n, UInt64.toFin_inj.mp same]

theorem decimalOf_numeral (n : Nat) : decimalOf (numeral 10 n) = some ((n : Int), 0) := by
  have digits : ∀ unit ∈ numeral 10 n, IsDigit 10 unit := numeral_digits (by decide) (by decide) n
  have marks : ∀ unit ∈ numeral 10 n, unit ≠ 0x2d ∧ unit ≠ 0x2b ∧ unit ≠ 0x2e := fun unit member =>
    (digits unit member).decimal (P := fun unit => unit ≠ 0x2d ∧ unit ≠ 0x2b ∧ unit ≠ 0x2e) (by decide)
  have number : value 10 (numeral 10 n) = some n := value_numeral (by decide) (by decide) n
  generalize numeral 10 n = text at *
  have plain : withoutSign text = text := by
    unfold withoutSign
    split
    · exact absurd rfl (marks 0x2d List.mem_cons_self).1
    · exact absurd rfl (marks 0x2b List.mem_cons_self).2.1
    · rfl
  have whole : text.takeWhile (· ≠ 0x2e) = text :=
    List.takeWhile_eq_self_iff.mpr fun unit member => decide_eq_true (marks unit member).2.2
  have fraction : text.dropWhile (· ≠ 0x2e) = [] :=
    List.dropWhile_eq_nil_iff.mpr fun unit member => decide_eq_true (marks unit member).2.2
  have positive : text.head? ≠ some 0x2d := fun first =>
    (marks 0x2d (List.mem_of_mem_head? first)).1 rfl
  rw [decimalOf, plain, whole, fraction, List.drop_nil, List.append_nil, number, Option.map_some,
    if_neg positive]
  rfl

theorem not_orderLaws (unequal : ∃ a b, IsValue type a ∧ IsValue type b ∧ compare host a b type = 0 ∧
    ¬ SameValue type a b) : ¬ OrderLaws host type := by
  rintro ⟨_, exact⟩
  obtain ⟨a, b, goodA, goodB, equal, different⟩ := unequal
  exact different (exact a b goodA goodB equal)

/-- A text without limits. -/
theorem isValue_text (kind : kindOf type = some .text) (plain : Ordered type = false)
    (units : List UInt16) : IsValue type (.text units) := by
  refine ⟨.inr kind.symm, fun tiny => ?_, fun uuid => ?_⟩
  · subst tiny
    cases plain
  · rcases uuid with rfl | rfl <;> cases plain

theorem numeral_ne {m n : Nat} (differ : m ≠ n) : numeral 10 m ≠ numeral 10 n := by
  intro same
  have read := congrArg (Numerals.value 10) same
  rw [value_numeral (by decide) (by decide), value_numeral (by decide) (by decide)] at read
  exact differ (Option.some.inj read)

/-- Two decimals that are equal as doubles. -/
theorem decimal_equal (host : Host) (decimal : type = .DECIMAL ∨ type = .NUMERIC) :
    ∃ m n : Nat, m ≠ n ∧ IsValue type (.text (numeral 10 m)) ∧ IsValue type (.text (numeral 10 n)) ∧
      compare host (.text (numeral 10 m)) (.text (numeral 10 n)) type = 0 := by
  obtain ⟨m, n, differ, v, doubleM, doubleN⟩ := doubles_collide host
  have family : kindOf type = some .text ∧ Ordered type = false ∧
      ∀ a b, compareValues host a b type = compareDecimal host a b := by
    rcases decimal with rfl | rfl
    · exact ⟨rfl, rfl, fun _ _ => rfl⟩
    · exact ⟨rfl, rfl, fun _ _ => rfl⟩
  obtain ⟨kind, plain, compared⟩ := family
  refine ⟨m, n, differ, isValue_text kind plain _, isValue_text kind plain _, ?_⟩
  rw [compare_values (by nofun) (by nofun), compared, compareDecimal]
  simp only [Qt.text, doubleM, doubleN, host.irreflexive]
  rfl

theorem decimal_unequal (decimal : type = .DECIMAL ∨ type = .NUMERIC) :
    ∃ a b, IsValue type a ∧ IsValue type b ∧ compare host a b type = 0 ∧ ¬ SameValue type a b := by
  obtain ⟨m, n, differ, goodM, goodN, equal⟩ := decimal_equal host decimal
  have other : type ≠ .CHAR := by
    rcases decimal with rfl | rfl <;> decide
  refine ⟨_, _, goodM, goodN, equal, ?_⟩
  rw [SameValue, if_neg other, if_pos decimal, decimalOf_numeral, decimalOf_numeral]
  rintro (same | ⟨_, _, one, two, product⟩)
  · exact numeral_ne differ same
  · cases one
    cases two
    simp only [pow_zero, mul_one] at product
    exact differ (Int.ofNat.inj product)

/-- A blank in front is trimmed too. -/
theorem char_equal (host : Host) : compare host (.text [0x20, 0x61]) (.text [0x61]) .CHAR = 0 := by
  rw [compare_values (by nofun) (by nofun)]
  show compareTexts (trimmed [0x20, 0x61]) (trimmed [0x61]) = 0
  decide

theorem char_unequal : ∃ a b, IsValue .CHAR a ∧ IsValue .CHAR b ∧ compare host a b .CHAR = 0 ∧
    ¬ SameValue .CHAR a b := by
  refine ⟨_, _, isValue_text rfl rfl _, isValue_text rfl rfl _, char_equal host, ?_⟩
  show ¬ [0x20, 0x61].rdropWhile isSpace = [0x61].rdropWhile isSpace
  decide

/-- Types that no branch compares. -/
theorem other_unequal (other : type = .JSON ∨ type = .JSONB ∨ type = .XML ∨ type = .HIERARCHYID) :
    ∃ a b, IsValue type a ∧ IsValue type b ∧ compare host a b type = 0 ∧ ¬ SameValue type a b := by
  have family : kindOf type = some .text ∧ Ordered type = false ∧
      (∀ a b, compareValues host a b type = 0) ∧ ¬ SameValue type (.text [0x61]) (.text [0x62]) := by
    rcases other with rfl | rfl | rfl | rfl
    all_goals exact ⟨rfl, rfl, fun _ _ => rfl, nofun⟩
  obtain ⟨kind, plain, equal, different⟩ := family
  refine ⟨.text [0x61], .text [0x62], isValue_text kind plain _, isValue_text kind plain _, ?_, different⟩
  rw [compare_values (by nofun) (by nofun), equal]

theorem rowId_unequal : ∃ a b, IsValue .ROWID a ∧ IsValue .ROWID b ∧ compare host a b .ROWID = 0 ∧
    ¬ SameValue .ROWID a b :=
  ⟨.integer 0, .integer 1, ⟨.inr rfl, by decide, by decide⟩, ⟨.inr rfl, by decide, by decide⟩,
    compare_values (by nofun) (by nofun), nofun⟩

theorem orderLaws_iff (host : Host) (type : DataType) : OrderLaws host type ↔ Ordered type = true := by
  refine ⟨fun laws => ?_, orderLaws_of_ordered⟩
  by_contra plain
  refine not_orderLaws ?_ laws
  cases type <;> first
    | exact absurd rfl plain
    | exact char_unequal
    | exact decimal_unequal (by decide)
    | exact other_unequal (by decide)
    | exact rowId_unequal

/-! ## Serialized keys -/

/-- A value is one of the type if an equal one is. -/
theorem isValue_of_normal (good : IsValue type a) (same : normal type b = normal type a) :
    IsValue type b := by
  cases a with
  | text s =>
    cases b with
    | text t =>
      refine ⟨.inr (good.kind rfl).symm, ?_⟩
      rw [normal, normal, Value.text.injEq] at same
      by_cases uuid : type = .UUID ∨ type = .UNIQUEIDENTIFIER
      · rw [if_pos uuid, if_pos uuid] at same
        refine ⟨fun tiny => ?_, fun _ => Uuid.isUuid_of_digits (good.2.2 uuid) same⟩
        rcases uuid with rfl | rfl <;> cases tiny
      · rw [if_neg uuid, if_neg uuid] at same
        rw [same]
        exact good.2
    | _ => cases same
  | _ =>
    cases b with
    | text t => cases same
    | _ => exact (congrArg (IsValue type) same).mpr good

/-- Keys of which nothing is lost are compared by their bytes as they are. -/
theorem agreesAt_of_kept (ordered : Ordered type = true) (covered : Covered type)
    (goodA : IsValue type a) (goodB : IsValue type b) (keptA : Kept type a) (keptB : Kept type b) :
    AgreesAt host type a b := by
  intro data₁ data₂ writtenA writtenB
  obtain ⟨back₁, read₁, same₁⟩ := (restored_iff_kept covered goodA.1 writtenA).mpr keptA
  obtain ⟨back₂, read₂, same₂⟩ := (restored_iff_kept covered goodB.1 writtenB).mpr keptB
  rw [compareSerialized, read₁, read₂]
  simp only
  rw [compare_eq_threeWay ordered (isValue_of_normal goodA same₁) (isValue_of_normal goodB same₂),
    compare_eq_threeWay ordered goodA goodB, same₁, same₂]

/-- The bytes of an exact type keep all its values. -/
theorem kept_of_exact (exact : Exact type = true) (good : IsValue type a) : Kept type a := by
  have kinds : kindOf type ≠ some .date ∧ kindOf type ≠ some .time ∧ kindOf type ≠ some .dateTime := by
    cases type <;> first
      | exact absurd exact (by decide)
      | decide
  cases a with
  | null => trivial
  | integer v => exact good.2
  | boolean v => trivial
  | text s =>
    have kind : kindOf type = some .text := good.kind rfl
    have uuid : type = .UUID ∨ type = .UNIQUEIDENTIFIER := by
      cases type <;> first
        | exact absurd exact (by decide)
        | exact absurd kind (by decide)
        | decide
    have decimal : ¬ (type = .DECIMAL ∨ type = .NUMERIC) := by
      rcases uuid with rfl | rfl <;> decide
    rw [Kept, if_neg decimal, if_pos uuid]
    exact good.2.2 uuid
  | bytes content =>
    have kind : kindOf type = some .bytes := good.kind rfl
    have blob : type = .TINYBLOB ∨ type = .MEDIUMBLOB := by
      cases type <;> first
        | exact absurd exact (by decide)
        | exact absurd kind (by decide)
        | decide
    rcases blob with rfl | rfl
    · exact ⟨(good.2.1 rfl).trans (by decide), good.2.1⟩
    · exact ⟨good.2.2 rfl, fun tiny => absurd tiny (by decide)⟩
  | date day => exact absurd (good.kind rfl) kinds.1
  | time time => exact absurd (good.kind rfl) kinds.2.1
  | dateTime msecs => exact absurd (good.kind rfl) kinds.2.2

/-- All keys of a type are compared by their bytes as they are. -/
def SerializedAgrees (host : Host) (type : DataType) : Prop :=
  ∀ a b, IsValue type a → IsValue type b → AgreesAt host type a b

theorem not_agrees (lost : ∃ a b data₁ data₂, IsValue type a ∧ IsValue type b ∧
    serialize host.toQt a type = some data₁ ∧ serialize host.toQt b type = some data₂ ∧
    compareSerialized host data₁ data₂ type = 0 ∧ compare host a b type ≠ 0) :
    ¬ SerializedAgrees host type := by
  intro agrees
  obtain ⟨a, b, data₁, data₂, goodA, goodB, writtenA, writtenB, equal, different⟩ := lost
  exact different ((agrees a b goodA goodB data₁ data₂ writtenA writtenB).symm.trans equal)

/-- Two keys of different rank that are written as the same bytes. -/
theorem not_agrees_of_bytes (ordered : Ordered type = true) (goodA : IsValue type a)
    (goodB : IsValue type b) (different : rank (normal type a) ≠ rank (normal type b)) {data : Bytes}
    (writtenA : serialize host.toQt a type = some data) (writtenB : serialize host.toQt b type = some data)
    (read : ∀ key, deserialize host.toQt data type = some key → IsValue type key) :
    ¬ SerializedAgrees host type := by
  refine not_agrees ⟨a, b, data, data, goodA, goodB, writtenA, writtenB, ?_, ?_⟩
  · rw [compareSerialized]
    cases back : deserialize host.toQt data type with
    | none => rfl
    | some key =>
      have good := read key back
      exact (compare_eq_threeWay ordered good good).trans (threeWay_eq_zero_iff.mpr rfl)
  · rw [compare_eq_threeWay ordered goodA goodB, Ne, threeWay_eq_zero_iff]
    exact different

theorem date_lost : ¬ SerializedAgrees host .DATE :=
  not_agrees_of_bytes (a := .date (some ⟨EPOCH + 2 ^ 32, by decide, by decide⟩))
    (b := .date (some ⟨EPOCH, by decide, by decide⟩)) rfl ⟨.inr rfl, trivial⟩ ⟨.inr rfl, trivial⟩ (by decide)
    (show _ = some [0, 0, 0, 0, 0] from rfl) rfl fun key read => by
      cases read
      exact ⟨.inr rfl, trivial⟩

theorem time_lost : ¬ SerializedAgrees host .TIME :=
  not_agrees_of_bytes (a := .time (some ⟨1, by decide⟩)) (b := .time (some ⟨0, by decide⟩)) rfl
    ⟨.inr rfl, trivial⟩ ⟨.inr rfl, trivial⟩ (by decide) (show _ = some [0, 0, 0, 0, 0] from rfl) rfl
    fun key read => by
      cases read
      exact ⟨.inr rfl, trivial⟩

theorem smallDateTime_lost : ¬ SerializedAgrees host .SMALLDATETIME :=
  not_agrees_of_bytes (a := .dateTime (some 1)) (b := .dateTime (some 0)) rfl ⟨.inr rfl, trivial⟩
    ⟨.inr rfl, trivial⟩ (by decide) (show _ = some [0, 0, 0, 0, 0] from rfl) rfl fun key read => by
      cases read
      exact ⟨.inr rfl, trivial⟩

/-- The microseconds of this point in time are those of the epoch, modulo 2^64. -/
theorem dateTime_lost (kind : kindOf type = some .dateTime) (other : type ≠ .SMALLDATETIME) :
    ¬ SerializedAgrees host type := by
  have family : Ordered type = true ∧ (∀ msecs, serialize host.toQt (.dateTime (some msecs)) type =
      some (0 :: LittleEndian.encodeInt 8 (msecs.toInt * 1000))) ∧
      deserializeValue host.toQt type =
        (readSigned 8).map (fun micros => .dateTime (some (.ofInt (micros.tdiv 1000)))) := by
    cases type <;> first
      | exact absurd kind (by decide)
      | exact absurd rfl other
      | exact ⟨rfl, fun _ => rfl, rfl⟩
  obtain ⟨ordered, writes, reads⟩ := family
  have good : ∀ msecs, IsValue type (.dateTime msecs) := fun msecs => ⟨.inr kind.symm, trivial⟩
  have product : (2305843009213693952 : Int64).toInt * 1000 = 125 * 2 ^ 64 := by decide
  refine not_agrees_of_bytes ordered (good (some 2305843009213693952)) (good (some 0)) ?_ (writes _) ?_ ?_
  · intro same
    exact absurd (moment_injective (fun _ _ => Int64.toInt_inj.mp) (List.cons.inj same).2) (by decide)
  · rw [writes, product]
    rfl
  · intro key read
    rw [deserialize, if_neg (not_not_intro rfl), reads, map_some _ (read_encodeInt _ _)] at read
    cases read
    exact good _

theorem string_lost (string : isStringType type = true) (other : type ≠ .CHAR) :
    ¬ SerializedAgrees host type := by
  have ordered : Ordered type = true ∧ kindOf type = some .text ∧
      ¬ (type = .UUID ∨ type = .UNIQUEIDENTIFIER) := by
    cases type <;> first
      | exact absurd string (by decide)
      | exact absurd rfl other
      | decide
  have good : ∀ units : List UInt16, units.length ≤ 1 → IsValue type (.text units) := fun units short =>
    ⟨.inr ordered.2.1.symm, fun _ => short.trans (by decide), fun uuid => absurd uuid ordered.2.2⟩
  have read : ∀ units : List UInt16, units.length ≤ 1 → ∃ data,
      serialize host.toQt (.text units) type = some data ∧
        deserialize host.toQt data type = some (.text (stored units)) := by
    intro units short
    obtain ⟨writes, _, _⟩ := string_format host.toQt string units
    have whole : tiny (type = .TINYTEXT) units = units := tiny_eq_self fun _ => short.trans (by decide)
    rw [whole] at writes
    refine ⟨_, by rw [serialize, if_neg nofun, writes, Option.map_some], ?_⟩
    have back := read_string string writes
    rw [if_neg other, whole] at back
    rw [deserialize, if_neg (not_not_intro rfl), back, Option.map_some]
  obtain ⟨data₁, written₁, read₁⟩ := read [0xFEFF] (by decide)
  obtain ⟨data₂, written₂, read₂⟩ := read [] (by decide)
  refine not_agrees ⟨_, _, data₁, data₂, good [0xFEFF] (by decide), good [] (by decide), written₁,
    written₂, ?_, ?_⟩
  · rw [compareSerialized, read₁, read₂]
    exact (compare_eq_threeWay ordered.1 (good [] (by decide)) (good [] (by decide))).trans
      (threeWay_eq_zero_iff.mpr rfl)
  · rw [compare_eq_threeWay ordered.1 (good _ (by decide)) (good _ (by decide)), Ne, threeWay_eq_zero_iff,
      normal, normal, if_neg ordered.2.2, if_neg ordered.2.2]
    decide

theorem binary_lost (kind : kindOf type = some .bytes) (large : Exact type = false) :
    ¬ SerializedAgrees host type := by
  have family : Ordered type = true ∧ type ≠ .TINYBLOB ∧ type ≠ .MEDIUMBLOB ∧
      ∀ value, serializeValue host.toQt value type = some (serializeBinary host.toQt value type) := by
    cases type <;> first
      | exact absurd kind (by decide)
      | exact absurd large (by decide)
      | exact ⟨rfl, nofun, nofun, fun _ => rfl⟩
  obtain ⟨ordered, other, medium, writes⟩ := family
  have good : ∀ content, IsValue type (.bytes content) := fun content =>
    ⟨.inr kind.symm, fun tiny => absurd tiny other, fun tiny => absurd tiny medium⟩
  have written : ∀ content, serialize host.toQt (.bytes content) type =
      some (0 :: serializeBinary host.toQt (.bytes content) type) := fun content => by
    rw [serialize, if_neg nofun, writes, Option.map_some]
  have refused := read_binary kind (writes (.bytes (List.replicate (MAX_BINARY + 1) 0)))
  rw [tiny_eq_self fun short => absurd (of_decide_eq_true short) other, List.length_replicate,
    if_pos (by decide)] at refused
  refine not_agrees ⟨_, _, _, _, good (List.replicate (MAX_BINARY + 1) 0), good [], written _, written _,
    ?_, ?_⟩
  · rw [compareSerialized, deserialize, if_neg (not_not_intro rfl), refused]
    rfl
  · rw [compare_eq_threeWay ordered (good _) (good _), Ne, threeWay_eq_zero_iff]
    intro same
    cases octets_injective (List.cons.inj same).2

theorem not_agrees_of_inexact (ordered : Ordered type = true) (inexact : Exact type = false)
    (indexable : isIndexableType type = true) (fixed : isFloatType type = false) :
    ¬ SerializedAgrees host type := by
  cases type <;> first
    | exact absurd inexact (by decide)
    | exact absurd ordered (by decide)
    | exact absurd indexable (by decide)
    | exact absurd fixed (by decide)
    | exact date_lost
    | exact time_lost
    | exact smallDateTime_lost
    | exact dateTime_lost rfl (by decide)
    | exact binary_lost rfl rfl
    | exact string_lost rfl (by decide)

/-- Keys are totally ordered and only equal values are equal, and serialized keys are compared likewise,
for the exact types and no others. The order alone is there for more types, and of those two keys of
which nothing is lost are compared by their bytes as they are. -/
theorem compare_lawful_iff (host : Host) (type : DataType) (indexable : isIndexableType type = true)
    (fixed : isFloatType type = false) :
    (OrderLaws host type ∧ SerializedAgrees host type ↔ Exact type = true) ∧
      (OrderLaws host type ↔ Ordered type = true) ∧
      (Ordered type = true → ∀ a b, IsValue type a → IsValue type b → Kept type a → Kept type b →
        AgreesAt host type a b) := by
  have covered : Ordered type = true → Covered type := fun ordered => by
    cases type <;> first
      | exact absurd ordered (by decide)
      | exact absurd fixed (by decide)
      | exact ⟨rfl, by decide⟩
  have kept : Ordered type = true → ∀ a b, IsValue type a → IsValue type b → Kept type a → Kept type b →
      AgreesAt host type a b := fun ordered a b goodA goodB keptA keptB =>
    agreesAt_of_kept ordered (covered ordered) goodA goodB keptA keptB
  refine ⟨⟨?_, fun exact => ?_⟩, orderLaws_iff host type, kept⟩
  · rintro ⟨laws, agrees⟩
    by_contra inexact
    exact not_agrees_of_inexact ((orderLaws_iff host type).mp laws) (Bool.eq_false_iff.mpr inexact)
      indexable fixed agrees
  · have ordered : Ordered type = true := by
      cases type <;> first
        | exact absurd exact (by decide)
        | rfl
    exact ⟨orderLaws_of_ordered ordered, fun a b goodA goodB =>
      kept ordered a b goodA goodB (kept_of_exact exact goodA) (kept_of_exact exact goodB)⟩

/-- All doubles are one. -/
def Host.plain : Host where
  toQt := .plain
  folded := Uuid.toLower
  folded_digit _ _ := rfl
  toDouble _ := some 0
  less _ _ := false
  irreflexive _ := rfl
  numerals _ _ := rfl
  compareFloat _ _ := 0

theorem compare_lawful_iff_int : OrderLaws .plain .INT ∧ SerializedAgrees .plain .INT :=
  (compare_lawful_iff .plain .INT rfl rfl).1.mpr rfl

/-- Two keys of type JSON are equal, and they can be indexed. -/
theorem json_indistinct : isIndexableType .JSON = true ∧
    compare .plain (.text [0x61]) (.text [0x62]) .JSON = 0 ∧
    ¬ SameValue .JSON (.text [0x61]) (.text [0x62]) :=
  ⟨rfl, by decide, nofun⟩

end QinDB.Index.KeyComparator
