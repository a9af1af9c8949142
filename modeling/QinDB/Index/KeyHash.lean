/-
# Index.KeyHash — hashes of keys

`KeyComparator::hash` and `CompositeKey` of `composite_key.cpp`. A hash index finds a key only if equal
keys have one hash. The hash of texts, `qHash`, is seeded for each process, so it may be any function:
where a comparison trims or reads numbers, the hash must not be taken of the text as it is.

* `hash_agrees_iff`: for which types equal keys have one hash, for single keys and for composite ones.
* `char_hashes_differ`: two equal keys of type CHAR with different hashes.
* `CompositeKey.compare_total`: composite keys over ordered types are totally ordered.
-/
import QinDB.Index.KeyComparator

namespace QinDB.Index.KeyComparator

open QinDB.Base QinDB.Core QinDB.Storage QinDB.Storage.TypeSerializer

set_option autoImplicit false

/-! ## Hashes -/

/-- The hashes that Qt computes. -/
structure Hashing where
  qHash : List UInt16 → UInt64
  float : Value → UInt64

/-- FNV-1a. -/
def hashBinary (content : Bytes) : UInt64 :=
  content.foldl (fun hash byte => (hash ^^^ byte.toUInt64) * 1099511628211) 14695981039346656037

section Hash

variable (host : Host) (hashing : Hashing) (key : Value)

/-- A date that is not valid has the least Julian day, and the other two count from zero. -/
def hashDateTime : DataType → UInt64
  | .DATE => .ofInt (((host.date key).map Day.julianDay).getD (-(2 ^ 63)))
  | .TIME => .ofInt (((host.time key).map fun t => (t.msecs : Int)).getD 0)
  | .DATETIME | .DATETIME2 | .TIMESTAMP | .TIMESTAMP_TZ | .DATETIMEOFFSET | .SMALLDATETIME =>
      .ofInt (((host.dateTime key).map Int64.toInt).getD 0)
  | _ => 0

/-- The first eight bytes. -/
def hashUUID : UInt64 :=
  let u := Uuid.cleaned (host.text key)
  match unsigned 16 (2 ^ 64) (u.take 16) with
  | some hash => .ofNat hash
  | none => hashing.qHash u

def hashValue (type : DataType) : UInt64 :=
  if isIntegerType type then .ofInt ((host.longLong key).getD 0).toInt
  else if isFloatType type then hashing.float key
  else if type = .DECIMAL ∨ type = .NUMERIC then hashing.qHash (host.text key)
  else if isStringType type then hashing.qHash (host.text key)
  else if isBinaryType type then hashBinary (host.byteArray key)
  else if isDateTimeType type then hashDateTime host key type
  else if type = .BOOLEAN ∨ type = .BOOL then if host.bool key then 1 else 0
  else if type = .UUID ∨ type = .UNIQUEIDENTIFIER then hashUUID host hashing key
  else 0

def hash (type : DataType) : UInt64 := if key = .null then 0 else hashValue host hashing key type

end Hash

/-! ## Composite keys -/

/-- Each value has its type. -/
abbrev CompositeKey := List (Value × DataType)

namespace CompositeKey

/-- The types are those of the first key. -/
def compare (host : Host) : CompositeKey → CompositeKey → Int
  | [], other => -(other.length : Int)
  | key, [] => key.length
  | entry :: key, entry' :: other =>
      let cmp := KeyComparator.compare host entry.1 entry'.1 entry.2
      if cmp ≠ 0 then cmp else compare host key other

/-- The loop of `hash`, from a result on. -/
def hashFrom (host : Host) (hashing : Hashing) (result : UInt64) (key : CompositeKey) : UInt64 :=
  key.foldl (fun result entry => result * 31 + KeyComparator.hash host hashing entry.1 entry.2) result

def hash (host : Host) (hashing : Hashing) (key : CompositeKey) : UInt64 :=
  hashFrom host hashing 0 key

/-- A key of an index over columns of these types. -/
def IsKey (types : List DataType) (key : CompositeKey) : Prop :=
  List.Forall₂ (fun type entry => entry.2 = type ∧ IsValue type entry.1) types key

end CompositeKey

/-! ## Agreement -/

def HashAgrees (host : Host) (type : DataType) : Prop :=
  ∀ hashing a b, IsValue type a → IsValue type b → compare host a b type = 0 →
    hash host hashing a type = hash host hashing b type

def CompositeAgrees (host : Host) (types : List DataType) : Prop :=
  ∀ hashing a b, CompositeKey.IsKey types a → CompositeKey.IsKey types b →
    CompositeKey.compare host a b = 0 →
    CompositeKey.hash host hashing a = CompositeKey.hash host hashing b

/-- The types whose equal keys have one hash. -/
def Hashable : DataType → Bool
  | .CHAR | .DECIMAL | .NUMERIC => false
  | .FLOAT | .REAL | .DOUBLE | .DOUBLE_PRECISION | .BINARY_FLOAT | .BINARY_DOUBLE => false
  | .GEOMETRY | .GEOGRAPHY => false
  | _ => true

variable {host : Host} {hashing : Hashing} {type : DataType} {a b : Value}

/-! ## Single keys -/

/-- Equal values have one hash. -/
theorem hash_eq_of_normal (goodA : IsValue type a) (goodB : IsValue type b)
    (same : normal type a = normal type b) :
    hash host hashing a type = hash host hashing b type := by
  cases a with
  | text s =>
    cases b with
    | text t =>
      rw [normal, normal, Value.text.injEq] at same
      by_cases uuid : type = .UUID ∨ type = .UNIQUEIDENTIFIER
      · rw [if_pos uuid, if_pos uuid] at same
        obtain ⟨n, readS, readT⟩ := Uuid.unsigned_digits (goodA.2.2 uuid) (goodB.2.2 uuid) same
        have hashed : ∀ units, hash host hashing (.text units) type = hashUUID host hashing (.text units) := by
          rcases uuid with rfl | rfl <;> exact fun _ => rfl
        rw [hashed, hashed, hashUUID, hashUUID, Qt.text, Qt.text, readS, readT]
      · rw [if_neg uuid, if_neg uuid] at same
        rw [same]
    | _ => cases same
  | _ =>
    cases b with
    | text t => cases same
    | _ => exact congrArg (hash host hashing · type) same

theorem hash_eq_of_compare (hashable : Hashable type = true) (goodA : IsValue type a)
    (goodB : IsValue type b) (equal : compare host a b type = 0) :
    hash host hashing a type = hash host hashing b type := by
  by_cases ordered : Ordered type = true
  · rw [compare_eq_threeWay ordered goodA goodB, threeWay_eq_zero_iff] at equal
    exact hash_eq_of_normal goodA goodB (eq_of_rank (Alike.of goodA.1 goodB.1).normal equal)
  · -- What is not compared has no hash either.
    have zero : ∀ key, hash host hashing key type = 0 := fun key => by
      rw [hash]
      split
      · rfl
      · cases type <;> first
          | exact absurd rfl ordered
          | exact absurd hashable (by decide)
          | rfl
    rw [zero, zero]

/-- Equal keys with different hashes. -/
def Collides (host : Host) (type : DataType) : Prop :=
  ∃ hashing a b, IsValue type a ∧ IsValue type b ∧ compare host a b type = 0 ∧
    hash host hashing a type ≠ hash host hashing b type

/-- Two texts can be told apart by their hash. -/
theorem collides_of_texts {s t : List UInt16} (differ : s ≠ t)
    (hashed : ∀ hashing units, hash host hashing (.text units) type = hashing.qHash units)
    (goodS : IsValue type (.text s)) (goodT : IsValue type (.text t))
    (equal : compare host (.text s) (.text t) type = 0) : Collides host type := by
  refine ⟨⟨fun units => if units = s then 1 else 0, fun _ => 0⟩, _, _, goodS, goodT, equal, ?_⟩
  rw [hashed, hashed]
  simp only [if_true, if_neg differ.symm]
  decide

theorem collides (plain : Hashable type = false) (indexable : isIndexableType type = true)
    (fixed : isFloatType type = false) : Collides host type := by
  have family : type = .CHAR ∨ type = .DECIMAL ∨ type = .NUMERIC := by
    cases type <;> first
      | exact absurd plain (by decide)
      | exact absurd indexable (by decide)
      | exact absurd fixed (by decide)
      | decide
  have hashed : ∀ hashing units, hash host hashing (.text units) type = hashing.qHash units := by
    rcases family with rfl | rfl | rfl <;> exact fun _ _ => rfl
  rcases family with rfl | decimal
  · exact collides_of_texts (by decide) hashed (isValue_text rfl rfl _) (isValue_text rfl rfl _)
      (char_equal host)
  · obtain ⟨m, n, differ, goodM, goodN, equal⟩ := decimal_equal host decimal
    exact collides_of_texts (numeral_ne differ) hashed goodM goodN equal

/-! ## Composite keys -/

namespace CompositeKey

theorem hashFrom_cons (result : UInt64) (entry : Value × DataType) (key : CompositeKey) :
    hashFrom host hashing result (entry :: key) =
      hashFrom host hashing (result * 31 + KeyComparator.hash host hashing entry.1 entry.2) key := rfl

theorem hashFrom_eq_of_compare {types : List DataType} (hashable : ∀ type ∈ types, Hashable type = true)
    {key other : CompositeKey} (good : IsKey types key) (goodOther : IsKey types other)
    (equal : compare host key other = 0) (result : UInt64) :
    hashFrom host hashing result key = hashFrom host hashing result other := by
  induction good generalizing other result with
  | nil =>
    cases goodOther
    rfl
  | cons here _ ih =>
    cases goodOther with
    | cons here' goodRest =>
      obtain ⟨rfl, goodV⟩ := here
      obtain ⟨typed, goodW⟩ := here'
      rw [compare] at equal
      simp only [ne_eq, ite_not] at equal
      split at equal
      · rename_i first
        rw [hashFrom_cons, hashFrom_cons, typed,
          hash_eq_of_compare (hashable _ List.mem_cons_self) goodV goodW first,
          ih (fun type member => hashable type (List.mem_cons_of_mem _ member)) goodRest equal]
      · exact absurd equal ‹_›

/-- 31 is odd, so nothing is lost of a result. -/
theorem hashFrom_injective (key : CompositeKey) {result result' : UInt64}
    (same : hashFrom host hashing result key = hashFrom host hashing result' key) : result = result' := by
  induction key generalizing result result' with
  | nil => exact same
  | cons entry key ih =>
    have product : result * 31 = result' * 31 := by
      have sums := congrArg (· - KeyComparator.hash host hashing entry.1 entry.2) (ih same)
      simpa only [UInt64.add_sub_cancel] using sums
    have inverse := congrArg (· * 17256631552825064415) product
    simpa only [UInt64.mul_assoc, show (31 * 17256631552825064415 : UInt64) = 1 by decide,
      UInt64.mul_one] using inverse

/-- A key that is NULL in every column. -/
def nulls (types : List DataType) : CompositeKey := types.map fun type => (.null, type)

theorem isKey_nulls (types : List DataType) : IsKey types (nulls types) := by
  induction types with
  | nil => exact .nil
  | cons type types ih => exact .cons ⟨rfl, .inl rfl, trivial⟩ ih

theorem compare_self_nulls (types : List DataType) : compare host (nulls types) (nulls types) = 0 := by
  induction types with
  | nil => rfl
  | cons type types ih => exact ih

/-- Two keys that differ only in the column of a type whose equal keys have different hashes. -/
theorem collides {types : List DataType} (some_type : ∃ type ∈ types, Collides host type) :
    ∃ hashing key other, IsKey types key ∧ IsKey types other ∧ compare host key other = 0 ∧
      ∀ result, hashFrom host hashing result key ≠ hashFrom host hashing result other := by
  obtain ⟨type, member, bad⟩ := some_type
  induction types with
  | nil => cases member
  | cons first types ih =>
    rcases List.mem_cons.mp member with rfl | later
    · obtain ⟨hashing, a, b, goodA, goodB, equal, differ⟩ := bad
      refine ⟨hashing, (a, type) :: nulls types, (b, type) :: nulls types,
        .cons ⟨rfl, goodA⟩ (isKey_nulls types), .cons ⟨rfl, goodB⟩ (isKey_nulls types), ?_, fun result => ?_⟩
      · rw [compare, if_neg (not_not_intro equal), compare_self_nulls]
      · rw [hashFrom_cons, hashFrom_cons]
        exact fun same => differ ((UInt64.add_right_inj _).mp (hashFrom_injective _ same))
    · obtain ⟨hashing, key, other, goodKey, goodOther, equal, differ⟩ := ih later
      refine ⟨hashing, (.null, first) :: key, (.null, first) :: other,
        .cons ⟨rfl, .inl rfl, trivial⟩ goodKey, .cons ⟨rfl, .inl rfl, trivial⟩ goodOther, equal, fun result => ?_⟩
      exact differ _

end CompositeKey

/-- Equal keys have one hash for the hashable types and no others, and equal composite keys if all types
of their columns are. -/
theorem hash_agrees_iff (host : Host) (type : DataType) (indexable : isIndexableType type = true)
    (fixed : isFloatType type = false) (types : List DataType)
    (columns : ∀ type ∈ types, isIndexableType type = true ∧ isFloatType type = false) :
    (HashAgrees host type ↔ Hashable type = true) ∧
      (CompositeAgrees host types ↔ ∀ type ∈ types, Hashable type = true) := by
  refine ⟨⟨fun agrees => ?_, fun hashable hashing a b => hash_eq_of_compare hashable⟩,
    ⟨fun agrees => ?_, fun hashable hashing a b goodA goodB equal =>
      CompositeKey.hashFrom_eq_of_compare hashable goodA goodB equal 0⟩⟩
  · by_contra plain
    obtain ⟨hashing, a, b, goodA, goodB, equal, differ⟩ :=
      collides (Bool.eq_false_iff.mpr plain) indexable fixed
    exact differ (agrees hashing a b goodA goodB equal)
  · intro type member
    by_contra plain
    obtain ⟨hashing, key, other, goodKey, goodOther, equal, differ⟩ :=
      CompositeKey.collides ⟨type, member, collides (Bool.eq_false_iff.mpr plain) (columns type member).1
        (columns type member).2⟩
    exact differ 0 (agrees hashing key other goodKey goodOther equal)

theorem hash_agrees_iff_int : HashAgrees .plain .INT ∧ CompositeAgrees .plain [.INT, .VARCHAR] :=
  have both := hash_agrees_iff .plain .INT rfl rfl [.INT, .VARCHAR] (by decide)
  ⟨both.1.mpr rfl, both.2.mpr (by decide)⟩

/-- A hash that tells the two texts apart. -/
theorem char_hashes_differ : compare .plain (.text [0x20, 0x61]) (.text [0x61]) .CHAR = 0 ∧
    hash .plain ⟨fun units => .ofNat units.length, fun _ => 0⟩ (.text [0x20, 0x61]) .CHAR = 2 ∧
    hash .plain ⟨fun units => .ofNat units.length, fun _ => 0⟩ (.text [0x61]) .CHAR = 1 := by
  decide

/-! ## The order of composite keys -/

/-- Composite keys with ordered columns are totally ordered, by the first column that differs. -/
theorem CompositeKey.compare_total (host : Host) (types : List DataType)
    (ordered : ∀ type ∈ types, Ordered type = true) : TotalOn (IsKey types) (compare host) := by
  refine .of_rank (fun key => key.map fun entry => rank (normal entry.2 entry.1))
    fun key other good goodOther => ?_
  rw [← lexicographic_eq]
  induction good generalizing other with
  | nil =>
    cases goodOther
    rfl
  | cons first _ ih =>
    cases goodOther with
    | cons first' rest' =>
      rw [compare, first.1, compare_eq_threeWay (ordered _ List.mem_cons_self) first.2 first'.2,
        List.map_cons, List.map_cons, lexicographic, first.1, first'.1, threeWay,
        ih (fun type member => ordered type (List.mem_cons_of_mem _ member)) _ rest']
      split
      · rfl
      · split <;> rfl

theorem CompositeKey.compare_total_two :
    TotalOn (IsKey [.INT, .VARCHAR]) (compare .plain) :=
  compare_total .plain [.INT, .VARCHAR] (by decide)

end QinDB.Index.KeyComparator
