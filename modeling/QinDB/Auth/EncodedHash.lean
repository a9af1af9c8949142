/-
# Auth.EncodedHash — hashes as texts

`hashEncoded`, `parseEncoded` and `verify` of `argon2id.cpp`. The text has fields between dollar
signs; `parseEncoded` splits it there and skips empty fields, and an empty salt is one.

* `parseEncoded_encodedText`: what is parsed of an encoded hash.
* `verify_hashEncoded_iff`: an encoded hash is parsed and verified if and only if there is a salt and
  the hash stays inside its memory.
* `emptySalt_refused`: a hash with an empty salt is not verified.
-/
import QinDB.Auth.Argon2id
import QinDB.Base.Base64
import QinDB.Storage.Texts

namespace QinDB.Auth.Argon2id

open QinDB.Base QinDB.Base.Numerals QinDB.Core QinDB.Storage

set_option autoImplicit false

/-! ## Texts -/

def Parameters.default : Parameters := ⟨3, 65536, 1, 32, 16⟩

/-- `$argon2id$v=19$m=65536,t=3,p=1$salt$hash` -/
def encodedText (params : Parameters) (salt digest : Bytes) : List UInt16 :=
  units "$argon2id$v=" ++ numeral 10 ARGON2_VERSION ++
    units "$m=" ++ numeral 10 params.memoryCost.toNat ++
    units ",t=" ++ numeral 10 params.timeCost.toNat ++
    units ",p=" ++ numeral 10 params.parallelism.toNat ++
    units "$" ++ Base64.encode salt ++ units "$" ++ Base64.encode digest

def hashEncoded (password salt : Bytes) (params : Parameters) : Option (List UInt16) :=
  (hash password salt params).map (encodedText params salt)

/-- A text that is no number is zero, as for `toUInt`. -/
def setParameter (params : Parameters) (param : List UInt16) : Option Parameters :=
  match param.splitOn 0x3d with
  | [key, text] =>
      let value := UInt32.ofNat ((unsigned 10 (2 ^ 32) text).getD 0)
      if key = units "m" then some { params with memoryCost := value }
      else if key = units "t" then some { params with timeCost := value }
      else if key = units "p" then some { params with parallelism := value }
      else some params
  | _ => none

/-- `none` is `false`; what has been assigned then is not read. -/
def parseEncoded (encoded : List UInt16) (params : Parameters) :
    Option (Parameters × Bytes × Bytes) :=
  match (encoded.splitOn 0x24).filter (· ≠ []) with
  | [algorithm, version, costs, saltText, hashText] =>
      if algorithm ≠ units "argon2id" then none
      else if !(units "v=").isPrefixOf version then none
      else
        ((costs.splitOn 0x2c).foldlM setParameter params).map fun params =>
          let salt := Base64.decode saltText
          let digest := Base64.decode hashText
          ({ params with saltLength := .ofNat salt.length, hashLength := .ofNat digest.length },
            salt, digest)
  | _ => none

/-- The sizes are equal and no byte differs. -/
def sameBytes (computed expected : Bytes) : Bool :=
  computed.length = expected.length &&
    (List.zipWith (· ^^^ ·) computed expected).foldl (· ||| ·) 0 = 0

/-- `none` is an access outside the memory. -/
def verify (password : Bytes) (encodedHash : List UInt16) : Option Bool :=
  match parseEncoded encodedHash .default with
  | none => some false
  | some (params, salt, expected) =>
      (hash password salt params).map fun computed => sameBytes computed expected

/-! ## Fields -/

theorem sameBytes_self (bytes : Bytes) : sameBytes bytes bytes = true := by
  have zero : ∀ count : Nat, (List.replicate count (0 : UInt8)).foldl (· ||| ·) 0 = 0 := by
    intro count
    induction count with
    | zero => rfl
    | succ count ih => exact ih
  simp [sameBytes, zero]

/-- Digits are none of the marks. -/
theorem not_mem_numeral {mark : UInt16} (other : ∀ d : Fin 10, digit d ≠ mark) (n : Nat) :
    mark ∉ numeral 10 n := fun member =>
  (numeral_digits (by decide) (by decide) n mark member).decimal (P := (· ≠ mark)) other rfl

theorem not_mem_base64 {mark : UInt16} (other : ∀ d : Fin 64, Base64.digit d ≠ mark) (bytes : Bytes) :
    mark ∉ Base64.encode bytes := by
  intro member
  obtain ⟨d, same⟩ := Base64.encode_digits bytes mark member
  exact other d same.symm

def costField (key : String) (cost : UInt32) : List UInt16 :=
  units key ++ units "=" ++ numeral 10 cost.toNat

/-- The three costs, between commas. -/
def costFields (params : Parameters) : List (List UInt16) :=
  [costField "m" params.memoryCost, costField "t" params.timeCost, costField "p" params.parallelism]

def fields (params : Parameters) (salt digest : Bytes) : List (List UInt16) :=
  [[], units "argon2id", units "v=" ++ numeral 10 ARGON2_VERSION, (units ",").intercalate (costFields params),
    Base64.encode salt, Base64.encode digest]

theorem encodedText_eq (params : Parameters) (salt digest : Bytes) :
    encodedText params salt digest = (units "$").intercalate (fields params salt digest) := by
  have front : units "$argon2id$v=" = units "$" ++ (units "argon2id" ++ (units "$" ++ units "v=")) := by
    decide
  have memory : units "$m=" = units "$" ++ (units "m" ++ units "=") := by decide
  have time : units ",t=" = units "," ++ (units "t" ++ units "=") := by decide
  have lanes : units ",p=" = units "," ++ (units "p" ++ units "=") := by decide
  simp only [encodedText, front, memory, time, lanes, fields, costFields, costField,
    List.intercalate_cons_cons, List.intercalate_singleton, List.append_assoc, List.nil_append]

/-- A mark that is in no number and in none of the letters is in none of the costs. -/
theorem not_mem_costFields {mark : UInt16} (other : ∀ d : Fin 10, digit d ≠ mark)
    (letters : mark ∉ units "mtp=") (params : Parameters) :
    ∀ field ∈ costFields params, mark ∉ field := by
  have number := not_mem_numeral other
  have split : units "mtp=" = units "m" ++ (units "t" ++ (units "p" ++ units "=")) := by decide
  rw [split] at letters
  simp only [List.mem_append, not_or] at letters
  simp only [costFields, costField, List.forall_mem_cons, List.mem_append, List.not_mem_nil, number,
    letters, or_self, not_false_eq_true, false_implies, implies_true, and_self]

theorem splitOn_encodedText (params : Parameters) (salt digest : Bytes) :
    (encodedText params salt digest).splitOn 0x24 = fields params salt digest := by
  have number := not_mem_numeral (by decide : ∀ d : Fin 10, digit d ≠ 0x24)
  have coded := not_mem_base64 (by decide : ∀ d : Fin 64, Base64.digit d ≠ 0x24)
  have letters : 0x24 ∉ units "v=" ∧ 0x24 ∉ units "," ∧ 0x24 ∉ units "argon2id" := by decide
  have costs : ∀ field ∈ costFields params, 0x24 ∉ field :=
    not_mem_costFields (by decide) (by decide) params
  rw [encodedText_eq]
  refine List.splitOn_intercalate 0x24 ?_ (List.cons_ne_nil _ _)
  simp only [costFields, List.forall_mem_cons] at costs
  simp only [fields, costFields, List.intercalate_cons_cons, List.intercalate_singleton,
    List.forall_mem_cons, List.mem_append, List.not_mem_nil, number, coded, letters, costs, or_self,
    not_false_eq_true, false_implies, implies_true, and_self]

theorem splitOn_costFields (params : Parameters) :
    ((units ",").intercalate (costFields params)).splitOn 0x2c = costFields params :=
  List.splitOn_intercalate 0x2c (not_mem_costFields (by decide) (by decide) params)
    (List.cons_ne_nil _ _)

theorem setParameter_costField (params : Parameters) {key : String} (plain : 0x3d ∉ units key)
    (cost : UInt32) : setParameter params (costField key cost) =
      if units key = units "m" then some { params with memoryCost := cost }
      else if units key = units "t" then some { params with timeCost := cost }
      else if units key = units "p" then some { params with parallelism := cost }
      else some params := by
  have number := not_mem_numeral (by decide : ∀ d : Fin 10, digit d ≠ 0x3d) cost.toNat
  have joined : costField key cost = (units "=").intercalate [units key, numeral 10 cost.toNat] := by
    rw [List.intercalate_cons_cons, List.intercalate_singleton]
    rfl
  have split : (costField key cost).splitOn 0x3d = [units key, numeral 10 cost.toNat] := by
    rw [joined]
    exact List.splitOn_intercalate 0x3d (by simp [plain, number]) (List.cons_ne_nil _ _)
  simp only [setParameter, split, unsigned_numeral cost.toNat_lt, Option.getD_some,
    UInt32.ofNat_toNat]

theorem foldlM_costFields (params old : Parameters) :
    (costFields params).foldlM setParameter old = some
      { params with hashLength := old.hashLength, saltLength := old.saltLength } := by
  have equals : 0x3d ∉ units "m" ∧ 0x3d ∉ units "t" ∧ 0x3d ∉ units "p" := by decide
  simp only [costFields, List.foldlM_cons, List.foldlM_nil, setParameter_costField _ equals.1,
    setParameter_costField _ equals.2.1, setParameter_costField _ equals.2.2]
  rfl

/-! ## Verification -/

/-- What is parsed of an encoded hash: nothing if the salt is empty. -/
theorem parseEncoded_encodedText (params old : Parameters) {salt digest : Bytes}
    (some_hash : digest ≠ []) :
    parseEncoded (encodedText params salt digest) old = if salt = [] then none else some
      ({ params with saltLength := .ofNat salt.length, hashLength := .ofNat digest.length },
        salt, digest) := by
  have version : (units "v=").isPrefixOf (units "v=" ++ numeral 10 ARGON2_VERSION) = true :=
    List.isPrefixOf_iff_prefix.mpr (List.prefix_append _ _)
  have hashText : Base64.encode digest ≠ [] := mt Base64.encode_eq_nil_iff.mp some_hash
  have constants : units "argon2id" ≠ [] ∧ units "v=" ++ numeral 10 ARGON2_VERSION ≠ [] := by decide
  have costs : (units ",").intercalate (costFields params) ≠ [] := by
    simp [costFields, costField, List.intercalate_cons_cons, units]
  by_cases empty : salt = []
  · have left : (fields params salt digest).filter (· ≠ []) =
        [units "argon2id", units "v=" ++ numeral 10 ARGON2_VERSION,
          (units ",").intercalate (costFields params), Base64.encode digest] := by
      simp [fields, constants, costs, hashText, empty, Base64.encode_eq_nil_iff]
    rw [if_pos empty, parseEncoded, splitOn_encodedText, left]
  · have left : (fields params salt digest).filter (· ≠ []) =
        [units "argon2id", units "v=" ++ numeral 10 ARGON2_VERSION,
          (units ",").intercalate (costFields params), Base64.encode salt, Base64.encode digest] := by
      simp [fields, constants, costs, hashText, empty, Base64.encode_eq_nil_iff]
    rw [if_neg empty, parseEncoded, splitOn_encodedText, left]
    simp only [version, splitOn_costFields, foldlM_costFields, Base64.decode_encode]
    rfl

/-- The encoded hash is parsed and verified if and only if there is a salt and the hash stays inside
its memory. -/
theorem verify_hashEncoded_iff (password salt : Bytes) (params : Parameters)
    (some_lane : 1 ≤ params.parallelism.toNat) (some_hash : 1 ≤ params.hashLength.toNat) :
    (∃ digest encoded, hash password salt params = some digest ∧
      hashEncoded password salt params = some encoded ∧ verify password encoded = some true ∧
      parseEncoded encoded .default =
        some ({ params with saltLength := .ofNat salt.length }, salt, digest)) ↔
    salt ≠ [] ∧ (2 * params.parallelism.toNat ≤ params.memoryCost.toNat ∨
      2 * params.parallelism.toNat ≤ 8 * params.parallelism.toNat % 2 ^ 32) := by
  rw [← two_le_laneLength_iff some_lane, ← hash_isSome_iff some_lane password salt]
  cases hashed : hash password salt params with
  | none => simp
  | some digest =>
    have length := length_hash hashed
    have digested : digest ≠ [] := by
      rintro rfl
      exact absurd length (Nat.ne_of_lt some_hash)
    have parsed : parseEncoded (encodedText params salt digest) .default =
        if salt = [] then none
        else some ({ params with saltLength := .ofNat salt.length }, salt, digest) := by
      rw [parseEncoded_encodedText params .default digested, length, UInt32.ofNat_toNat]
    have encoded : hashEncoded password salt params = some (encodedText params salt digest) := by
      rw [hashEncoded, hashed, Option.map_some]
    constructor
    · rintro ⟨_, _, _, same, verified, _⟩
      cases encoded.symm.trans same
      refine ⟨fun empty => ?_, rfl⟩
      rw [if_pos empty] at parsed
      rw [verify, parsed] at verified
      cases verified
    · rintro ⟨some_salt, _⟩
      rw [if_neg some_salt] at parsed
      refine ⟨digest, _, rfl, encoded, ?_, parsed⟩
      -- the length of the salt is not used by the hash
      have again : hash password salt { params with saltLength := .ofNat salt.length } =
          some digest := hashed
      rw [verify, parsed]
      simp only [again, Option.map_some, sameBytes_self]

theorem verify_hashEncoded_iff_default : ∃ digest encoded, hash [] [1] .default = some digest ∧
    hashEncoded [] [1] .default = some encoded ∧ verify [] encoded = some true ∧
    parseEncoded encoded .default = some ({ Parameters.default with saltLength := 1 }, [1], digest) :=
  (verify_hashEncoded_iff [] [1] .default (by decide) (by decide)).mpr ⟨by decide, by decide⟩

/-- A hash with an empty salt is not verified. -/
theorem emptySalt_refused : ∃ encoded, hashEncoded [] [] .default = some encoded ∧
    verify [] encoded = some false := by
  have lane : 1 ≤ Parameters.default.parallelism.toNat := by decide
  obtain ⟨digest, hashed⟩ :=
    Option.isSome_iff_exists.mp ((hash_isSome_iff lane [] []).mpr (by decide))
  have length := length_hash hashed
  have digested : digest ≠ [] := by
    rintro rfl
    exact absurd length (by decide)
  refine ⟨encodedText .default [] digest, by rw [hashEncoded, hashed, Option.map_some], ?_⟩
  rw [verify, parseEncoded_encodedText .default .default digested, if_pos rfl]

end QinDB.Auth.Argon2id
