/-
# Auth.LongHash — digests of any length

`blake2bLong` of `argon2id.cpp` and the hash function `H'` of the Argon2 standard. A digest
of more than 64 bytes is a chain of digests; for a shorter one the standard hashes the length
in front of the input, and the code does not.

* `lengthen_eq`: the loop produces the chain.
* `long_hash_iff`: the two agree on all inputs if and only if the digest is long.
-/
import QinDB.Auth.PackedMixing

namespace QinDB.Auth.Blake2b

open QinDB.Base QinDB.Base.Packed QinDB.Core

set_option autoImplicit false

/-! ## The standard -/

namespace Standard

variable (H : Bytes → Nat → Bytes)

/-- `LE32` -/
def lengthBytes (t : Nat) : Bytes := LittleEndian.encode 4 t

/-- The digests of the chain, counted from zero. -/
def V (t : Nat) (a : Bytes) : Nat → Bytes
  | 0 => H (lengthBytes t ++ a) 64
  | i + 1 => H (V t a i) 64

/-- `H'`: the first 32 bytes of all digests of the chain but the last one, which is as long as the
rest. -/
def variableHash (t : Nat) (a : Bytes) : Bytes :=
  if t ≤ 64 then H (lengthBytes t ++ a) t
  else
    let r := (t + 31) / 32 - 2
    (List.range r).flatMap (fun i => (V H t a i).take 32) ++ H (V H t a (r - 1)) (t - 32 * r)

end Standard

/-! ## Long digests -/

/-- The loop after `i` iterations, with `left` iterations to go. -/
theorem lengthen_eq {t : Nat} (long : 64 < t) (a : Bytes) (i left : Nat)
    (total : (t + 31) / 32 - 2 = i + 1 + left) :
    lengthen ((List.range (i + 1)).flatMap fun k => (Standard.V hash t a k).take 32)
      (Standard.V hash t a i) (t - 32 * (i + 1)) = Standard.variableHash hash t a := by
  induction left generalizing i with
  | zero =>
    have last : ¬ t - 32 * (i + 1) > BLAKE2B_OUTBYTES := by unfold BLAKE2B_OUTBYTES; omega
    have some_left : t - 32 * (i + 1) > 0 := by omega
    rw [lengthen, if_neg last, if_pos some_left, Standard.variableHash, if_neg (by omega)]
    dsimp only
    rw [total]
    rfl
  | succ left ih =>
    have more : t - 32 * (i + 1) > BLAKE2B_OUTBYTES := by unfold BLAKE2B_OUTBYTES; omega
    have next := ih (i + 1) (by omega)
    rw [List.range_succ, List.flatMap_append, List.flatMap_singleton] at next
    rw [lengthen, if_pos more]
    exact next

theorem blake2bLong_eq {t : Nat} (long : 64 < t) (a : Bytes) :
    blake2bLong a t = Standard.variableHash hash t a := by
  have start := lengthen_eq long a 0 ((t + 31) / 32 - 3) (by omega)
  rw [Nat.zero_add, List.range_one, List.flatMap_singleton] at start
  rw [← start, blake2bLong, if_neg (by unfold BLAKE2B_OUTBYTES; omega)]
  rfl

/-! ## Short digests -/

/-- A list of sixteen words and a number that holds them. -/
structure Sixteen (packed : Nat) (v : List UInt64) : Prop where
  words : Packs packed (v.getD · 0)
  length : v.length = 16

theorem getD_set {v : List UInt64} {i : Nat} (inside : i < v.length) (x : UInt64) :
    ((v.set i x).getD · 0) = Function.update (v.getD · 0) i x := by
  funext k
  simp only [List.getD_eq_getElem?_getD, Function.update_apply]
  split
  · rename_i same
    rw [same, List.getElem?_set_self inside, Option.getD_some]
  · rename_i other
    rw [List.getElem?_set_ne (Ne.symm other)]

theorem Sixteen.G {packed : Nat} {v : List UInt64} (sixteen : Sixteen packed v) {a b c d : Nat}
    (places : a < 16 ∧ b < 16 ∧ c < 16 ∧ d < 16) (x y : UInt64) :
    Sixteen (quarter packed a b c d x.toNat y.toNat) (G v a b c d x y) := by
  have length := sixteen.length
  constructor
  · have step := Packs.quarter sixteen.words a b c d x y
    unfold Blake2b.G
    simp only [getD_set, List.length_set, length, places]
    exact step
  · simp only [Blake2b.G, List.length_set, length]

/-- A round on a packed state and a packed message. -/
def roundPacked (m packed : Nat) (sigma : List Nat) : Nat :=
  let part := fun i => word m (sigma.getD i 0)
  let v := quarter packed 0 4 8 12 (part 0) (part 1)
  let v := quarter v 1 5 9 13 (part 2) (part 3)
  let v := quarter v 2 6 10 14 (part 4) (part 5)
  let v := quarter v 3 7 11 15 (part 6) (part 7)
  let v := quarter v 0 5 10 15 (part 8) (part 9)
  let v := quarter v 1 6 11 12 (part 10) (part 11)
  let v := quarter v 2 7 8 13 (part 12) (part 13)
  quarter v 3 4 9 14 (part 14) (part 15)

theorem Sixteen.round {packed : Nat} {m v : List UInt64} (sixteen : Sixteen packed v)
    (sigma : List Nat) : Sixteen (roundPacked (pack m) packed sigma) (round m v sigma) := by
  simp only [roundPacked, packs_pack m _]
  exact (((((((sixteen.G (by decide) _ _).G (by decide) _ _).G (by decide) _ _).G (by decide) _ _).G
    (by decide) _ _).G (by decide) _ _).G (by decide) _ _).G (by decide) _ _

/-- The state before the rounds of `compress`. -/
def startWords (ctx : Context) : List UInt64 :=
  let v := ctx.h ++ IV
  let v := v.set 12 (v.getD 12 0 ^^^ ctx.t0)
  let v := v.set 13 (v.getD 13 0 ^^^ ctx.t1)
  let v := v.set 14 (v.getD 14 0 ^^^ ctx.f0)
  v.set 15 (v.getD 15 0 ^^^ ctx.f1)

def messageWords (block : Bytes) : List UInt64 :=
  (List.range 16).map fun i => load64 (block.drop (i * 8))

/-- The first word of a compression, on numbers. -/
def compressPacked (ctx : Context) (block : Bytes) : Nat :=
  let mixed := SIGMA.foldl (roundPacked (pack (messageWords block))) (pack (startWords ctx))
  (ctx.h.getD 0 0).toNat ^^^ (word mixed 0 ^^^ word mixed 8)

theorem toNat_compress {ctx : Context} (eight : ctx.h.length = 8) (block : Bytes) :
    ((compress ctx block).h.getD 0 0).toNat = compressPacked ctx block := by
  have start : Sixteen (pack (startWords ctx)) (startWords ctx) := by
    refine ⟨packs_pack _, ?_⟩
    simp only [startWords, List.length_set, List.length_append, eight]
    rfl
  have mixed : Sixteen _ (SIGMA.foldl (Blake2b.round (messageWords block)) (startWords ctx)) :=
    List.foldl_rel start fun sigma _ _ _ before => before.round sigma
  rw [compressPacked, mixed.words, mixed.words, ← UInt64.toNat_xor, ← UInt64.toNat_xor]
  rfl

/-- The context in which the only block of a message is compressed. -/
def lastContext (outlen : Nat) (data : Bytes) : Context :=
  { ({ init outlen with buf := data }).addCount (.ofNat data.length) with f0 := 0xFFFFFFFFFFFFFFFF }

def firstByte (outlen : Nat) (data : Bytes) : Nat :=
  compressPacked (lastContext outlen data) (data ++ List.replicate (128 - data.length) 0) % 256

/-- A message of one block. -/
theorem hash_short {data : Bytes} (short : data.length ≤ 128) (outlen : Nat) :
    hash data outlen = final { init outlen with buf := data } := by
  rw [hash, update]
  split
  · rename_i empty
    rw [List.length_eq_zero_iff.mp empty]
    rfl
  · have fits : ¬ data.length > BLAKE2B_BLOCKBYTES - (init outlen).buf.length := by
      show ¬ data.length > 128 - 0
      omega
    rw [if_neg fits]
    rfl

theorem firstByte_eq {data : Bytes} (short : data.length ≤ 128) (n : Nat) :
    ((hash data (n + 1)).headD 0).toNat = firstByte (n + 1) data := by
  have first : (hash data (n + 1)).headD 0 = ((compress (lastContext (n + 1) data)
      (data ++ List.replicate (128 - data.length) 0)).h.getD 0 0).toUInt8 := by
    rw [hash_short short]
    show ((List.range (n + 1)).map fun i => ((compress (lastContext (n + 1) data)
      (data ++ List.replicate (128 - data.length) 0)).h.getD (i / 8) 0 >>>
        UInt64.ofNat (8 * (i % 8))).toUInt8).headD 0 = _
    rw [List.range_succ_eq_map, List.map_cons, List.headD_cons]
    exact congrArg UInt64.toUInt8 UInt64.shiftRight_zero
  rw [first, firstByte, ← toNat_compress rfl]
  rfl

/-- The empty input shows the difference for every length up to 64. -/
theorem short_differs (n : Fin 64) : hash [] (n + 1) ≠ hash (store32 (n + 1)) (n + 1) := by
  have bytes : ∀ n : Fin 64, firstByte (n + 1) [] ≠ firstByte (n + 1) (store32 (n + 1)) := by
    decide +kernel
  intro same
  have short : (store32 (n + 1)).length ≤ 128 := by
    rw [store32, LittleEndian.length_encode]
    decide
  apply bytes n
  rw [← firstByte_eq (Nat.zero_le _), ← firstByte_eq short, same]

/-- A digest has the length that is asked for. It is the one of the standard for every input if and
only if it is longer than 64 bytes (or empty). -/
theorem long_hash_iff (n : UInt32) :
    (∀ input, (blake2bLong input n.toNat).length = n.toNat ∧
      blake2bLong input n.toNat = Standard.variableHash hash n.toNat input) ↔
      n = 0 ∨ 64 < n.toNat := by
  constructor
  · intro equal
    by_contra short
    obtain ⟨some_byte, few⟩ := not_or.mp short
    have positive : n.toNat ≠ 0 := fun zero => some_byte (UInt32.toNat_inj.mp zero)
    obtain ⟨k, length⟩ : ∃ k : Fin 64, n.toNat = k + 1 :=
      ⟨⟨n.toNat - 1, by omega⟩, (Nat.succ_pred positive).symm⟩
    have same := (equal []).2
    rw [blake2bLong, if_pos (by unfold BLAKE2B_OUTBYTES; omega), Standard.variableHash,
      if_pos (by omega), List.append_nil, length] at same
    exact short_differs k same
  · rintro (rfl | long) input
    · have empty := List.eq_nil_of_length_eq_zero (length_blake2bLong input 0)
      have empty' := List.eq_nil_of_length_eq_zero (length_hash (Standard.lengthBytes 0 ++ input) 0)
      exact ⟨length_blake2bLong _ _, empty.trans empty'.symm⟩
    · exact ⟨length_blake2bLong _ _, blake2bLong_eq long input⟩

/-- The digest of 32 bytes of the empty input. -/
theorem short_hash_differs : blake2bLong [] 32 ≠ Standard.variableHash hash 32 [] :=
  short_differs 31

end QinDB.Auth.Blake2b
