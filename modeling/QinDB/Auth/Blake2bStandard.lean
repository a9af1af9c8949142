/-
# Auth.Blake2bStandard — the hash function against its standard

`Standard` is BLAKE2b without a key as the standard writes it down: arrays of 64-bit words, the
constants by the square roots of the first primes, a count of the bytes as one number, and the
message in blocks of 128 bytes with zeros at its end. The code of `Auth.Blake2b` keeps the last
block back until it knows that more follows, and counts in two words.

* `compress_h`: a compression is `Standard.F`.
* `Absorbed`: a context has taken in this much of the message; `absorbed_update`: `update` adds
  its input to it.
* `digest_of_updates`: any split of a message gives the digest of the standard.
-/
import Mathlib.Data.Fin.Tuple.Basic
import Mathlib.Data.List.GetD
import Mathlib.Data.Nat.Sqrt
import QinDB.Auth.Blake2b

namespace QinDB.Auth.Blake2b

open QinDB.Base QinDB.Core

set_option autoImplicit false

/-! ## The standard -/

abbrev Word := BitVec 64

namespace Standard

/-- The first 64 bits of the fractional parts of the square roots of the first eight primes. -/
def IV (i : Fin 8) : Word :=
  BitVec.ofNat 64 (Nat.sqrt ([2, 3, 5, 7, 11, 13, 17, 19].get i * 2 ^ 128))

def SIGMA : List (List (Fin 16)) :=
  [[0, 1, 2, 3, 4, 5, 6, 7, 8, 9, 10, 11, 12, 13, 14, 15],
   [14, 10, 4, 8, 9, 15, 13, 6, 1, 12, 0, 2, 11, 7, 5, 3],
   [11, 8, 12, 0, 5, 2, 15, 13, 10, 14, 3, 6, 7, 1, 9, 4],
   [7, 9, 3, 1, 13, 12, 11, 14, 2, 6, 5, 10, 4, 0, 15, 8],
   [9, 0, 5, 7, 2, 4, 10, 15, 14, 1, 11, 12, 6, 8, 3, 13],
   [2, 12, 6, 10, 0, 11, 8, 3, 4, 13, 7, 5, 15, 14, 1, 9],
   [12, 5, 1, 15, 14, 13, 4, 10, 0, 7, 6, 3, 9, 2, 8, 11],
   [13, 11, 7, 14, 12, 1, 3, 9, 5, 0, 15, 4, 8, 6, 2, 10],
   [6, 15, 14, 9, 11, 3, 0, 8, 12, 2, 13, 7, 1, 4, 10, 5],
   [10, 2, 8, 4, 7, 6, 1, 5, 15, 11, 9, 14, 3, 12, 13, 0]]

/-- The mixing function, one assignment after the other. -/
def G (v : Fin 16 → Word) (a b c d : Fin 16) (x y : Word) : Fin 16 → Word :=
  let v := Function.update v a (v a + v b + x)
  let v := Function.update v d ((v d ^^^ v a).rotateRight 32)
  let v := Function.update v c (v c + v d)
  let v := Function.update v b ((v b ^^^ v c).rotateRight 24)
  let v := Function.update v a (v a + v b + y)
  let v := Function.update v d ((v d ^^^ v a).rotateRight 16)
  let v := Function.update v c (v c + v d)
  Function.update v b ((v b ^^^ v c).rotateRight 63)

/-- A round with one row of the table. -/
def round (m v : Fin 16 → Word) (s : List (Fin 16)) : Fin 16 → Word :=
  let word := fun j => m (s.getD j 0)
  let v := G v 0 4 8 12 (word 0) (word 1)
  let v := G v 1 5 9 13 (word 2) (word 3)
  let v := G v 2 6 10 14 (word 4) (word 5)
  let v := G v 3 7 11 15 (word 6) (word 7)
  let v := G v 0 5 10 15 (word 8) (word 9)
  let v := G v 1 6 11 12 (word 10) (word 11)
  let v := G v 2 7 8 13 (word 12) (word 13)
  G v 3 4 9 14 (word 14) (word 15)

/-- The array before the rounds, with the number of bytes up to the end of the block. -/
def start (h : Fin 8 → Word) (t : Nat) (last : Bool) : Fin 16 → Word :=
  let v : Fin 16 → Word := Fin.append h IV
  let v := Function.update v 12 (v 12 ^^^ BitVec.ofNat 64 t)
  let v := Function.update v 13 (v 13 ^^^ BitVec.ofNat 64 (t / 2 ^ 64))
  if last then Function.update v 14 (v 14 ^^^ BitVec.allOnes 64) else v

/-- The compression function. -/
def F (h : Fin 8 → Word) (m : Fin 16 → Word) (t : Nat) (last : Bool) : Fin 8 → Word :=
  let v := (List.range 12).foldl (fun v i => round m v (SIGMA.getD (i % 10) [])) (start h t last)
  fun i => h i ^^^ v (Fin.castAdd 8 i) ^^^ v (Fin.natAdd 8 i)

/-- The words of a block; after the end of the message there are zeros. -/
def words (data : Bytes) (block : Nat) (i : Fin 16) : Word :=
  BitVec.ofNat 64 (LittleEndian.decode
    ((List.range 8).map fun byte => data.getD (128 * block + 8 * i + byte) 0))

/-- The state after some full blocks, for a digest of this length. -/
def chain (outlen : Nat) (data : Bytes) (blocks : Nat) : Fin 8 → Word :=
  (List.range blocks).foldl (fun h i => F h (words data i) ((i + 1) * 128) false)
    (Function.update IV ⟨0, by decide⟩
      (IV ⟨0, by decide⟩ ^^^ 0x01010000 ^^^ BitVec.ofNat 64 outlen))

/-- The digest without a key. A message has one block at least. -/
def blake2b (data : Bytes) (outlen : Nat) : Bytes :=
  let blocks := max 1 ((data.length + 127) / 128)
  let h := F (chain outlen data (blocks - 1)) (words data (blocks - 1)) data.length true
  ((List.finRange 8).flatMap fun i => LittleEndian.encode 8 (h i).toNat).take outlen

end Standard

variable {ctx : Context} {data : Bytes} {t outlen blocks : Nat} {last : Bool}

/-! ## Words -/

/-- The words of a list as an array. -/
def vec {n : Nat} (words : List UInt64) (i : Fin n) : Word := (words.getD i 0).toBitVec

theorem vec_set {n : Nat} {words : List UInt64} (length : words.length = n) (a : Fin n)
    (x : UInt64) : (vec (words.set a x) : Fin n → Word) = Function.update (vec words) a x.toBitVec := by
  funext i
  by_cases same : i = a
  · subst same
    simp [vec, length]
  · have other : (a : Nat) ≠ i := fun equal => same (Fin.ext equal.symm)
    simp [vec, Function.update_of_ne same, List.getD_eq_getElem?_getD, List.getElem?_set_ne other]

/-- The square roots with 64 bits after the point, by the words of the code. -/
def root (i : Fin 8) : Nat := 2 ^ 64 * [1, 1, 2, 2, 3, 3, 4, 4].get i + (IV.getD i 0).toNat

theorem root_bounds : ∀ i : Fin 8, root i * root i ≤ [2, 3, 5, 7, 11, 13, 17, 19].get i * 2 ^ 128 ∧
    [2, 3, 5, 7, 11, 13, 17, 19].get i * 2 ^ 128 < (root i + 1) * (root i + 1) := by
  decide

/-- The constants of the code are those of the standard. -/
theorem vec_IV : (vec IV : Fin 8 → Word) = Standard.IV := by
  funext i
  rw [Standard.IV, ← Nat.eq_sqrt.mpr (root_bounds i), root]
  apply BitVec.eq_of_toNat_eq
  rw [BitVec.toNat_ofNat, Nat.mul_add_mod]
  exact (Nat.mod_eq_of_lt (UInt64.toNat_lt _)).symm

theorem toBitVec_rotr64 (w : UInt64) :
    (rotr64 w 32).toBitVec = w.toBitVec.rotateRight 32 ∧
    (rotr64 w 24).toBitVec = w.toBitVec.rotateRight 24 ∧
    (rotr64 w 16).toBitVec = w.toBitVec.rotateRight 16 ∧
    (rotr64 w 63).toBitVec = w.toBitVec.rotateRight 63 :=
  ⟨rfl, rfl, rfl, rfl⟩

/-! ## Compression -/

/-- A list holds the sixteen words of an array. -/
structure Holds (v : List UInt64) (w : Fin 16 → Word) : Prop where
  length : v.length = 16
  words : vec v = w

/-- A mixing step on four different places. -/
theorem Holds.G {v : List UInt64} {w : Fin 16 → Word} (holds : Holds v w) (a b c d : Fin 16)
    (x y : UInt64) (apart : [a, b, c, d].Nodup := by decide) :
    Holds (G v a b c d x y) (Standard.G w a b c d x.toBitVec y.toBitVec) := by
  obtain ⟨length, rfl⟩ := holds
  have ab : a ≠ b := by rintro rfl; simp at apart
  have ac : a ≠ c := by rintro rfl; simp at apart
  have ad : a ≠ d := by rintro rfl; simp at apart
  have bc : b ≠ c := by rintro rfl; simp at apart
  have bd : b ≠ d := by rintro rfl; simp at apart
  have cd : c ≠ d := by rintro rfl; simp at apart
  have at_ : ∀ i : Fin 16, (v.getD i 0).toBitVec = vec v i := fun _ => rfl
  refine ⟨by simp [Blake2b.G, length], ?_⟩
  rw [Blake2b.G, vec_set (by simp [length]), vec_set (by simp [length]),
    vec_set (by simp [length]), vec_set length]
  simp only [UInt64.toBitVec_add, UInt64.toBitVec_xor, toBitVec_rotr64, at_]
  funext i
  simp only [Standard.G, Function.update_apply]
  -- an assignment is read by what follows until its place is assigned again
  obtain rfl | rfl | rfl | rfl | ⟨ia, ib, ic, id_⟩ :
      i = a ∨ i = b ∨ i = c ∨ i = d ∨ (i ≠ a ∧ i ≠ b ∧ i ≠ c ∧ i ≠ d) := by tauto
  all_goals simp [*, ab.symm, ac.symm, ad.symm, bc.symm, bd.symm, cd.symm]

theorem Holds.round {v : List UInt64} {w : Fin 16 → Word} (holds : Holds v w) (m : List UInt64)
    (s : List (Fin 16)) :
    Holds (round m v (s.map Fin.val)) (Standard.round (vec m) w s) := by
  have word : ∀ j, (m.getD ((s.map Fin.val).getD j 0) 0).toBitVec = vec m (s.getD j 0) := by
    intro j
    rw [vec]
    congr 2
    exact List.getD_map s 0 Fin.val
  simp only [Blake2b.round, Standard.round, ← word]
  refine .G ?_ 3 4 9 14 _ _
  refine .G ?_ 2 7 8 13 _ _
  refine .G ?_ 1 6 11 12 _ _
  refine .G ?_ 0 5 10 15 _ _
  refine .G ?_ 3 7 11 15 _ _
  refine .G ?_ 2 6 10 14 _ _
  refine .G ?_ 1 5 9 13 _ _
  exact holds.G 0 4 8 12 _ _

/-- The table of the code has the first two rows of the standard twice. -/
theorem SIGMA_eq : SIGMA =
    (List.range 12).map fun i => (Standard.SIGMA.getD (i % 10) []).map Fin.val := by
  decide

theorem Holds.rounds {v : List UInt64} {w : Fin 16 → Word} (holds : Holds v w) (m : List UInt64) :
    Holds (SIGMA.foldl (Blake2b.round m) v) ((List.range 12).foldl
      (fun w i => Standard.round (vec m) w (Standard.SIGMA.getD (i % 10) [])) w) := by
  rw [SIGMA_eq, List.foldl_map]
  generalize List.range 12 = rounds
  induction rounds generalizing v w with
  | nil => exact holds
  | cons i rest ih =>
    rw [List.foldl_cons, List.foldl_cons]
    exact ih (holds.round m (Standard.SIGMA.getD (i % 10) []))

theorem Holds.set {v : List UInt64} {w : Fin 16 → Word} (holds : Holds v w) (i : Fin 16)
    (x : UInt64) : Holds (v.set i (v.getD i 0 ^^^ x)) (Function.update w i (w i ^^^ x.toBitVec)) where
  length := by rw [List.length_set, holds.length]
  words := by
    rw [vec_set holds.length, UInt64.toBitVec_xor, holds.words]
    exact congrArg (fun word => Function.update w i (word ^^^ x.toBitVec)) (congrFun holds.words i)

theorem holds_append {h : List UInt64} (length : h.length = 8) :
    Holds (h ++ IV) (Fin.append (vec h) Standard.IV) where
  length := by rw [List.length_append, length]; rfl
  words := by
    rw [← vec_IV]
    funext i
    refine Fin.addCases (m := 8) (n := 8) (fun low => ?_) (fun high => ?_) i
    · rw [Fin.append_left, vec, vec, Fin.val_castAdd, List.getD_append _ _ _ _ (by omega)]
    · rw [Fin.append_right, vec, vec, Fin.val_natAdd, List.getD_append_right _ _ _ _ (by omega)]
      congr 2
      omega

/-- The two words of the count and the flag of the last block. -/
structure Counts (ctx : Context) (t : Nat) (last : Bool) : Prop where
  t0 : ctx.t0 = .ofNat t
  t1 : ctx.t1 = .ofNat (t / 2 ^ 64)
  f0 : ctx.f0 = if last then 0xFFFFFFFFFFFFFFFF else 0
  f1 : ctx.f1 = 0

theorem Counts.holds_start (counts : Counts ctx t last)
    {v : List UInt64} (holds : Holds v (Fin.append (vec ctx.h) Standard.IV)) :
    let v := v.set 12 (v.getD 12 0 ^^^ ctx.t0)
    let v := v.set 13 (v.getD 13 0 ^^^ ctx.t1)
    let v := v.set 14 (v.getD 14 0 ^^^ ctx.f0)
    let v := v.set 15 (v.getD 15 0 ^^^ ctx.f1)
    Holds v (Standard.start (vec ctx.h) t last) := by
  obtain ⟨t0, t1, f0, f1⟩ := counts
  have flagged := (((holds.set 12 ctx.t0).set 13 ctx.t1).set 14 ctx.f0).set 15 ctx.f1
  refine ⟨flagged.length, flagged.words.trans ?_⟩
  -- the second flag is never set, and the first one only for the last block
  rw [t0, t1, f0, f1, Standard.start, UInt64.toBitVec_zero, BitVec.xor_zero,
    Function.update_eq_self]
  cases last with
  | false =>
    rw [if_neg Bool.false_ne_true, if_neg Bool.false_ne_true, UInt64.toBitVec_zero,
      BitVec.xor_zero, Function.update_eq_self]
    rfl
  | true => rfl

/-- A compression is that of the standard. -/
theorem compress_h {block : Bytes} {m : Fin 16 → Word}
    (length : ctx.h.length = 8) (counts : Counts ctx t last)
    (message : ∀ i : Fin 16, (load64 (block.drop (i * 8))).toBitVec = m i) :
    vec (compress ctx block).h = Standard.F (vec ctx.h) m t last := by
  have loaded : (vec ((List.range 16).map fun i => load64 (block.drop (i * 8))) : Fin 16 → Word) =
      m := by
    funext i
    rw [← message i, vec, List.getD_eq_getElem _ _ (by simp), List.getElem_map, List.getElem_range]
  have mixed := ((counts.holds_start (holds_append length)).rounds
    ((List.range 16).map fun i => load64 (block.drop (i * 8)))).words
  rw [loaded] at mixed
  funext i
  have low := congrFun mixed (Fin.castAdd 8 i)
  have high := congrFun mixed (Fin.natAdd 8 i)
  rw [vec, Fin.val_castAdd] at low
  rw [vec, Fin.val_natAdd] at high
  rw [Standard.F, vec, compress, List.getD_eq_getElem _ _ (by simp)]
  simp only [List.getElem_map, List.getElem_range, UInt64.toBitVec_xor]
  rw [← low, ← high, BitVec.xor_assoc, Nat.add_comm]
  rfl

/-! ## Blocks -/

theorem load64_words {block data : Bytes} {number : Nat} (long : 128 ≤ block.length)
    (same : ∀ k < 128, block.getD k 0 = data.getD (128 * number + k) 0) (i : Fin 16) :
    (load64 (block.drop (i * 8))).toBitVec = Standard.words data number i := by
  have bytes : (block.drop (i * 8)).take 8 =
      (List.range 8).map fun byte => data.getD (128 * number + 8 * i + byte) 0 := by
    apply List.ext_getElem
    · simp only [List.length_take, List.length_drop, List.length_map, List.length_range]
      omega
    · intro k short _
      simp only [List.length_take, List.length_drop] at short
      have inside := same (i * 8 + k) (by omega)
      rw [List.getD_eq_getElem _ _ (by omega)] at inside
      simp only [List.getElem_take, List.getElem_drop, List.getElem_map, List.getElem_range]
      rw [inside, Nat.mul_comm 8, Nat.add_assoc]
  rw [load64, bytes]
  rfl

/-- The count goes on in the second word when the first one is used up. -/
theorem Counts.addCount {t k : Nat} (counts : Counts ctx t last)
    (small : k < 2 ^ 64) : Counts (ctx.addCount (.ofNat k)) (t + k) last := by
  obtain ⟨t0, t1, f0, f1⟩ := counts
  refine ⟨?_, ?_, f0, f1⟩
  · rw [Context.addCount, t0, ← UInt64.ofNat_add]
  · have carry : UInt64.ofNat (t + k) < UInt64.ofNat k ↔ 2 ^ 64 ≤ t % 2 ^ 64 + k := by
      rw [UInt64.lt_iff_toNat_lt, UInt64.toNat_ofNat', UInt64.toNat_ofNat', Nat.mod_eq_of_lt small]
      omega
    rw [Context.addCount, t0, t1, ← UInt64.ofNat_add]
    by_cases wraps : 2 ^ 64 ≤ t % 2 ^ 64 + k
    · have next : (t + k) / 2 ^ 64 = t / 2 ^ 64 + 1 := by omega
      rw [next]
      exact (if_pos (carry.mpr wraps)).trans (UInt64.ofNat_add ..).symm
    · have same : (t + k) / 2 ^ 64 = t / 2 ^ 64 := by omega
      rw [same]
      exact if_neg (mt carry.mp wraps)

theorem Counts.compress (counts : Counts ctx t last)
    (block : Bytes) : Counts (compress ctx block) t last :=
  ⟨counts.t0, counts.t1, counts.f0, counts.f1⟩

/-- The state after some full blocks. -/
structure Chained (ctx : Context) (outlen : Nat) (data : Bytes) (blocks : Nat) : Prop where
  length : ctx.h.length = 8
  state : vec ctx.h = Standard.chain outlen data blocks
  counts : Counts ctx (128 * blocks) false
  outlen_eq : ctx.outlen = outlen

theorem chain_succ (outlen : Nat) (data : Bytes) (blocks : Nat) :
    Standard.chain outlen data (blocks + 1) = Standard.F (Standard.chain outlen data blocks)
      (Standard.words data blocks) ((blocks + 1) * 128) false := by
  rw [Standard.chain, List.range_succ, List.foldl_append]
  rfl

theorem length_compress_h (ctx : Context) (block : Bytes) : (compress ctx block).h.length = 8 := by
  rw [compress, List.length_map, List.length_range]

theorem Chained.next {data block : Bytes}
    (chained : Chained ctx outlen data blocks) (long : 128 ≤ block.length)
    (same : ∀ k < 128, block.getD k 0 = data.getD (128 * blocks + k) 0) :
    Chained (compress (ctx.addCount (.ofNat BLAKE2B_BLOCKBYTES)) block) outlen data
      (blocks + 1) := by
  have counted : Counts (ctx.addCount (.ofNat BLAKE2B_BLOCKBYTES)) (128 * (blocks + 1)) false :=
    chained.counts.addCount (k := 128) (by decide)
  have length : (ctx.addCount (.ofNat BLAKE2B_BLOCKBYTES)).h.length = 8 := chained.length
  refine ⟨length_compress_h _ block, ?_, counted.compress block, chained.outlen_eq⟩
  rw [compress_h length counted (load64_words long same), chain_succ, ← chained.state, Nat.mul_comm]
  rfl

/-- Only the blocks before the state are looked at. -/
theorem chain_append (outlen : Nat) {data : Bytes} (more : Bytes) {blocks : Nat}
    (inside : 128 * blocks ≤ data.length) :
    Standard.chain outlen (data ++ more) blocks = Standard.chain outlen data blocks := by
  induction blocks with
  | zero => rw [Standard.chain, Standard.chain, List.range_zero, List.foldl_nil, List.foldl_nil]
  | succ blocks ih =>
    have words : Standard.words (data ++ more) blocks = Standard.words data blocks := by
      funext i
      rw [Standard.words, Standard.words]
      congr 2
      refine List.map_congr_left fun byte member => ?_
      have := List.mem_range.mp member
      exact List.getD_append _ _ _ _ (by omega)
    rw [chain_succ, chain_succ, ih (by omega), words]

/-! ## Updates -/

/-- How many blocks are compressed: the last one waits for the end. -/
def compressed (data : Bytes) : Nat := (data.length - 1) / 128

/-- The context after these bytes. -/
structure Absorbed (ctx : Context) (outlen : Nat) (data : Bytes) : Prop where
  chained : Chained ctx outlen data (compressed data)
  buf : ctx.buf = data.drop (128 * compressed data)

theorem absorbed_init (outlen : Nat) : Absorbed (init outlen) outlen [] where
  chained := by
    refine ⟨rfl, ?_, ⟨rfl, rfl, rfl, rfl⟩, rfl⟩
    have eight : IV.length = 8 := rfl
    have first : (init outlen).h =
      IV.set (0 : Fin 8) (IV.getD 0 0 ^^^ (0x01010000 ^^^ .ofNat outlen)) := rfl
    rw [first, vec_set eight, vec_IV, Standard.chain, compressed, List.length_nil, List.range_zero,
      List.foldl_nil, UInt64.toBitVec_xor, UInt64.toBitVec_xor, ← BitVec.xor_assoc]
    exact congrArg (fun word => Function.update Standard.IV 0 (word ^^^ _ ^^^ _)) (congrFun vec_IV 0)
  buf := rfl

/-- The loop over the blocks of an input. -/
theorem Chained.compressBlocks {outlen : Nat} {data : Bytes} : ∀ {ctx : Context} {blocks : Nat},
    Chained ctx outlen data blocks → 128 * blocks < data.length →
    Chained (compressBlocks ctx (data.drop (128 * blocks))).1 outlen data (compressed data) ∧
      (Blake2b.compressBlocks ctx (data.drop (128 * blocks))).2 =
        data.drop (128 * compressed data) := by
  intro ctx blocks chained inside
  rw [Blake2b.compressBlocks]
  split
  · rename_i more
    rw [List.length_drop, BLAKE2B_BLOCKBYTES] at more
    rw [List.drop_drop]
    refine Chained.compressBlocks (chained.next ?_ fun k _ => ?_) ?_
    · rw [List.length_drop]
      omega
    · simp [List.getD_eq_getElem?_getD]
    · omega
  · rename_i last
    rw [List.length_drop, BLAKE2B_BLOCKBYTES] at last
    have all : compressed data = blocks := by
      rw [compressed]
      omega
    rw [all]
    exact ⟨chained, rfl⟩
termination_by _ blocks => data.length - 128 * blocks
decreasing_by omega

theorem Chained.setBuf (chained : Chained ctx outlen data blocks) (buf : Bytes) :
    Chained { ctx with buf } outlen data blocks :=
  ⟨chained.length, chained.state, ⟨chained.counts.t0, chained.counts.t1, chained.counts.f0,
    chained.counts.f1⟩, chained.outlen_eq⟩

theorem Chained.append
    (chained : Chained ctx outlen data blocks) (inside : 128 * blocks ≤ data.length)
    (more : Bytes) : Chained ctx outlen (data ++ more) blocks :=
  ⟨chained.length, chained.state.trans (chain_append outlen more inside).symm, chained.counts,
    chained.outlen_eq⟩

theorem compressed_le (data : Bytes) : 128 * compressed data ≤ data.length := by
  rw [compressed]
  omega

/-- An input is added to what the context has taken in. -/
theorem absorbed_update (absorbed : Absorbed ctx outlen data) (input : Bytes) :
    Absorbed (update ctx input) outlen (data ++ input) := by
  have inside := compressed_le data
  have held : ctx.buf.length = data.length - 128 * compressed data := by
    rw [absorbed.buf, List.length_drop]
  have short : ctx.buf.length ≤ 128 := by
    rw [held, compressed]
    omega
  have left : (data ++ input).drop (128 * compressed data) = ctx.buf ++ input := by
    rw [List.drop_append_of_le_length inside, absorbed.buf]
  have chained := absorbed.chained.append inside input
  rw [update]
  split
  · rename_i empty
    rw [List.length_eq_zero_iff.mp empty, List.append_nil]
    exact absorbed
  · dsimp only
    split
    · rename_i more
      rw [BLAKE2B_BLOCKBYTES] at more ⊢
      -- the buffer is filled up and compressed, then the blocks of the rest
      have full : ctx.buf ++ input.take (128 - ctx.buf.length) =
          ((data ++ input).drop (128 * compressed data)).take 128 := by
        rw [left, List.take_append, List.take_of_length_le short]
      have rest : input.drop (128 - ctx.buf.length) =
          (data ++ input).drop (128 * (compressed data + 1)) := by
        rw [Nat.mul_add, ← List.drop_drop, left, List.drop_append, List.drop_of_length_le short,
          List.nil_append]
      have long : 128 ≤ (ctx.buf ++ input.take (128 - ctx.buf.length)).length := by
        rw [List.length_append, List.length_take]
        omega
      have same : ∀ k < 128, (ctx.buf ++ input.take (128 - ctx.buf.length)).getD k 0 =
          (data ++ input).getD (128 * compressed data + k) 0 := by
        intro k below
        rw [full, List.getD_eq_getElem?_getD, List.getD_eq_getElem?_getD,
          List.getElem?_take_of_lt below, List.getElem?_drop]
      rw [rest]
      have done := ((chained.setBuf []).next long same).compressBlocks
        (by rw [List.length_append]; omega)
      exact ⟨done.1.setBuf _, done.2⟩
    · rename_i some_input fits
      rw [BLAKE2B_BLOCKBYTES] at fits
      have same : compressed (data ++ input) = compressed data := by
        simp only [compressed, List.length_append] at held inside ⊢
        omega
      refine ⟨?_, ?_⟩
      · rw [same]
        exact chained.setBuf _
      · rw [same, left]

/-! ## Digests -/

theorem encode_eq_map : ∀ w n : Nat, LittleEndian.encode w n =
    (List.range w).map fun byte => UInt8.ofNat (n / 256 ^ byte % 256)
  | 0, _ => rfl
  | w + 1, n => by
      rw [LittleEndian.encode, encode_eq_map w, List.range_succ_eq_map, List.map_cons, List.map_map,
        Nat.pow_zero, Nat.div_one]
      congr 1
      refine List.map_congr_left fun byte _ => ?_
      rw [Function.comp, Nat.pow_succ', Nat.div_div_eq_div_mul]

theorem toUInt8_shiftRight (w : UInt64) {byte : Nat} (small : byte < 8) :
    (w >>> UInt64.ofNat (8 * byte)).toUInt8 = UInt8.ofNat (w.toNat / 256 ^ byte % 256) := by
  have shift : (UInt64.ofNat (8 * byte)).toNat % 64 = 8 * byte := by
    rw [UInt64.toNat_ofNat']
    omega
  apply UInt8.toNat_inj.mp
  rw [UInt64.toNat_toUInt8, UInt64.toNat_shiftRight, shift, Nat.shiftRight_eq_div_pow, Nat.pow_mul,
    UInt8.toNat_ofNat', Nat.mod_mod]

/-- The bytes of the state, cut off at the length of the digest. -/
theorem digest_eq (h : List UInt64) (short : outlen ≤ 64) :
    (List.range outlen).map (fun i => (h.getD (i / 8) 0 >>> UInt64.ofNat (8 * (i % 8))).toUInt8) =
      ((List.finRange 8).flatMap fun i =>
        LittleEndian.encode 8 (vec h i : Word).toNat).take outlen := by
  have places : List.range 64 = (List.finRange 8).flatMap fun i : Fin 8 =>
      (List.range 8).map fun byte => 8 * (i : Nat) + byte := by decide
  have cut : List.range outlen = (List.range 64).take outlen := by
    rw [List.take_range, Nat.min_eq_left short]
  rw [cut, List.map_take, places, List.map_flatMap]
  congr 1
  refine List.flatMap_congr fun i _ => ?_
  rw [encode_eq_map, List.map_map]
  refine List.map_congr_left fun byte member => ?_
  have small := List.mem_range.mp member
  have word : (8 * (i : Nat) + byte) / 8 = i := by omega
  have place : (8 * (i : Nat) + byte) % 8 = byte := by omega
  rw [Function.comp, word, place, toUInt8_shiftRight _ small]
  rfl

theorem final_of_absorbed (absorbed : Absorbed ctx outlen data) (short : outlen ≤ 64) :
    final ctx = Standard.blake2b data outlen := by
  have inside := compressed_le data
  have held : ctx.buf.length = data.length - 128 * compressed data := by
    rw [absorbed.buf, List.length_drop]
  have fits : ctx.buf.length ≤ 128 := by
    rw [held, compressed]
    omega
  have last : max 1 ((data.length + 127) / 128) - 1 = compressed data := by
    rw [compressed]
    omega
  have counted := absorbed.chained.counts.addCount (Nat.lt_of_le_of_lt fits (by decide))
  have all : 128 * compressed data + ctx.buf.length = data.length := by omega
  rw [all] at counted
  have marked : Counts { ctx.addCount (.ofNat ctx.buf.length) with f0 := 0xFFFFFFFFFFFFFFFF }
      data.length true := ⟨counted.t0, counted.t1, rfl, counted.f1⟩
  have long : 128 ≤ (ctx.buf ++ List.replicate (128 - ctx.buf.length) 0).length := by
    rw [List.length_append, List.length_replicate]
    omega
  have same : ∀ k < 128, (ctx.buf ++ List.replicate (128 - ctx.buf.length) 0).getD k 0 =
      data.getD (128 * compressed data + k) 0 := by
    intro k _
    rw [List.getD_eq_getElem?_getD, List.getD_eq_getElem?_getD]
    by_cases inside : k < ctx.buf.length
    · rw [List.getElem?_append_left inside, absorbed.buf, List.getElem?_drop]
    · rw [List.getElem?_append_right (Nat.not_lt.mp inside), List.getElem?_replicate,
        List.getElem?_eq_none (by omega)]
      split <;> rfl
  have length : ({ ctx.addCount (.ofNat ctx.buf.length) with f0 := 0xFFFFFFFFFFFFFFFF } :
      Context).h.length = 8 := absorbed.chained.length
  have state := compress_h length marked (load64_words long same)
  have digest : final ctx = (List.range ctx.outlen).map fun i =>
      ((compress { ctx.addCount (.ofNat ctx.buf.length) with f0 := 0xFFFFFFFFFFFFFFFF }
        (ctx.buf ++ List.replicate (128 - ctx.buf.length) 0)).h.getD (i / 8) 0 >>>
          UInt64.ofNat (8 * (i % 8))).toUInt8 := rfl
  have before : vec ({ ctx.addCount (.ofNat ctx.buf.length) with f0 := 0xFFFFFFFFFFFFFFFF } :
      Context).h = Standard.chain outlen data (compressed data) := absorbed.chained.state
  rw [digest, absorbed.chained.outlen_eq, digest_eq _ short, Standard.blake2b, last, state, before]

/-- Any split of a message into inputs, empty ones among them, gives the digest of the standard for
the whole message, and so does `hash`. -/
theorem digest_of_updates (inputs : List Bytes) (n : Fin 64) :
    final (inputs.foldl update (init (n + 1))) = Standard.blake2b inputs.flatten (n + 1) ∧
      hash inputs.flatten (n + 1) = Standard.blake2b inputs.flatten (n + 1) := by
  have short : (n : Nat) + 1 ≤ 64 := n.isLt
  have all : ∀ (inputs : List Bytes) (ctx : Context) (data : Bytes), Absorbed ctx (n + 1) data →
      Absorbed (inputs.foldl update ctx) (n + 1) (data ++ inputs.flatten) := by
    intro inputs
    induction inputs with
    | nil =>
      intro ctx data absorbed
      rwa [List.flatten_nil, List.append_nil]
    | cons input rest ih =>
      intro ctx data absorbed
      rw [List.foldl_cons, List.flatten_cons, ← List.append_assoc]
      exact ih _ _ (absorbed_update absorbed input)
  refine ⟨?_, ?_⟩
  · exact final_of_absorbed (all inputs _ [] (absorbed_init _)) short
  · exact final_of_absorbed (absorbed_update (absorbed_init _) inputs.flatten) short

end QinDB.Auth.Blake2b
