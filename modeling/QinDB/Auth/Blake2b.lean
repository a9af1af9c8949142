/-
# Auth.Blake2b — the hash function under Argon2id

`Argon2id::Blake2b` and `blake2bLong` of `argon2id.cpp`: the compression function on
64-bit words, the buffered update, and digests of more than 64 bytes. The buffer of the
context is the list of the bytes it holds.

* `length_blake2bLong`: a digest has the length that is asked for.
-/
import QinDB.Base.LittleEndian
import QinDB.Core.Types

namespace QinDB.Auth.Blake2b

open QinDB.Base QinDB.Core

set_option autoImplicit false

def BLAKE2B_BLOCKBYTES : Nat := 128
def BLAKE2B_OUTBYTES : Nat := 64

def IV : List UInt64 :=
  [0x6a09e667f3bcc908, 0xbb67ae8584caa73b, 0x3c6ef372fe94f82b, 0xa54ff53a5f1d36f1,
   0x510e527fade682d1, 0x9b05688c2b3e6c1f, 0x1f83d9abfb41bd6b, 0x5be0cd19137e2179]

def SIGMA : List (List Nat) :=
  [[0, 1, 2, 3, 4, 5, 6, 7, 8, 9, 10, 11, 12, 13, 14, 15],
   [14, 10, 4, 8, 9, 15, 13, 6, 1, 12, 0, 2, 11, 7, 5, 3],
   [11, 8, 12, 0, 5, 2, 15, 13, 10, 14, 3, 6, 7, 1, 9, 4],
   [7, 9, 3, 1, 13, 12, 11, 14, 2, 6, 5, 10, 4, 0, 15, 8],
   [9, 0, 5, 7, 2, 4, 10, 15, 14, 1, 11, 12, 6, 8, 3, 13],
   [2, 12, 6, 10, 0, 11, 8, 3, 4, 13, 7, 5, 15, 14, 1, 9],
   [12, 5, 1, 15, 14, 13, 4, 10, 0, 7, 6, 3, 9, 2, 8, 11],
   [13, 11, 7, 14, 12, 1, 3, 9, 5, 0, 15, 4, 8, 6, 2, 10],
   [6, 15, 14, 9, 11, 3, 0, 8, 12, 2, 13, 7, 1, 4, 10, 5],
   [10, 2, 8, 4, 7, 6, 1, 5, 15, 11, 9, 14, 3, 12, 13, 0],
   [0, 1, 2, 3, 4, 5, 6, 7, 8, 9, 10, 11, 12, 13, 14, 15],
   [14, 10, 4, 8, 9, 15, 13, 6, 1, 12, 0, 2, 11, 7, 5, 3]]

/-! ## Words -/

def store32 (w : Nat) : Bytes := LittleEndian.encode 4 w

def load64 (src : Bytes) : UInt64 := .ofNat (LittleEndian.decode (src.take 8))

def rotr64 (w c : UInt64) : UInt64 := (w >>> c) ||| (w <<< (64 - c))

/-! ## Compression -/

/-- One mixing step on the four words at the given places. -/
def G (v : List UInt64) (a b c d : Nat) (x y : UInt64) : List UInt64 :=
  let va := v.getD a 0 + v.getD b 0 + x
  let vd := rotr64 (v.getD d 0 ^^^ va) 32
  let vc := v.getD c 0 + vd
  let vb := rotr64 (v.getD b 0 ^^^ vc) 24
  let va := va + vb + y
  let vd := rotr64 (vd ^^^ va) 16
  let vc := vc + vd
  let vb := rotr64 (vb ^^^ vc) 63
  (((v.set a va).set b vb).set c vc).set d vd

def round (m v : List UInt64) (sigma : List Nat) : List UInt64 :=
  let word := fun i => m.getD (sigma.getD i 0) 0
  let v := G v 0 4 8 12 (word 0) (word 1)
  let v := G v 1 5 9 13 (word 2) (word 3)
  let v := G v 2 6 10 14 (word 4) (word 5)
  let v := G v 3 7 11 15 (word 6) (word 7)
  let v := G v 0 5 10 15 (word 8) (word 9)
  let v := G v 1 6 11 12 (word 10) (word 11)
  let v := G v 2 7 8 13 (word 12) (word 13)
  G v 3 4 9 14 (word 14) (word 15)

structure Context where
  h : List UInt64
  t0 : UInt64
  t1 : UInt64
  f0 : UInt64
  f1 : UInt64
  buf : Bytes
  outlen : Nat
  deriving DecidableEq, Repr

def compress (ctx : Context) (block : Bytes) : Context :=
  let m := (List.range 16).map fun i => load64 (block.drop (i * 8))
  let v := ctx.h ++ IV
  let v := v.set 12 (v.getD 12 0 ^^^ ctx.t0)
  let v := v.set 13 (v.getD 13 0 ^^^ ctx.t1)
  let v := v.set 14 (v.getD 14 0 ^^^ ctx.f0)
  let v := v.set 15 (v.getD 15 0 ^^^ ctx.f1)
  let v := SIGMA.foldl (round m) v
  { ctx with
    h := (List.range 8).map fun i => ctx.h.getD i 0 ^^^ (v.getD i 0 ^^^ v.getD (i + 8) 0) }

/-! ## Hashing -/

/-- No caller of `hash` passes a key. -/
def init (outlen : Nat) : Context where
  h := IV.modify 0 fun word => word ^^^ (0x01010000 ^^^ .ofNat outlen)
  t0 := 0
  t1 := 0
  f0 := 0
  f1 := 0
  buf := []
  outlen := outlen

/-- Add to the two words that count the bytes. -/
def Context.addCount (ctx : Context) (n : UInt64) : Context :=
  { ctx with t0 := ctx.t0 + n, t1 := if ctx.t0 + n < n then ctx.t1 + 1 else ctx.t1 }

/-- Compress as long as more than one block is left. -/
def compressBlocks (ctx : Context) (input : Bytes) : Context × Bytes :=
  if input.length > BLAKE2B_BLOCKBYTES then
    compressBlocks (compress (ctx.addCount (.ofNat BLAKE2B_BLOCKBYTES)) input)
      (input.drop BLAKE2B_BLOCKBYTES)
  else (ctx, input)
termination_by input.length
decreasing_by
  rw [List.length_drop]
  unfold BLAKE2B_BLOCKBYTES at *
  omega

def update (ctx : Context) (input : Bytes) : Context :=
  if input.length = 0 then ctx
  else
    let fill := BLAKE2B_BLOCKBYTES - ctx.buf.length
    if input.length > fill then
      let full := ctx.buf ++ input.take fill
      let ctx := compress ({ ctx with buf := [] }.addCount (.ofNat BLAKE2B_BLOCKBYTES)) full
      let (ctx, rest) := compressBlocks ctx (input.drop fill)
      { ctx with buf := rest }
    else { ctx with buf := ctx.buf ++ input }

def final (ctx : Context) : Bytes :=
  let ctx := ctx.addCount (.ofNat ctx.buf.length)
  let ctx := { ctx with f0 := 0xFFFFFFFFFFFFFFFF }
  let padding := List.replicate (BLAKE2B_BLOCKBYTES - ctx.buf.length) 0
  let ctx := compress ctx (ctx.buf ++ padding)
  (List.range ctx.outlen).map fun i =>
    (ctx.h.getD (i / 8) 0 >>> .ofNat (8 * (i % 8))).toUInt8

def hash (data : Bytes) (outlen : Nat) : Bytes := final (update (init outlen) data)

/-! ## Long digests -/

/-- The loop of `blake2bLong`: half a digest at a time, and the rest from the last one. -/
def lengthen (result outBuffer : Bytes) (remaining : Nat) : Bytes :=
  if remaining > BLAKE2B_OUTBYTES then
    let outBuffer := hash outBuffer BLAKE2B_OUTBYTES
    lengthen (result ++ outBuffer.take (BLAKE2B_OUTBYTES / 2)) outBuffer
      (remaining - BLAKE2B_OUTBYTES / 2)
  else if remaining > 0 then result ++ hash outBuffer remaining
  else result
termination_by remaining
decreasing_by
  unfold BLAKE2B_OUTBYTES at *
  omega

def blake2bLong (input : Bytes) (outlen : Nat) : Bytes :=
  if outlen ≤ BLAKE2B_OUTBYTES then hash input outlen
  else
    let outBuffer := hash (store32 outlen ++ input) BLAKE2B_OUTBYTES
    lengthen (outBuffer.take (BLAKE2B_OUTBYTES / 2)) outBuffer (outlen - BLAKE2B_OUTBYTES / 2)

theorem length_hash (data : Bytes) (outlen : Nat) : (hash data outlen).length = outlen := by
  have kept : ∀ ctx input, (compressBlocks ctx input).1.outlen = ctx.outlen := by
    intro ctx input
    fun_induction compressBlocks ctx input with
    | case1 ctx input more ih => exact ih
    | case2 => rfl
  have updated : (update (init outlen) data).outlen = outlen := by
    unfold update
    split
    · rfl
    · dsimp only
      split
      · exact kept _ _
      · rfl
  rw [hash, final, List.length_map, List.length_range]
  exact updated

theorem length_lengthen (result outBuffer : Bytes) (remaining : Nat) :
    (lengthen result outBuffer remaining).length = result.length + remaining := by
  fun_induction lengthen result outBuffer remaining with
  | case1 result outBuffer remaining more next ih =>
    rw [ih, List.length_append, List.length_take, length_hash]
    unfold BLAKE2B_OUTBYTES at *
    omega
  | case2 => rw [List.length_append, length_hash]
  | case3 => omega

theorem length_blake2bLong (input : Bytes) (outlen : Nat) :
    (blake2bLong input outlen).length = outlen := by
  unfold blake2bLong
  split
  · exact length_hash input outlen
  · dsimp only
    rw [length_lengthen, List.length_take, length_hash]
    unfold BLAKE2B_OUTBYTES at *
    omega

end QinDB.Auth.Blake2b
