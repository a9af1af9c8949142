/-
# Auth.PackedMixing — the mixing of four words on a packed state

The compression function of Blake2b and the permutation of Argon2id mix four words of a state
at a time. On a state that is packed into one number this is arithmetic, so that a digest
and a permuted block can be evaluated.

* `Packs.quarter`: the mixing keeps a packed state packed.
-/
import QinDB.Auth.Blake2b
import QinDB.Base.Packed

namespace QinDB.Auth.Blake2b

open QinDB.Base.Packed

set_option autoImplicit false

def rotate (w c : Nat) : Nat := w >>> c ||| (w <<< (64 - c)) % 2 ^ 64

/-- The mixing of the words at the given places, with two words of a message. -/
def quarter (v a b c d x y : Nat) : Nat :=
  let va := (word v a + word v b + x) % 2 ^ 64
  let vd := rotate (word v d ^^^ va) 32
  let vc := (word v c + vd) % 2 ^ 64
  let vb := rotate (word v b ^^^ vc) 24
  let va := (va + vb + y) % 2 ^ 64
  let vd := rotate (vd ^^^ va) 16
  let vc := (vc + vd) % 2 ^ 64
  let vb := rotate (vb ^^^ vc) 63
  put (put (put (put v a va) b vb) c vc) d vd

/-- The same on words. -/
def quarterWords (w : Nat → UInt64) (a b c d : Nat) (x y : UInt64) : Nat → UInt64 :=
  let wa := w a + w b + x
  let wd := rotr64 (w d ^^^ wa) 32
  let wc := w c + wd
  let wb := rotr64 (w b ^^^ wc) 24
  let wa := wa + wb + y
  let wd := rotr64 (wd ^^^ wa) 16
  let wc := wc + wd
  let wb := rotr64 (wb ^^^ wc) 63
  Function.update (Function.update (Function.update (Function.update w a wa) b wb) c wc) d wd

theorem toNat_rotr64 (w c : UInt64) (some_bit : 0 < c.toNat) (inside : c.toNat < 64) :
    (rotr64 w c).toNat = rotate w.toNat c.toNat := by
  have rest : (64 - c).toNat = 64 - c.toNat :=
    UInt64.toNat_sub_of_le _ _ (UInt64.le_iff_toNat_le.mpr (Nat.le_of_lt inside))
  rw [rotr64, UInt64.toNat_or, UInt64.toNat_shiftRight, UInt64.toNat_shiftLeft, rest, rotate,
    Nat.mod_eq_of_lt inside, Nat.mod_eq_of_lt (by omega : 64 - c.toNat < 64)]

theorem Packs.quarter {v : Nat} {w : Nat → UInt64} (packs : Packs v w) (a b c d : Nat)
    (x y : UInt64) : Packs (quarter v a b c d x.toNat y.toNat) (quarterWords w a b c d x y) := by
  have add : ∀ w x : UInt64, (w.toNat + x.toNat) % 2 ^ 64 = (w + x).toNat := fun w x =>
    (UInt64.toNat_add w x).symm
  have add_add : ∀ w x y : UInt64, (w.toNat + x.toNat + y.toNat) % 2 ^ 64 = (w + x + y).toNat := by
    intro w x y
    rw [UInt64.toNat_add, UInt64.toNat_add, Nat.mod_add_mod]
  have by32 : ∀ w : UInt64, rotate w.toNat 32 = (rotr64 w 32).toNat := fun w =>
    (toNat_rotr64 w 32 (by decide) (by decide)).symm
  have by24 : ∀ w : UInt64, rotate w.toNat 24 = (rotr64 w 24).toNat := fun w =>
    (toNat_rotr64 w 24 (by decide) (by decide)).symm
  have by16 : ∀ w : UInt64, rotate w.toNat 16 = (rotr64 w 16).toNat := fun w =>
    (toNat_rotr64 w 16 (by decide) (by decide)).symm
  have by63 : ∀ w : UInt64, rotate w.toNat 63 = (rotr64 w 63).toNat := fun w =>
    (toNat_rotr64 w 63 (by decide) (by decide)).symm
  simp only [Blake2b.quarter, packs a, packs b, packs c, packs d, add_add, add, ← UInt64.toNat_xor,
    by32, by24, by16, by63]
  exact (((packs.put a _).put b _).put c _).put d _

end QinDB.Auth.Blake2b
