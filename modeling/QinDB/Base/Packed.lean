/-
# Base.Packed — words packed into one number

A number holds 64-bit words one after the other, the first one in its lowest bits. Reading
and writing a word are a few operations on numbers, which evaluate much faster than those of
a list or a function.

* `word_put`: a word that is written is read back, and no other word changes.
* `Packs`: a number holds these words; `packs_pack`: those of a list.
-/
import Mathlib.Algebra.Group.Nat.Defs
import Mathlib.Logic.Function.Basic

namespace QinDB.Base.Packed

set_option autoImplicit false

def word (v i : Nat) : Nat := (v >>> (64 * i)) % 2 ^ 64

def put (v i x : Nat) : Nat := v ^^^ ((word v i ^^^ x) <<< (64 * i))

theorem testBit_word (v i k : Nat) :
    (word v i).testBit k = (decide (k < 64) && v.testBit (64 * i + k)) := by
  rw [word, Nat.testBit_mod_two_pow, Nat.testBit_shiftRight]

theorem word_put {x : Nat} (small : x < 2 ^ 64) (v i j : Nat) :
    word (put v i x) j = if j = i then x else word v j := by
  have high : ∀ k, 64 ≤ k → x.testBit k = false := fun k above =>
    Nat.testBit_lt_two_pow (Nat.lt_of_lt_of_le small (Nat.pow_le_pow_right Nat.two_pos above))
  apply Nat.eq_of_testBit_eq
  intro k
  rw [testBit_word, put, Nat.testBit_xor, Nat.testBit_shiftLeft, Nat.testBit_xor, testBit_word]
  rcases Nat.lt_or_ge k 64 with bit | above
  · rcases Nat.lt_trichotomy j i with before | rfl | after
    · have lower : ¬ 64 * i ≤ 64 * j + k := by omega
      simp [testBit_word, bit, lower, Nat.ne_of_lt before]
    · simp [bit]
    · have upper : ¬ 64 * j + k - 64 * i < 64 := by omega
      simp [testBit_word, bit, upper, Nat.ne_of_gt after, high _ (Nat.le_of_not_lt upper)]
  · have none : ¬ k < 64 := by omega
    split
    · simp [none, high k above]
    · simp [testBit_word, none]

/-- The number holds these words. -/
def Packs (v : Nat) (words : Nat → UInt64) : Prop := ∀ i, word v i = (words i).toNat

variable {v : Nat} {words : Nat → UInt64}

theorem Packs.put (packs : Packs v words) (i : Nat) (x : UInt64) :
    Packs (put v i x.toNat) (Function.update words i x) := by
  intro j
  rw [word_put x.toNat_lt, Function.update_apply]
  split
  · rfl
  · exact packs j

/-- The words of a list, and zeros behind it. -/
def pack (words : List UInt64) : Nat := words.foldr (fun x rest => rest * 2 ^ 64 + x.toNat) 0

theorem packs_pack (words : List UInt64) : Packs (pack words) (words.getD · 0) := by
  intro i
  induction words generalizing i with
  | nil => simp [pack, word]
  | cons x rest ih =>
    have small := x.toNat_lt
    cases i with
    | zero =>
      show (pack rest * 2 ^ 64 + x.toNat) >>> 0 % 2 ^ 64 = x.toNat
      rw [Nat.shiftRight_zero]
      omega
    | succ i =>
      have below : (pack rest * 2 ^ 64 + x.toNat) / 2 ^ 64 = pack rest := by omega
      show word (pack rest * 2 ^ 64 + x.toNat) (i + 1) = (rest.getD i 0).toNat
      rw [← ih, word, word, Nat.mul_succ, Nat.add_comm (64 * i), Nat.shiftRight_add,
        Nat.shiftRight_eq_div_pow _ 64, below]

end QinDB.Base.Packed
