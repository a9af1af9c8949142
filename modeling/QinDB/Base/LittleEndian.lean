/-
# Base.LittleEndian — fixed-width little-endian integers

`encode w n` writes the low `w` bytes of a natural number, least significant
first, and `decode` reads them back. `signed w` reads `w` bytes as a two's
complement integer, so `signed_encodeInt` is the round trip of a machine integer
that fits in `w` bytes.
-/
import Mathlib.Tactic.Ring

namespace QinDB.Base.LittleEndian

set_option autoImplicit false

/-- The low `w` bytes of `n`, least significant first. -/
def encode : Nat → Nat → List UInt8
  | 0, _ => []
  | w + 1, n => UInt8.ofNat (n % 256) :: encode w (n / 256)

/-- The natural number with these little-endian bytes. -/
def decode : List UInt8 → Nat
  | [] => 0
  | b :: bs => b.toNat + 256 * decode bs

@[simp] theorem length_encode : ∀ w n, (encode w n).length = w
  | 0, _ => rfl
  | w + 1, n => by simp [encode, length_encode w]

theorem decode_encode : ∀ w n, decode (encode w n) = n % 256 ^ w
  | 0, n => by simp [encode, decode, Nat.mod_one]
  | w + 1, n => by
      have byte : n % 256 % 256 = n % 256 := Nat.mod_mod n 256
      simp only [encode, decode, decode_encode w, UInt8.toNat_ofNat', Nat.reducePow, byte]
      rw [Nat.pow_succ', Nat.mod_mul]

/-- The low bytes come first. -/
theorem encode_add : ∀ v w n, encode (v + w) n = encode v n ++ encode w (n / 256 ^ v)
  | 0, w, n => by rw [Nat.zero_add, Nat.pow_zero, Nat.div_one, encode, List.nil_append]
  | v + 1, w, n => by
      rw [Nat.add_right_comm, encode, encode, encode_add v w (n / 256), Nat.div_div_eq_div_mul,
        ← Nat.pow_succ', List.cons_append]

theorem decode_encode_of_lt (w : Nat) {n : Nat} (small : n < 256 ^ w) :
    decode (encode w n) = n := by
  rw [decode_encode, Nat.mod_eq_of_lt small]

theorem decode_lt : ∀ bytes : List UInt8, decode bytes < 256 ^ bytes.length
  | [] => by simp [decode]
  | b :: bs => by
      have byte : b.toNat < 256 := b.toNat_lt
      have rest := decode_lt bs
      simp only [decode, List.length_cons, Nat.pow_succ]
      omega

/-- Two's complement reading of `w` bytes. -/
def signed (w : Nat) (n : Nat) : Int :=
  if 2 * n < 256 ^ w then n else (n : Int) - 256 ^ w

/-- The bytes of an integer, taken modulo the width. -/
def encodeInt (w : Nat) (v : Int) : List UInt8 := encode w (v % 256 ^ w).toNat

@[simp] theorem length_encodeInt (w : Nat) (v : Int) : (encodeInt w v).length = w :=
  length_encode w _

/-- An integer that fits in `w` bytes is read back. -/
theorem signed_encodeInt {w : Nat} {v : Int} (low : -(256 ^ w : Int) ≤ 2 * v)
    (high : 2 * v < 256 ^ w) : signed w (decode (encodeInt w v)) = v := by
  have positive : (0 : Int) < 256 ^ w := Int.pow_pos (by decide)
  have nonneg : 0 ≤ v % 256 ^ w := Int.emod_nonneg v positive.ne'
  have below : v % 256 ^ w < 256 ^ w := Int.emod_lt_of_pos v positive
  have back : (((v % 256 ^ w).toNat : Nat) : Int) = v % 256 ^ w := Int.toNat_of_nonneg nonneg
  have small : (v % 256 ^ w).toNat < 256 ^ w := by
    have : (((v % 256 ^ w).toNat : Nat) : Int) < ((256 ^ w : Nat) : Int) := by
      rw [back]
      exact_mod_cast below
    exact_mod_cast this
  have read : decode (encodeInt w v) = (v % 256 ^ w).toNat := by
    rw [encodeInt, decode_encode, Nat.mod_eq_of_lt small]
  rw [read, signed]
  have half : 2 * (v % 256 ^ w).toNat < 256 ^ w ↔ 2 * (v % 256 ^ w) < 256 ^ w := by
    constructor <;> intro h
    · have : ((2 * (v % 256 ^ w).toNat : Nat) : Int) < ((256 ^ w : Nat) : Int) := by exact_mod_cast h
      push_cast at this
      rwa [back] at this
    · have : ((2 * (v % 256 ^ w).toNat : Nat) : Int) < ((256 ^ w : Nat) : Int) := by
        push_cast
        rwa [back]
      exact_mod_cast this
  by_cases negative : v < 0
  · have wrap : v % 256 ^ w = v + 256 ^ w := by
      rw [← Int.add_emod_right, Int.emod_eq_of_lt (by omega) (by omega)]
    have upper : ¬ 2 * (v % 256 ^ w).toNat < 256 ^ w := by
      rw [half, wrap]
      omega
    rw [if_neg upper, back, wrap]
    omega
  · have keep : v % 256 ^ w = v := Int.emod_eq_of_lt (by omega) (by omega)
    have lower : 2 * (v % 256 ^ w).toNat < 256 ^ w := by
      rw [half, keep]
      exact high
    rw [if_pos lower, back, keep]

end QinDB.Base.LittleEndian
