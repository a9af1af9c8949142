/-
# Base.Base64 — bytes as texts

The alphabet for URLs, without padding. Three bytes are four digits of six bits. The reader collects
bits, gives out a byte whenever it has eight of them and skips what is no digit, so bits that are
left over at the end do not matter.

* `decode_encode`: bytes that are written are read back.
* `encode_digits`: what is written has only digits.
-/
import Mathlib.Algebra.Group.Nat.Defs
import Mathlib.Data.List.Basic

namespace QinDB.Base.Base64

set_option autoImplicit false

def digit (d : Nat) : UInt16 :=
  if d < 26 then .ofNat (0x41 + d)
  else if d < 52 then .ofNat (0x61 + (d - 26))
  else if d < 62 then .ofNat (0x30 + (d - 52))
  else if d = 62 then 0x2d
  else 0x5f

def digitValue (unit : UInt16) : Option Nat :=
  if 0x41 ≤ unit ∧ unit ≤ 0x5a then some (unit.toNat - 0x41)
  else if 0x61 ≤ unit ∧ unit ≤ 0x7a then some (unit.toNat - 0x61 + 26)
  else if 0x30 ≤ unit ∧ unit ≤ 0x39 then some (unit.toNat - 0x30 + 52)
  else if unit = 0x2d then some 62
  else if unit = 0x5f then some 63
  else none

def encode : List UInt8 → List UInt16
  | [] => []
  | [a] => [digit (a.toNat / 4), digit (a.toNat % 4 * 16)]
  | [a, b] =>
      [digit (a.toNat / 4), digit (a.toNat % 4 * 16 + b.toNat / 16), digit (b.toNat % 16 * 4)]
  | a :: b :: c :: rest =>
      digit (a.toNat / 4) :: digit (a.toNat % 4 * 16 + b.toNat / 16) ::
        digit (b.toNat % 16 * 4 + c.toNat / 64) :: digit (c.toNat % 64) :: encode rest

/-- Read on with some bits in the buffer, fewer than eight. -/
def decodeFrom : Nat → Nat → List UInt16 → List UInt8
  | _, _, [] => []
  | buffer, bits, unit :: rest =>
      match digitValue unit with
      | none => decodeFrom buffer bits rest
      | some d =>
          if 8 ≤ bits + 6 then
            .ofNat ((buffer * 64 + d) / 2 ^ (bits - 2)) ::
              decodeFrom ((buffer * 64 + d) % 2 ^ (bits - 2)) (bits - 2) rest
          else decodeFrom (buffer * 64 + d) (bits + 6) rest

def decode (text : List UInt16) : List UInt8 := decodeFrom 0 0 text

theorem digitValue_digit {d : Nat} (small : d < 64) : digitValue (digit d) = some d := by
  have each : ∀ d : Fin 64, digitValue (digit d) = some d.val := by decide
  exact each ⟨d, small⟩

/-- A digit that fills a byte. -/
theorem decodeFrom_byte {buffer bits d : Nat} (small : d < 64) (enough : 2 ≤ bits)
    (rest : List UInt16) :
    decodeFrom buffer bits (digit d :: rest) = .ofNat ((buffer * 64 + d) / 2 ^ (bits - 2)) ::
      decodeFrom ((buffer * 64 + d) % 2 ^ (bits - 2)) (bits - 2) rest := by
  rw [decodeFrom, digitValue_digit small]
  exact if_pos (by omega)

/-- The digit at the front of three bytes. -/
theorem decodeFrom_first {d : Nat} (small : d < 64) (rest : List UInt16) :
    decodeFrom 0 0 (digit d :: rest) = decodeFrom d 6 rest := by
  rw [decodeFrom, digitValue_digit small]
  simp only [Nat.zero_add, Nat.zero_mul]
  rfl

/-- Bytes that are written are read back. -/
theorem decode_encode (bytes : List UInt8) : decode (encode bytes) = bytes := by
  rw [decode]
  induction bytes using encode.induct with
  | case1 => rfl
  | case2 a =>
    have small := a.toNat_lt
    have whole : (a.toNat / 4 * 64 + a.toNat % 4 * 16) / 2 ^ 4 = a.toNat := by omega
    rw [encode, decodeFrom_first (by omega), decodeFrom_byte (by omega) (by decide), decodeFrom, whole,
      UInt8.ofNat_toNat]
  | case3 a b =>
    have small := a.toNat_lt
    have small' := b.toNat_lt
    have first : (a.toNat / 4 * 64 + (a.toNat % 4 * 16 + b.toNat / 16)) / 2 ^ 4 = a.toNat := by omega
    have left : (a.toNat / 4 * 64 + (a.toNat % 4 * 16 + b.toNat / 16)) % 2 ^ 4 = b.toNat / 16 := by
      omega
    have second : (b.toNat / 16 * 64 + b.toNat % 16 * 4) / 2 ^ 2 = b.toNat := by omega
    rw [encode, decodeFrom_first (by omega), decodeFrom_byte (by omega) (by decide), first, left,
      decodeFrom_byte (by omega) (by decide), decodeFrom, second, UInt8.ofNat_toNat, UInt8.ofNat_toNat]
  | case4 a b c rest ih =>
    have small := a.toNat_lt
    have small' := b.toNat_lt
    have small'' := c.toNat_lt
    have first : (a.toNat / 4 * 64 + (a.toNat % 4 * 16 + b.toNat / 16)) / 2 ^ 4 = a.toNat := by omega
    have left : (a.toNat / 4 * 64 + (a.toNat % 4 * 16 + b.toNat / 16)) % 2 ^ 4 = b.toNat / 16 := by
      omega
    have second : (b.toNat / 16 * 64 + (b.toNat % 16 * 4 + c.toNat / 64)) / 2 ^ 2 = b.toNat := by
      omega
    have left' : (b.toNat / 16 * 64 + (b.toNat % 16 * 4 + c.toNat / 64)) % 2 ^ 2 = c.toNat / 64 := by
      omega
    have third : (c.toNat / 64 * 64 + c.toNat % 64) / 2 ^ 0 = c.toNat := by omega
    have left'' : (c.toNat / 64 * 64 + c.toNat % 64) % 2 ^ 0 = 0 := by omega
    rw [encode, decodeFrom_first (by omega), decodeFrom_byte (by omega) (by decide), first, left,
      decodeFrom_byte (by omega) (by decide), second, left', decodeFrom_byte (by omega) (by decide),
      third, left'', ih, UInt8.ofNat_toNat, UInt8.ofNat_toNat, UInt8.ofNat_toNat]

/-- What is written has only digits. -/
theorem encode_digits (bytes : List UInt8) :
    ∀ unit ∈ encode bytes, ∃ d : Fin 64, unit = digit d := by
  have some_digit : ∀ d : Nat, d < 64 → ∃ e : Fin 64, digit d = digit e := fun d small => ⟨⟨d, small⟩, rfl⟩
  induction bytes using encode.induct with
  | case1 => exact nofun
  | case2 a =>
    have small := a.toNat_lt
    simp only [encode, List.forall_mem_cons]
    exact ⟨some_digit _ (by omega), some_digit _ (by omega), nofun⟩
  | case3 a b =>
    have small := a.toNat_lt
    have small' := b.toNat_lt
    simp only [encode, List.forall_mem_cons]
    exact ⟨some_digit _ (by omega), some_digit _ (by omega), some_digit _ (by omega), nofun⟩
  | case4 a b c rest ih =>
    have small := a.toNat_lt
    have small' := b.toNat_lt
    have small'' := c.toNat_lt
    simp only [encode, List.forall_mem_cons]
    exact ⟨some_digit _ (by omega), some_digit _ (by omega), some_digit _ (by omega),
      some_digit _ (by omega), ih⟩

theorem encode_eq_nil_iff {bytes : List UInt8} : encode bytes = [] ↔ bytes = [] := by
  match bytes with
  | [] | [_] | [_, _] | _ :: _ :: _ :: _ => simp [encode]

end QinDB.Base.Base64
