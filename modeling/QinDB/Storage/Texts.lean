/-
# Storage.Texts — numbers that Qt reads off texts

`toUShort`, `toUInt` and `toULongLong` of `QString` differ in their limit: blanks around the
digits and a plus sign are allowed, and in base sixteen a mark `0x`.

* `unsigned_of_digits`: a text that has only digits stands for its value.
* `unsigned_numeral`: a number is read back from its decimal numeral.
-/
import QinDB.Base.Numerals
import QinDB.Storage.Cells

namespace QinDB.Storage

open QinDB.Base QinDB.Base.Numerals

set_option autoImplicit false

/-- The units of a text of ASCII characters. -/
def units (text : String) : List UInt16 := text.toList.map fun c => .ofNat c.toNat

def withoutPlus : List UInt16 → List UInt16
  | 0x2b :: rest => rest
  | text => text

def withoutMark (base : Nat) : List UInt16 → List UInt16
  | zero :: mark :: rest =>
      if base = 16 ∧ zero = 0x30 ∧ (mark = 0x78 ∨ mark = 0x58) then rest else zero :: mark :: rest
  | text => text

/-- A number below a limit; `none` is `ok == false`. -/
def unsigned (base limit : Nat) (text : List UInt16) : Option Nat :=
  (value base (withoutMark base (withoutPlus (trimmed text)))).filter fun number =>
    decide (number < limit)

/-- `QString::number` of a signed number. -/
def number (n : Int) : List UInt16 :=
  if n < 0 then 0x2d :: numeral 10 n.natAbs else numeral 10 n.natAbs

variable {base : Nat} {text : List UInt16} {unit : UInt16}

/-- Digits are neither blanks nor any of the marks. -/
theorem plain_of_digit (is_digit : IsDigit base unit) :
    isSpace unit = false ∧ unit ≠ 0x2b ∧ unit ≠ 0x78 ∧ unit ≠ 0x58 := by
  have range : 0x30 ≤ unit ∧ unit ≤ 0x39 ∨ 0x61 ≤ unit ∧ unit ≤ 0x66 ∨
      0x41 ≤ unit ∧ unit ≤ 0x46 := by
    rw [IsDigit, digitValue] at is_digit
    by_contra outside
    rw [if_neg (by tauto), if_neg (by tauto), if_neg (by tauto)] at is_digit
    cases is_digit
  rw [isSpace, isSpaceCode, decide_eq_false_iff_not]
  simp only [UInt16.le_iff_toNat_le, ← UInt16.toNat_inj, ne_eq, UInt16.reduceToNat] at range ⊢
  omega

theorem trimmed_of_digits (digits : ∀ unit ∈ text, IsDigit base unit) : trimmed text = text :=
  trimBy_eq_self fun unit member => (plain_of_digit (digits unit member)).1

theorem unsigned_of_digits (limit : Nat) (digits : ∀ unit ∈ text, IsDigit base unit) :
    unsigned base limit text = (value base text).filter fun number => decide (number < limit) := by
  have marks := fun unit member => (plain_of_digit (digits unit member)).2
  have plain : withoutPlus text = text := by
    unfold withoutPlus
    split
    · exact absurd rfl (marks 0x2b List.mem_cons_self).1
    · rfl
  have unmarked : withoutMark base text = text := by
    unfold withoutMark
    split
    · rename_i zero mark rest
      have other := marks mark (List.mem_cons_of_mem zero List.mem_cons_self)
      rw [if_neg (by tauto)]
    · rfl
  rw [unsigned, trimmed_of_digits digits, plain, unmarked]

/-- A number is read back from its decimal numeral. -/
theorem unsigned_numeral {limit n : Nat} (small : n < limit) :
    unsigned 10 limit (numeral 10 n) = some n := by
  rw [unsigned_of_digits limit (numeral_digits (by decide) (by decide) n),
    value_numeral (by decide) (by decide)]
  simp only [Option.filter_some, small, decide_true, if_true]

end QinDB.Storage
