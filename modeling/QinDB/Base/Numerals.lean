/-
# Base.Numerals — numbers as texts of digits

Digits are UTF-16 units; a digit above nine is a letter. `numeral` writes a number in a base with
no digit more than it needs, and `value` reads a text that has digits and nothing else.

* `value_numeral`: what is written is read back.
* `numeral_digits`: a numeral has only digits.
-/
import Mathlib.Algebra.Group.Nat.Defs
import Mathlib.Data.List.Basic

namespace QinDB.Base.Numerals

set_option autoImplicit false

def digit (d : Nat) : UInt16 := if d < 10 then .ofNat (0x30 + d) else .ofNat (0x61 + (d - 10))

def digitValue (base : Nat) (unit : UInt16) : Option Nat :=
  let d :=
    if 0x30 ≤ unit ∧ unit ≤ 0x39 then some (unit.toNat - 0x30)
    else if 0x61 ≤ unit ∧ unit ≤ 0x66 then some (unit.toNat - 0x61 + 10)
    else if 0x41 ≤ unit ∧ unit ≤ 0x46 then some (unit.toNat - 0x41 + 10)
    else none
  d.filter fun d => decide (d < base)

/-- The digits of a number in front of a text; the first argument bounds their count. -/
def numeralOnto (base : Nat) : Nat → Nat → List UInt16 → List UInt16
  | 0, _, rest => rest
  | count + 1, n, rest =>
      if n < base then digit n :: rest
      else numeralOnto base count (n / base) (digit (n % base) :: rest)

def numeral (base n : Nat) : List UInt16 := numeralOnto base (n + 1) n []

/-- Read digits, behind those that stand for `start`. -/
def valueFrom (base : Nat) : Nat → List UInt16 → Option Nat
  | start, [] => some start
  | start, unit :: rest =>
      (digitValue base unit).bind fun d => valueFrom base (start * base + d) rest

def value (base : Nat) (text : List UInt16) : Option Nat :=
  if text = [] then none else valueFrom base 0 text

variable {base n : Nat}

theorem digitValue_digit {d : Nat} (small : d < base) (most : base ≤ 16) :
    digitValue base (digit d) = some d := by
  have each : ∀ d : Fin 16, (if 0x30 ≤ digit d ∧ digit d ≤ 0x39 then some ((digit d).toNat - 0x30)
      else if 0x61 ≤ digit d ∧ digit d ≤ 0x66 then some ((digit d).toNat - 0x61 + 10)
      else if 0x41 ≤ digit d ∧ digit d ≤ 0x46 then some ((digit d).toNat - 0x41 + 10)
      else none) = some d.val := by decide
  have here := each ⟨d, Nat.lt_of_lt_of_le small most⟩
  simp only at here
  simp only [digitValue, here, Option.filter_some, small, decide_true, if_true]

theorem valueFrom_numeralOnto (two : 2 ≤ base) (most : base ≤ 16) (count : Nat) :
    ∀ (n : Nat) (rest : List UInt16), n < count →
      valueFrom base 0 (numeralOnto base count n rest) = valueFrom base n rest := by
  induction count with
  | zero => exact fun n rest none => absurd none (Nat.not_lt_zero n)
  | succ count ih =>
    intro n rest enough
    rw [numeralOnto]
    split
    · rename_i small
      rw [valueFrom, digitValue_digit small most, Option.bind_some, Nat.zero_mul, Nat.zero_add]
    · rename_i large
      have less : n / base < n := Nat.div_lt_self (by omega) two
      have last : n % base < base := Nat.mod_lt n (by omega)
      rw [ih (n / base) _ (by omega), valueFrom, digitValue_digit last most, Option.bind_some,
        Nat.mul_comm, Nat.div_add_mod]

theorem numeralOnto_ne_nil (count n : Nat) (rest : List UInt16) :
    numeralOnto base (count + 1) n rest ≠ [] := by
  induction count generalizing n rest with
  | zero =>
    rw [numeralOnto]
    split
    · exact List.cons_ne_nil _ _
    · rw [numeralOnto]
      exact List.cons_ne_nil _ _
  | succ count ih =>
    rw [numeralOnto]
    split
    · exact List.cons_ne_nil _ _
    · exact ih _ _

theorem numeral_ne_nil (base n : Nat) : numeral base n ≠ [] := numeralOnto_ne_nil n n []

/-- A number is read back from its numeral. -/
theorem value_numeral (two : 2 ≤ base) (most : base ≤ 16) (n : Nat) :
    value base (numeral base n) = some n := by
  rw [value, if_neg (numeral_ne_nil base n), numeral,
    valueFrom_numeralOnto two most (n + 1) n [] (Nat.lt_succ_self n), valueFrom]

/-- A unit that is a digit. -/
def IsDigit (base : Nat) (unit : UInt16) : Prop := (digitValue base unit).isSome = true

instance (base : Nat) (unit : UInt16) : Decidable (IsDigit base unit) :=
  inferInstanceAs (Decidable (_ = true))

/-- Decimal digits are ten units. -/
theorem IsDigit.decimal {P : UInt16 → Prop} {unit : UInt16} (is_digit : IsDigit 10 unit)
    (each : ∀ d : Fin 10, P (digit d)) : P unit := by
  obtain ⟨d, here⟩ := Option.isSome_iff_exists.mp is_digit
  rw [digitValue] at here
  obtain ⟨value, small⟩ := Option.filter_eq_some_iff.mp here
  have low : d < 10 := of_decide_eq_true small
  have same : unit = digit d := by
    split_ifs at value with decimal lower upper
    · cases value
      rw [digit, if_pos low, ← UInt16.toNat_inj, UInt16.toNat_ofNat']
      have := unit.toNat_lt
      have := UInt16.le_iff_toNat_le.mp decimal.1
      simp only [UInt16.reduceToNat] at this
      omega
    · cases value
      omega
    · cases value
      omega
  rw [same]
  exact each ⟨d, low⟩

theorem digits_of_valueFrom {start : Nat} {text : List UInt16}
    (read : valueFrom base start text = some n) : ∀ unit ∈ text, IsDigit base unit := by
  induction text generalizing start with
  | nil => exact nofun
  | cons first rest ih =>
    rw [valueFrom] at read
    obtain ⟨d, here, later⟩ := Option.bind_eq_some_iff.mp read
    rw [List.forall_mem_cons]
    exact ⟨by rw [IsDigit, here, Option.isSome_some], ih later⟩

theorem numeral_digits (two : 2 ≤ base) (most : base ≤ 16) (n : Nat) :
    ∀ unit ∈ numeral base n, IsDigit base unit :=
  digits_of_valueFrom (valueFrom_numeralOnto two most (n + 1) n [] (Nat.lt_succ_self n))

theorem digitValue_lt {unit : UInt16} {d : Nat} (here : digitValue base unit = some d) : d < base := by
  rw [digitValue, Option.filter_eq_some_iff] at here
  exact of_decide_eq_true here.2

/-- A text of digits stands for a number with no more digits. -/
theorem exists_valueFrom {text : List UInt16} (digits : ∀ unit ∈ text, IsDigit base unit) (start : Nat) :
    ∃ n < (start + 1) * base ^ text.length, valueFrom base start text = some n := by
  induction text generalizing start with
  | nil => exact ⟨start, by rw [List.length_nil, Nat.pow_zero, Nat.mul_one]; omega, rfl⟩
  | cons unit rest ih =>
    obtain ⟨d, here⟩ := Option.isSome_iff_exists.mp (digits unit List.mem_cons_self)
    obtain ⟨n, below, read⟩ := ih (fun unit member => digits unit (List.mem_cons_of_mem _ member))
      (start * base + d)
    refine ⟨n, Nat.lt_of_lt_of_le below ?_, by rw [valueFrom, here, Option.bind_some, read]⟩
    have small := digitValue_lt here
    rw [List.length_cons, Nat.pow_succ', ← Nat.mul_assoc, Nat.add_mul start, Nat.one_mul]
    exact Nat.mul_le_mul_right _ (by omega)

end QinDB.Base.Numerals
