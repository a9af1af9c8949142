/-
# Base.Trim — white space around a text

The codes of white space, and texts over letters of any type without the white space around
them.
-/
import Mathlib.Data.List.DropRight

namespace QinDB.Base

set_option autoImplicit false

/-- The white space of Unicode, all of it below `0x10000`. -/
def isSpaceCode (code : Nat) : Bool :=
  decide (code = 0x20 ∨ 0x09 ≤ code ∧ code ≤ 0x0d ∨ code = 0x85 ∨ code = 0xa0 ∨ code = 0x1680 ∨
    0x2000 ≤ code ∧ code ≤ 0x200a ∨ code = 0x2028 ∨ code = 0x2029 ∨ code = 0x202f ∨
    code = 0x205f ∨ code = 0x3000)

variable {α : Type} {space : α → Bool} {text : List α}

def trimBy (space : α → Bool) (text : List α) : List α := (text.dropWhile space).rdropWhile space

theorem trimBy_eq_self (none_blank : ∀ letter ∈ text, space letter = false) :
    trimBy space text = text := by
  have front : text.dropWhile space = text :=
    List.dropWhile_eq_self_iff.mpr fun _ => by simp [none_blank _ (List.getElem_mem _)]
  rw [trimBy, front, List.rdropWhile_eq_self_iff]
  intro nonempty
  simp [none_blank _ (List.getLast_mem nonempty)]

end QinDB.Base
