/-
# Base.Keyed — lists of rows with a key

A list whose keys differ is a finite map from keys to rows, whatever its order. Adding a
row with a new key, exchanging a row for one with the same key, and removing a row are
the updates of that map.

* `find_perm`: the order does not matter.
* `find_cons`, `find_rest`: one row and the rest.
-/
import Mathlib.Data.List.Nodup
import Mathlib.Logic.Function.Basic

namespace QinDB.Base.Keyed

set_option autoImplicit false

variable {α κ : Type} [DecidableEq κ] (key : α → κ)

/-- The row with a key. -/
def find (rows : List α) (k : κ) : Option α := rows.find? fun row => key row = k

variable {key} {rows rows' rest : List α} {row row' : α} {k : κ}

theorem find_eq_some_iff (distinct : (rows.map key).Nodup) :
    find key rows k = some row ↔ row ∈ rows ∧ key row = k := by
  constructor
  · intro found
    exact ⟨List.mem_of_find?_eq_some found, by simpa using List.find?_some found⟩
  · rintro ⟨member, here⟩
    cases found : find key rows k with
    | none =>
      have absent := List.find?_eq_none.mp found row member
      simp [here] at absent
    | some other =>
      have inside := List.mem_of_find?_eq_some found
      have there : key other = k := by simpa using List.find?_some found
      rw [List.inj_on_of_nodup_map distinct inside member (there.trans here.symm)]

theorem find_eq_none_iff : find key rows k = none ↔ k ∉ rows.map key := by
  rw [find, List.find?_eq_none, List.mem_map]
  simp

/-- The order of the rows does not matter. -/
theorem find_perm (distinct : (rows.map key).Nodup) (perm : rows.Perm rows') :
    find key rows = find key rows' := by
  have distinct' : (rows'.map key).Nodup := (perm.map key).nodup_iff.mp distinct
  funext k
  apply Option.ext
  intro row
  rw [find_eq_some_iff distinct, find_eq_some_iff distinct', perm.mem_iff]

/-- The map of a row and the rest. -/
theorem find_cons (distinct : (rows.map key).Nodup) (perm : rows.Perm (row :: rest)) :
    find key rows = Function.update (find key rest) (key row) (some row) := by
  rw [find_perm distinct perm]
  funext k
  by_cases same : k = key row
  · subst same
    rw [Function.update_self, find, List.find?_cons_of_pos (by simp)]
  · rw [Function.update_of_ne same, find, List.find?_cons_of_neg (by simpa using Ne.symm same), find]

/-- The map of the rest. -/
theorem find_rest (distinct : (rows.map key).Nodup) (perm : rows.Perm (row :: rest)) :
    find key rest = Function.update (find key rows) (key row) none := by
  have split : key row ∉ rest.map key ∧ (rest.map key).Nodup :=
    List.nodup_cons.mp ((perm.map key).nodup_iff.mp distinct)
  rw [find_cons distinct perm, Function.update_idem]
  refine (Function.update_eq_self_iff.mpr ?_).symm
  exact (find_eq_none_iff.mpr split.1).symm

/-- Exchanging a row for one with the same key. -/
theorem find_exchange (distinct : (rows.map key).Nodup) (perm : rows.Perm (row :: rest))
    (perm' : rows'.Perm (row' :: rest)) (same : key row' = key row) :
    (rows'.map key).Nodup ∧
      find key rows' = Function.update (find key rows) (key row) (some row') := by
  have distinct' : (rows'.map key).Nodup := by
    rw [(perm'.map key).nodup_iff, List.map_cons, same]
    exact (perm.map key).nodup_iff.mp distinct
  refine ⟨distinct', ?_⟩
  rw [find_cons distinct' perm', find_rest distinct perm, same, Function.update_idem]

/-- Adding a row with a new key. -/
theorem find_insert (distinct : (rows.map key).Nodup) (new : find key rows (key row) = none)
    (perm : rows'.Perm (row :: rows)) :
    (rows'.map key).Nodup ∧
      find key rows' = Function.update (find key rows) (key row) (some row) := by
  have distinct' : (rows'.map key).Nodup := by
    rw [(perm.map key).nodup_iff]
    exact List.nodup_cons.mpr ⟨find_eq_none_iff.mp new, distinct⟩
  exact ⟨distinct', find_cons distinct' perm⟩

/-- Removing a row. -/
theorem find_remove (distinct : (rows.map key).Nodup) (perm : rows.Perm (row :: rows')) :
    (rows'.map key).Nodup ∧
      find key rows' = Function.update (find key rows) (key row) none :=
  ⟨(List.nodup_cons.mp ((perm.map key).nodup_iff.mp distinct)).2, find_rest distinct perm⟩

end QinDB.Base.Keyed
