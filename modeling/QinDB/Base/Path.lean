/-
# Base.Path — resolving paths

A path is a text, its components are separated by slashes. Empty components and `.` stay
where they are, `..` goes up and stays at the root, and any other component goes down.
Links are not followed.

* `resolve_join`: a path below another is resolved from there.
* `inside_file_iff`: a file lies strictly inside a directory exactly if the directory it
  stands in is that directory or lies inside it.
-/
import Mathlib.Data.List.Basic

namespace QinDB.Base.Path

set_option autoImplicit false

/-- From the root, the names of the directories on the way. -/
abbrev Location := List (List Char)

/-- Follow one component. -/
def enter (place : Location) (component : List Char) : Location :=
  if component = [] ∨ component = ['.'] then place
  else if component = ['.', '.'] then place.dropLast
  else place ++ [component]

def walk (place : Location) (components : List (List Char)) : Location :=
  components.foldl enter place

def components (path : List Char) : List (List Char) := path.splitOn '/'

/-- Where a path leads, from a working directory. -/
def resolve (cwd : Location) (path : List Char) : Location :=
  walk (if path.head? = some '/' then [] else cwd) (components path)

/-- Strictly below a directory. -/
def Inside (directory place : Location) : Prop := directory <+: place ∧ directory ≠ place

instance decidableInside (directory place : Location) : Decidable (Inside directory place) :=
  inferInstanceAs (Decidable (_ ∧ _))

/-- A name of its own: not empty, not `.` or `..`, and without a slash. -/
def PlainName (name : List Char) : Prop :=
  name ≠ [] ∧ name ≠ ['.'] ∧ name ≠ ['.', '.'] ∧ '/' ∉ name

instance decidablePlainName (name : List Char) : Decidable (PlainName name) :=
  inferInstanceAs (Decidable (_ ∧ _ ∧ _ ∧ _))

theorem walk_append (place : Location) (first second : List (List Char)) :
    walk place (first ++ second) = walk (walk place first) second :=
  List.foldl_append

theorem components_ne_nil (path : List Char) : components path ≠ [] :=
  List.splitOn_ne_nil '/' path

theorem components_cons {c : Char} (other : c ≠ '/') (path : List Char) :
    components (c :: path) = (components path).modifyHead (c :: ·) := by
  simp [components, List.splitOn, List.splitOnP_cons_eq_if_modifyHead, other]

theorem components_slash (path : List Char) : components ('/' :: path) = [] :: components path := by
  simp [components, List.splitOn, List.splitOnP_cons_eq_if_modifyHead]

/-- A slash between two paths separates their components. -/
theorem components_join (first second : List Char) :
    components (first ++ '/' :: second) = components first ++ components second := by
  induction first with
  | nil => exact components_slash second
  | cons c rest ih =>
    by_cases slash : c = '/'
    · subst slash
      rw [List.cons_append, components_slash, ih, components_slash, List.cons_append]
    · rw [List.cons_append, components_cons slash, ih, components_cons slash]
      cases parts : components rest with
      | nil => exact absurd parts (components_ne_nil rest)
      | cons head tail => rfl

theorem components_plain {name : List Char} (noSlash : '/' ∉ name) : components name = [name] := by
  induction name with
  | nil => rfl
  | cons c rest ih =>
    obtain ⟨other, later⟩ := not_or.mp (List.mem_cons.not.mp noSlash)
    rw [components_cons (Ne.symm other), ih later]
    rfl

theorem resolve_join (cwd : Location) {first : List Char} (nonempty : first ≠ [])
    (second : List Char) :
    resolve cwd (first ++ '/' :: second) = walk (resolve cwd first) (components second) := by
  cases first with
  | nil => exact absurd rfl nonempty
  | cons c rest =>
    unfold resolve
    rw [components_join, walk_append]
    rfl

theorem walk_plain (place : Location) {name : List Char} (plain : PlainName name) :
    walk place (components name) = place ++ [name] := by
  obtain ⟨nonempty, notDot, notUp, noSlash⟩ := plain
  rw [components_plain noSlash]
  simp [walk, enter, nonempty, notDot, notUp]

theorem inside_file_iff {directory place : Location} {name : List Char} :
    Inside directory (place ++ [name]) ↔ directory <+: place := by
  constructor
  · rintro ⟨below, differs⟩
    rcases List.prefix_concat_iff.mp below with same | above
    · exact absurd same differs
    · exact above
  · intro above
    refine ⟨above.trans (List.prefix_append place [name]), fun same => ?_⟩
    have shorter := above.length_le
    rw [same, List.length_append, List.length_singleton] at shorter
    omega

end QinDB.Base.Path
