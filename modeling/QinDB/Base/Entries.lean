/-
# Base.Entries — the entries of a cache

A table from keys to entries, kept as a list in the order in which it is walked through:
storing under a key, erasing, and the choice of the entry that is to go.

* `find_erase`, `find_insert`: what is found after erasing and after storing.
* `mem_of_find`: what is found is an entry.
* `total_insert`, `total_erase`: the sum of the sizes after storing and after erasing.
* `Accounted`: a machine word that keeps the sum of the sizes.
-/
import Mathlib.Algebra.Ring.Nat
import Mathlib.Data.List.Nodup

namespace QinDB.Base.Entries

set_option autoImplicit false

variable {κ α : Type} [DecidableEq κ]

def find (key : κ) : List (κ × α) → Option α
  | [] => none
  | (other, entry) :: rest => if other = key then some entry else find key rest

def erase (key : κ) (entries : List (κ × α)) : List (κ × α) :=
  entries.filter fun found => found.1 ≠ key

/-- In the place of an entry with this key, or at the end. -/
def insert (key : κ) (entry : α) : List (κ × α) → List (κ × α)
  | [] => [(key, entry)]
  | (other, old) :: rest =>
      if other = key then (other, entry) :: rest else (other, old) :: insert key entry rest

/-- The first of the entries that are least by `age`. Where the table is a hash table its order is
arbitrary, and the list stands for whichever it is. -/
def oldest (age : α → Nat) : List (κ × α) → Option (κ × α)
  | [] => none
  | first :: rest => some (rest.foldl
      (fun best found => if age found.2 < age best.2 then found else best) first)

variable {entries : List (κ × α)} {key other : κ} {entry : α}

theorem find_erase : find other (erase key entries) =
    if other = key then none else find other entries := by
  induction entries with
  | nil => simp only [erase, List.filter_nil, find, ite_self]
  | cons first rest ih =>
    rw [erase] at ih ⊢
    by_cases here : first.1 = key
    · rw [List.filter_cons_of_neg (by simpa using here), ih, find, here]
      by_cases same : other = key
      · rw [if_pos same, if_pos same]
      · rw [if_neg same, if_neg same, if_neg (Ne.symm same)]
    · rw [List.filter_cons_of_pos (by simpa using here), find, find, ih]
      by_cases same : other = key
      · rw [if_pos same, same, if_neg here, if_pos rfl]
      · simp only [if_neg same]

theorem find_insert : find other (insert key entry entries) =
    if other = key then some entry else find other entries := by
  induction entries with
  | nil => simp only [insert, find, eq_comm]
  | cons first rest ih =>
    rw [insert]
    by_cases here : first.1 = key
    · rw [if_pos here]
      simp only [find, here]
      by_cases same : other = key
      · rw [if_pos same, if_pos same.symm]
      · rw [if_neg same, if_neg (Ne.symm same), if_neg (Ne.symm same)]
    · simp only [if_neg here, find, ih]
      by_cases same : other = key
      · rw [if_pos same, same, if_neg here, if_pos rfl]
      · simp only [if_neg same]

theorem find_map {β : Type} (change : α → β) :
    find key (entries.map fun found => (found.1, change found.2)) =
      (find key entries).map change := by
  induction entries with
  | nil => rfl
  | cons first rest ih =>
    rw [List.map_cons, find, find, ih]
    split <;> rfl

theorem mem_of_find (found : find key entries = some entry) : (key, entry) ∈ entries := by
  induction entries with
  | nil => cases found
  | cons first rest ih =>
    rw [find] at found
    split at found
    · rename_i here
      cases found
      rw [← here]
      exact List.mem_cons_self
    · exact List.mem_cons_of_mem first (ih found)

omit [DecidableEq κ] in
/-- The oldest entry is one of them. -/
theorem oldest_mem {age : α → Nat} {found : κ × α} (chosen : oldest age entries = some found) :
    found ∈ entries := by
  cases entries with
  | nil => cases chosen
  | cons first rest =>
    have fold : ∀ (later : List (κ × α)) (best : κ × α), later.foldl
        (fun best found => if age found.2 < age best.2 then found else best) best ∈ best :: later := by
      intro later
      induction later with
      | nil => exact fun best => List.mem_singleton_self best
      | cons next later ih =>
        intro best
        rw [List.foldl_cons]
        split
        · exact List.mem_cons_of_mem best (ih next)
        · rcases List.mem_cons.mp (ih best) with here | there
          · rw [here]
            exact List.mem_cons_self
          · exact List.mem_cons_of_mem best (List.mem_cons_of_mem next there)
    cases chosen
    exact fold rest first

omit [DecidableEq κ] in
theorem oldest_eq_none {age : α → Nat} (nothing : oldest age entries = none) : entries = [] := by
  cases entries with
  | nil => rfl
  | cons first rest => cases nothing

/-! ## One entry under a key -/

/-- No key has two entries. -/
def Distinct (entries : List (κ × α)) : Prop := (entries.map Prod.fst).Nodup

theorem find_eq_none : find key entries = none ↔ key ∉ entries.map Prod.fst := by
  induction entries with
  | nil => simp [find]
  | cons first rest ih =>
    rw [find, List.map_cons, List.mem_cons]
    split
    · rename_i here
      simp [here]
    · rename_i elsewhere
      rw [ih, not_or]
      exact ⟨fun absent => ⟨Ne.symm elsewhere, absent⟩, fun both => both.2⟩

theorem find_of_mem (distinct : Distinct entries) (member : (key, entry) ∈ entries) :
    find key entries = some entry := by
  induction entries with
  | nil => cases member
  | cons first rest ih =>
    obtain ⟨fresh, later⟩ := List.nodup_cons.mp distinct
    rw [find]
    rcases List.mem_cons.mp member with here | there
    · rw [← here, if_pos rfl]
    · rw [if_neg]
      · exact ih later there
      · rintro same
        exact fresh (same ▸ List.mem_map_of_mem there)

theorem Distinct.erase (distinct : Distinct entries) (key : κ) : Distinct (erase key entries) :=
  List.Nodup.sublist (List.Sublist.map _ List.filter_sublist) distinct

theorem mem_keys_insert : other ∈ (insert key entry entries).map Prod.fst ↔
    other = key ∨ other ∈ entries.map Prod.fst := by
  rw [← not_iff_not, ← find_eq_none, find_insert, not_or, ← find_eq_none]
  split
  · rename_i same
    simp [same]
  · rename_i different
    simp [different]

theorem Distinct.insert (distinct : Distinct entries) (key : κ) (entry : α) :
    Distinct (insert key entry entries) := by
  induction entries with
  | nil => exact List.pairwise_singleton _ key
  | cons first rest ih =>
    obtain ⟨fresh, later⟩ := List.nodup_cons.mp distinct
    rw [Entries.insert]
    split
    · exact distinct
    · rename_i elsewhere
      refine List.nodup_cons.mpr ⟨fun member => ?_, ih later⟩
      rcases mem_keys_insert.mp member with same | there
      · exact elsewhere same
      · exact fresh there

/-! ## Sizes -/

/-- The sum of the sizes of the entries. -/
def total (size : α → Nat) (entries : List (κ × α)) : Nat :=
  (entries.map fun found => size found.2).sum

omit [DecidableEq κ] in
theorem total_one : total (fun _ => 1) entries = entries.length := by
  simp [total]

variable (key entry entries) in
/-- Storing puts the new size in the place of the size that was found. -/
theorem total_insert (size : α → Nat) : total size (insert key entry entries) +
    ((find key entries).map size).getD 0 = total size entries + size entry := by
  induction entries with
  | nil => simp [insert, find, total]
  | cons first rest ih =>
    rw [insert, find]
    split
    · simp only [total, List.map_cons, List.sum_cons, Option.map_some, Option.getD_some]
      omega
    · simp only [total, List.map_cons, List.sum_cons] at ih ⊢
      omega

theorem erase_absent (absent : find key entries = none) : erase key entries = entries := by
  refine List.filter_eq_self.mpr fun found member => decide_eq_true ?_
  rintro rfl
  exact find_eq_none.mp absent (List.mem_map_of_mem member)

/-- Erasing takes the size that was found. -/
theorem total_erase (distinct : Distinct entries) (size : α → Nat)
    (found : find key entries = some entry) :
    total size (erase key entries) + size entry = total size entries := by
  induction entries with
  | nil => cases found
  | cons first rest ih =>
    obtain ⟨fresh, later⟩ := List.nodup_cons.mp distinct
    rw [find] at found
    split at found
    · rename_i here
      cases found
      have gone : erase key (first :: rest) = rest := by
        rw [erase, List.filter_cons_of_neg (by simpa using here)]
        exact erase_absent (find_eq_none.mpr (here ▸ fresh))
      rw [gone, total, total, List.map_cons, List.sum_cons, Nat.add_comm]
    · rename_i elsewhere
      have kept : erase key (first :: rest) = first :: erase key rest := by
        rw [erase, List.filter_cons_of_pos (by simpa using elsewhere), erase]
      have rest_total := ih later found
      rw [kept]
      simp only [total, List.map_cons, List.sum_cons] at rest_total ⊢
      omega

variable (key entry entries) in
theorem length_insert : (insert key entry entries).length +
    (if (find key entries).isSome then 1 else 0) = entries.length + 1 := by
  have sizes := total_insert entries key entry fun _ => 1
  rw [total_one, total_one] at sizes
  cases found : find key entries with
  | none => simpa [found] using sizes
  | some old => simpa [found] using sizes

variable (key entry) in
/-- Two entries are there afterwards exactly when one with another key was there before. -/
theorem two_le_length_insert (distinct : Distinct entries) :
    2 ≤ (insert key entry entries).length ↔ ∃ found ∈ entries, found.1 ≠ key := by
  have count := length_insert entries key entry
  have others : (∃ found ∈ entries, found.1 ≠ key) ↔ 0 < (erase key entries).length := by
    rw [List.length_pos_iff_exists_mem]
    simp [erase]
  rw [others]
  cases found : find key entries with
  | none =>
    rw [erase_absent found]
    simp only [found, Option.isSome_none, Bool.false_eq_true, if_false] at count
    omega
  | some old =>
    have fewer := total_erase distinct (fun _ => 1) found
    simp only [found, Option.isSome_some, if_true] at count
    simp only [total_one] at fewer
    omega

theorem length_erase (distinct : Distinct entries) (found : find key entries = some entry) :
    (erase key entries).length + 1 = entries.length := by
  simpa only [total_one] using total_erase distinct (fun _ => 1) found

/-! ## A running sum -/

/-- A machine word keeps the sum of the sizes of the entries. -/
structure Accounted (size : α → UInt64) (entries : List (κ × α)) (sum : UInt64) : Prop where
  distinct : Distinct entries
  sum_eq : sum.toNat = total (fun entry => (size entry).toNat) entries

variable {size : α → UInt64} {sum : UInt64}

omit [DecidableEq κ] in
theorem accounted_nil : Accounted size ([] : List (κ × α)) 0 := ⟨List.nodup_nil, rfl⟩

/-- What is taken from the sum for an entry that is found does not go below zero. -/
theorem Accounted.toNat_sub (accounted : Accounted size entries sum)
    (found : find key entries = some entry) :
    (sum - size entry).toNat + (size entry).toNat = sum.toNat := by
  have parts := total_erase accounted.distinct (fun entry => (size entry).toNat) found
  have within : size entry ≤ sum := by
    rw [UInt64.le_iff_toNat_le, accounted.sum_eq]
    omega
  rw [UInt64.toNat_sub_of_le _ _ within]
  exact Nat.sub_add_cancel (UInt64.le_iff_toNat_le.mp within)

theorem Accounted.erase (accounted : Accounted size entries sum)
    (found : find key entries = some entry) :
    Accounted size (erase key entries) (sum - size entry) where
  distinct := accounted.distinct.erase key
  sum_eq := by
    have parts := total_erase accounted.distinct (fun entry => (size entry).toNat) found
    have taken := accounted.toNat_sub found
    have kept := accounted.sum_eq
    omega

/-- Some of the entries go, and their sizes are taken from the sum before they do. -/
theorem Accounted.erase_all (going : List (κ × α)) (distinct : Distinct going)
    (accounted : Accounted size entries sum) (members : ∀ found ∈ going, found ∈ entries) :
    Accounted size ((going.map Prod.fst).foldl (fun entries key => Entries.erase key entries)
        entries) (going.foldl (fun sum found => sum - size found.2) sum) ∧
      (going.foldl (fun sum found => sum - size found.2) sum).toNat ≤ sum.toNat := by
  induction going generalizing entries sum with
  | nil => exact ⟨accounted, Nat.le_refl _⟩
  | cons first rest ih =>
    obtain ⟨fresh, later⟩ := List.nodup_cons.mp distinct
    have found : find first.1 entries = some first.2 :=
      find_of_mem accounted.distinct (members first List.mem_cons_self)
    obtain ⟨kept, less⟩ := ih later (accounted.erase found) fun other member => by
      refine List.mem_filter.mpr ⟨members other (List.mem_cons_of_mem first member), ?_⟩
      exact decide_eq_true fun same => fresh (same ▸ List.mem_map_of_mem member)
    exact ⟨kept, Nat.le_trans less (Nat.le.intro (accounted.toNat_sub found))⟩

/-- A sum without the size that is replaced stays a sum exactly when the new size fits in. -/
theorem accounted_insert_iff (distinct : Distinct entries) {rest : UInt64}
    (parts : rest.toNat + ((find key entries).map fun entry => (size entry).toNat).getD 0 =
      total (fun entry => (size entry).toNat) entries) :
    Accounted size (insert key entry entries) (rest + size entry) ↔
      rest.toNat + (size entry).toNat < 2 ^ 64 := by
  have stored := total_insert entries key entry fun entry => (size entry).toNat
  have value : total (fun entry => (size entry).toNat) (insert key entry entries) =
      rest.toNat + (size entry).toNat := by omega
  constructor
  · intro accounted
    rw [← value, ← accounted.sum_eq]
    exact UInt64.toNat_lt _
  · intro fits
    refine ⟨distinct.insert key entry, ?_⟩
    rw [value, UInt64.toNat_add, Nat.mod_eq_of_lt fits]

/-- Without a subtraction the sum is right exactly when the entry that is replaced had no size. -/
theorem Accounted.insert_iff (accounted : Accounted size entries sum) (key : κ) (entry : α) :
    Accounted size (insert key entry entries) (sum + size entry) ↔
      (∀ old, find key entries = some old → size old = 0) ∧
        sum.toNat + (size entry).toNat < 2 ^ 64 := by
  have stored := total_insert entries key entry fun entry => (size entry).toNat
  have kept := accounted.sum_eq
  cases found : find key entries with
  | none =>
    have parts : sum.toNat + ((find key entries).map fun entry => (size entry).toNat).getD 0 =
        total (fun entry => (size entry).toNat) entries := by
      rw [found]
      exact kept
    rw [accounted_insert_iff accounted.distinct parts]
    simp
  | some old =>
    simp only [Option.some.injEq, forall_eq']
    rw [found, Option.map_some, Option.getD_some] at stored
    constructor
    · intro after
      have value := after.sum_eq
      have small := UInt64.toNat_lt (size old)
      rw [UInt64.toNat_add] at value
      have fits : sum.toNat + (size entry).toNat < 2 ^ 64 := by omega
      refine ⟨UInt64.toNat_inj.mp ?_, fits⟩
      rw [Nat.mod_eq_of_lt fits] at value
      rw [UInt64.toNat_zero]
      omega
    · rintro ⟨nothing, fits⟩
      refine ⟨accounted.distinct.insert key entry, ?_⟩
      rw [nothing, UInt64.toNat_zero] at stored
      rw [UInt64.toNat_add, Nat.mod_eq_of_lt fits]
      omega

end QinDB.Base.Entries
