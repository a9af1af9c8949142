/-
# Base.Run — runs of a deterministic system

A system performs actions one after the other; `step` gives the answer and the
next state, or `none` when the action does not return. `run` performs a list of
actions, and `Meets` says that each of them finds a condition true in the state it
is performed in.

* `run_simulates`: a step that answers as a specification, in related states and
  under the condition, makes whole runs answer as the specification.
* `run_follows`: the same for a specification that only says what the answers do to it.
* `run_keeps`, `specRun_keeps`: what every step keeps holds after every run of a system that
  always returns.
* `meets_of_invariant`: with an invariant, one condition on the steps of a run gives another.
* `meets_iff_of_invariant`: two conditions that an invariant makes equivalent;
  `always_meets_iff`: the same for a system that always returns.
-/
import Mathlib.Logic.Basic

namespace QinDB.Base.Run

set_option autoImplicit false

variable {σ τ α β : Type}

/-- Perform the actions in order and collect the answers. -/
def run (step : σ → α → Option (β × σ)) : σ → List α → Option (List β × σ)
  | s, [] => some ([], s)
  | s, a :: as =>
      match step s a with
      | none => none
      | some (b, s') => (run step s' as).map fun (bs, s'') => (b :: bs, s'')

/-- Every action meets the condition `Ok` in the state it is performed in. -/
def Meets (step : σ → α → Option (β × σ)) (Ok : σ → α → Prop) : σ → List α → Prop
  | _, [] => True
  | s, a :: as => Ok s a ∧ ∀ b s', step s a = some (b, s') → Meets step Ok s' as

/-- The answers of a specification, which always returns. -/
def specRun (spec : τ → α → β × τ) : τ → List α → List β × τ
  | m, [] => ([], m)
  | m, a :: as =>
      let rest := specRun spec (spec m a).2 as
      ((spec m a).1 :: rest.1, rest.2)

/-- What a specification makes of actions and the answers they were given. -/
def follow (update : τ → α → β → τ) : τ → List α → List β → τ
  | m, a :: as, b :: bs => follow update (update m a b) as bs
  | m, _, _ => m

section Meets

variable {step : σ → α → Option (β × σ)} {Ok : σ → α → Prop}

theorem meets_cons_of_step {s s' : σ} {a : α} {as : List α} {b : β}
    (taken : step s a = some (b, s')) :
    Meets step Ok s (a :: as) ↔ Ok s a ∧ Meets step Ok s' as := by
  constructor
  · rintro ⟨here, later⟩
    exact ⟨here, later b s' taken⟩
  · rintro ⟨here, later⟩
    refine ⟨here, fun b' s'' taken' => ?_⟩
    cases taken.symm.trans taken'
    exact later

theorem meets_cons_of_none {s : σ} {a : α} {as : List α} (stuck : step s a = none) :
    Meets step Ok s (a :: as) ↔ Ok s a := by
  constructor
  · exact fun meets => meets.1
  · refine fun here => ⟨here, fun b s' taken => ?_⟩
    cases stuck.symm.trans taken

/-- Whether a run meets a decidable condition can be computed. -/
instance decidableMeets [∀ s a, Decidable (Ok s a)] :
    ∀ (as : List α) (s : σ), Decidable (Meets step Ok s as)
  | [], _ => .isTrue trivial
  | a :: as, s =>
      match taken : step s a with
      | none => decidable_of_iff (Ok s a) (meets_cons_of_none taken).symm
      | some (_, s') =>
          have := decidableMeets as s'
          decidable_of_iff (Ok s a ∧ Meets step Ok s' as) (meets_cons_of_step taken).symm

/-- A run that always returns and answers as the specification does. -/
theorem run_simulates {spec : τ → α → β × τ} {R : σ → τ → Prop}
    (steps : ∀ s m a, R s m → Ok s a →
      ∃ s', step s a = some ((spec m a).1, s') ∧ R s' (spec m a).2) :
    ∀ (as : List α) (s : σ) (m : τ), R s m → Meets step Ok s as →
      ∃ s', run step s as = some ((specRun spec m as).1, s') ∧ R s' (specRun spec m as).2
  | [], s, m, related, _ => ⟨s, rfl, related⟩
  | a :: as, s, m, related, ⟨here, later⟩ => by
      obtain ⟨s₁, taken, related₁⟩ := steps s m a related here
      obtain ⟨s₂, rest, related₂⟩ :=
        run_simulates steps as s₁ (spec m a).2 related₁ (later _ _ taken)
      refine ⟨s₂, ?_, related₂⟩
      simp only [run, taken, rest, Option.map_some, specRun]

/-- A run that always returns, and whose states are those of a specification that is told the
answers. -/
theorem run_follows {update : τ → α → β → τ} {R : σ → τ → Prop}
    (steps : ∀ s m a, R s m → Ok s a → ∃ b s', step s a = some (b, s') ∧ R s' (update m a b)) :
    ∀ (as : List α) (s : σ) (m : τ), R s m → Meets step Ok s as →
      ∃ bs s', run step s as = some (bs, s') ∧ R s' (follow update m as bs)
  | [], s, m, related, _ => ⟨[], s, rfl, related⟩
  | a :: as, s, m, related, ⟨here, later⟩ => by
      obtain ⟨b, s₁, taken, related₁⟩ := steps s m a related here
      obtain ⟨bs, s₂, rest, related₂⟩ :=
        run_follows steps as s₁ (update m a b) related₁ (later _ _ taken)
      refine ⟨b :: bs, s₂, ?_, related₂⟩
      simp only [run, taken, rest, Option.map_some]

/-- A run of a system that always returns. -/
theorem run_keeps {act : σ → α → β × σ} {Inv : σ → Prop}
    (kept : ∀ s a, Inv s → Ok s a → Inv (act s a).2) :
    ∀ (as : List α) (s : σ), Inv s → Meets (fun s a => some (act s a)) Ok s as →
      ∃ bs s', run (fun s a => some (act s a)) s as = some (bs, s') ∧ Inv s'
  | [], s, inv, _ => ⟨[], s, rfl, inv⟩
  | a :: as, s, inv, ⟨here, later⟩ => by
      obtain ⟨bs, s', rest, inv'⟩ :=
        run_keeps kept as (act s a).2 (kept s a inv here) (later _ _ rfl)
      refine ⟨(act s a).1 :: bs, s', ?_, inv'⟩
      simp only [run, rest, Option.map_some]

theorem specRun_keeps {act : σ → α → β × σ} {Inv : σ → Prop}
    (kept : ∀ s a, Inv s → Inv (act s a).2) :
    ∀ (as : List α) (s : σ), Inv s → Inv (specRun act s as).2
  | [], _, inv => inv
  | a :: as, s, inv => specRun_keeps kept as (act s a).2 (kept s a inv)

/-- The steps of a run that meets one condition meet another one. -/
theorem meets_of_invariant {Inv : σ → Prop} {P : σ → α → Prop}
    (steps : ∀ s a, Inv s → Ok s a → P s a ∧ ∀ b s', step s a = some (b, s') → Inv s') :
    ∀ (as : List α) (s : σ), Inv s → Meets step Ok s as → Meets step P s as
  | [], _, _, _ => trivial
  | a :: as, s, inv, ⟨here, later⟩ => by
      obtain ⟨holds, kept⟩ := steps s a inv here
      exact ⟨holds, fun b s' taken =>
        meets_of_invariant steps as s' (kept b s' taken) (later b s' taken)⟩

/-- An invariant under which two conditions are the same, kept by the steps that meet them. -/
theorem meets_iff_of_invariant {Inv : σ → Prop} {P : σ → α → Prop}
    (same : ∀ s a, Inv s → (P s a ↔ Ok s a))
    (kept : ∀ s a b s', Inv s → Ok s a → step s a = some (b, s') → Inv s') (as : List α) (s : σ)
    (inv : Inv s) : Meets step P s as ↔ Meets step Ok s as := by
  constructor
  · exact meets_of_invariant (fun s a inv holds => ⟨(same s a inv).mp holds, fun b s' taken =>
      kept s a b s' inv ((same s a inv).mp holds) taken⟩) as s inv
  · exact meets_of_invariant (fun s a inv ok => ⟨(same s a inv).mpr ok, fun b s' taken =>
      kept s a b s' inv ok taken⟩) as s inv

theorem always_meets_iff {act : σ → α → β × σ} (Inv : σ → Prop) {P : σ → α → Prop}
    (same : ∀ s a, Inv s → (P s a ↔ Ok s a))
    (kept : ∀ s a, Inv s → Ok s a → Inv (act s a).2) (as : List α) (s : σ) (inv : Inv s) :
    Meets (fun s a => some (act s a)) P s as ↔ Meets (fun s a => some (act s a)) Ok s as := by
  refine meets_iff_of_invariant same (fun s a b s' inv ok taken => ?_) as s inv
  have next : (act s a).2 = s' := congrArg Prod.snd (Option.some.inj taken)
  exact next ▸ kept s a inv ok

end Meets

end QinDB.Base.Run
