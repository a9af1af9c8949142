/-
# Base.Decoder — decoders on a stream that remembers a short read

A decoder takes values off a stream. A read that finds too little marks the stream and
goes on with a default, so whether a whole value was there is known only at the end. The
stream also counts what its decoders spend: iterations of their loops, and the bytes and
elements they ask for.

* `Reads d written value`: `d` takes `value` off what was written, whatever follows, and
  marks the stream on every proper prefix of it. `Reads.bind` and `Reads.forEach` compose.
* `forEach_fits`: where a loop gets back what was written, every item did.
* `Extends`: what is decoded without a mark does not change when more follows.
* `Spends`: what is spent is paid for by what is taken, up to a constant; `Spends.bind` and
  `Spends.forEach` add up.
-/
import Mathlib.Data.List.Infix

namespace QinDB.Base

set_option autoImplicit false

structure Stream (β : Type) where
  left : List β
  ok : Bool
  iterations : Nat
  requested : Nat
  deriving DecidableEq, Repr

abbrev Decoder (β α : Type) := StateM (Stream β) α

namespace Decoder

variable {β α γ δ : Type}

/-- A stream nothing has been read from. -/
def start (items : List β) : Stream β := ⟨items, true, 0, 0⟩

/-- Ask for room for `n` bytes or elements. -/
def request (n : Nat) : Decoder β Unit := fun s => ((), { s with requested := s.requested + n })

def tick : Decoder β Unit := fun s => ((), { s with iterations := s.iterations + 1 })

def forEach (body : γ → Decoder β α) : List γ → Decoder β (List α)
  | [] => pure []
  | x :: xs => do
      tick
      let first ← body x
      let rest ← forEach body xs
      pure (first :: rest)

/-- Decode a stream of its own, whose mark is not looked at. -/
def nested (items : List β) (d : Decoder β α) : Decoder β α := fun s =>
  let inner := d ⟨items, true, s.iterations, s.requested⟩
  (inner.1, { s with iterations := inner.2.iterations, requested := inner.2.requested })

theorem bind_apply (d : Decoder β α) (f : α → Decoder β δ) (s : Stream β) :
    (d >>= f) s = f (d s).1 (d s).2 := rfl

theorem pure_apply (value : α) (s : Stream β) : (pure value : Decoder β α) s = (value, s) := rfl

theorem length_forEach (body : γ → Decoder β α) (xs : List γ) (s : Stream β) :
    (forEach body xs s).1.length = xs.length := by
  induction xs generalizing s with
  | nil => rfl
  | cons x xs ih =>
    have rest := ih (body x (tick s).2).2
    exact congrArg (· + 1) rest

/-! ## Marks -/

/-- A marked stream stays marked. -/
def Sticky (d : Decoder β α) : Prop := ∀ s : Stream β, s.ok = false → (d s).2.ok = false

@[simp] theorem Sticky.pure (value : α) : Sticky (Pure.pure value : Decoder β α) := fun _ marked => marked

@[simp] theorem Sticky.bind {d : Decoder β α} {f : α → Decoder β δ} (first : Sticky d)
    (later : ∀ value, Sticky (f value)) : Sticky (d >>= f) :=
  fun s marked => later _ _ (first s marked)

@[simp] theorem Sticky.map {d : Decoder β α} (g : α → δ) (first : Sticky d) : Sticky (g <$> d) :=
  first.bind fun _ => .pure _

@[simp] theorem Sticky.ite {d e : Decoder β α} {p : Prop} [Decidable p] (first : Sticky d)
    (second : Sticky e) : Sticky (if p then d else e) := by
  split
  · exact first
  · exact second

@[simp] theorem Sticky.request (n : Nat) : Sticky (request n : Decoder β Unit) := fun _ marked => marked

@[simp] theorem Sticky.tick : Sticky (tick : Decoder β Unit) := fun _ marked => marked

@[simp] theorem Sticky.nested (items : List β) (d : Decoder β α) : Sticky (nested items d) :=
  fun _ marked => marked

@[simp] theorem Sticky.forEach {body : γ → Decoder β α} (each : ∀ x, Sticky (body x)) (xs : List γ) :
    Sticky (forEach body xs) := by
  induction xs with
  | nil => exact .pure _
  | cons x xs ih => exact Sticky.tick.bind fun _ => (each x).bind fun _ => ih.bind fun _ => .pure _

/-! ## Reading back -/

/-- What was written is read back and nothing more is taken; a proper prefix marks the stream. -/
structure Reads (d : Decoder β α) (written : List β) (value : α) : Prop where
  whole : ∀ {s : Stream β} {rest : List β}, s.ok = true → s.left = written ++ rest →
    (d s).1 = value ∧ (d s).2.left = rest ∧ (d s).2.ok = true
  cut : ∀ {s : Stream β}, s.ok = true → s.left <+: written → s.left ≠ written →
    (d s).2.ok = false

namespace Reads

variable {d : Decoder β α} {f : α → Decoder β δ} {written more : List β} {value : α} {last : δ}

theorem pure (value : α) : Reads (Pure.pure value : Decoder β α) [] value where
  whole ok front := ⟨rfl, front, ok⟩
  cut _ shorter proper := (proper (List.prefix_nil.mp shorter)).elim

theorem request (n : Nat) : Reads (request n : Decoder β Unit) [] () where
  whole ok front := ⟨rfl, front, ok⟩
  cut _ shorter proper := (proper (List.prefix_nil.mp shorter)).elim

theorem tick : Reads (tick : Decoder β Unit) [] () where
  whole ok front := ⟨rfl, front, ok⟩
  cut _ shorter proper := (proper (List.prefix_nil.mp shorter)).elim

theorem bind (first : Reads d written value) (later : Reads (f value) more last)
    (sticky : ∀ other, Sticky (f other)) : Reads (d >>= f) (written ++ more) last where
  whole ok front := by
    rw [List.append_assoc] at front
    obtain ⟨read, rest, fine⟩ := first.whole ok front
    rw [bind_apply, read]
    exact later.whole fine rest
  cut {s} ok shorter proper := by
    rw [bind_apply]
    by_cases enough : written <+: s.left
    · -- the first value is there, so the cut is in the second
      obtain ⟨rest, front⟩ := enough
      rw [← front] at shorter proper
      obtain ⟨read, left, fine⟩ := first.whole ok front.symm
      rw [read]
      refine later.cut fine ?_ ?_
      · rw [left]
        exact (List.prefix_append_right_inj written).mp shorter
      · rw [left]
        exact fun same => proper (congrArg (written ++ ·) same)
    · have before : s.left <+: written := by
        rcases List.prefix_or_prefix_of_prefix shorter (List.prefix_append written more) with h | h
        · exact h
        · exact (enough h).elim
      exact sticky _ _ (first.cut ok before fun same => enough (same ▸ List.prefix_rfl))

theorem bind_pure (first : Reads d written value) (g : α → δ) :
    Reads (d >>= fun x => Pure.pure (g x)) written (g value) := by
  have both : Reads (d >>= fun x => Pure.pure (g x)) (written ++ []) (g value) :=
    first.bind (.pure _) fun _ => .pure _
  rwa [List.append_nil] at both

/-- A loop reads back what was written item by item. -/
theorem forEach {body : γ → Decoder β α} (write : δ → List β) (given : δ → α) :
    ∀ {xs : List γ} {items : List δ}, xs.length = items.length →
      (∀ x ∈ xs, ∀ item ∈ items, Reads (body x) (write item) (given item)) →
      (∀ x, Sticky (body x)) →
      Reads (Decoder.forEach body xs) (items.flatMap write) (items.map given)
  | [], [], _, _, _ => .pure _
  | x :: xs, item :: items, lengths, each, sticky => by
      have first := each x List.mem_cons_self item List.mem_cons_self
      have rest := (forEach write given (Nat.succ.inj lengths) (fun y among later listed =>
        each y (List.mem_cons_of_mem _ among) later (List.mem_cons_of_mem _ listed))
        sticky).bind_pure (given item :: ·)
      exact tick.bind (first.bind rest (by simp [sticky]))
        fun _ => (sticky x).bind (by simp [sticky])

end Reads

/-- If a loop gives back what is seen of the items, each item was one that is read back. -/
theorem forEach_fits {ε : Type} {body : γ → Decoder β α} {write : δ → List β} (given : δ → α)
    (view : α → ε) {Fits : δ → Prop} {xs : List γ} {items : List δ}
    (reads : ∀ x ∈ xs, ∀ item, Fits item → Reads (body x) (write item) (given item))
    (needs : ∀ x ∈ xs, ∀ item, ∀ s : Stream β, ∀ rest, s.ok = true →
      s.left = write item ++ rest → view (body x s).1 = view (given item) → Fits item)
    {s : Stream β} {rest : List β} (ok : s.ok = true) (front : s.left = items.flatMap write ++ rest)
    (back : (forEach body xs s).1.map view = items.map fun item => view (given item)) :
    ∀ item ∈ items, Fits item := by
  induction xs generalizing items s with
  | nil =>
    have none_left := congrArg List.length back
    rw [List.length_map, length_forEach, List.length_map] at none_left
    rw [List.length_eq_zero_iff.mp none_left.symm]
    exact fun _ listed => nomatch listed
  | cons x xs ih =>
    cases items with
    | nil => exact fun _ listed => nomatch listed
    | cons item items =>
      rw [List.flatMap_cons, List.append_assoc] at front
      rw [List.map_cons] at back
      obtain ⟨here, later⟩ := List.cons.inj back
      have fits : Fits item := needs x List.mem_cons_self item (tick s).2 _ ok front here
      obtain ⟨-, left, fine⟩ := (reads x List.mem_cons_self item fits).whole
        (s := (tick s).2) ok front
      intro other listed
      rcases List.mem_cons.mp listed with rfl | among
      · exact fits
      · exact ih (fun y member => reads y (List.mem_cons_of_mem _ member))
          (fun y member => needs y (List.mem_cons_of_mem _ member)) fine left later other among

/-! ## Longer streams -/

/-- A mark stays; what is decoded without one is decoded the same way when more follows. -/
structure Extends (d : Decoder β α) : Prop where
  sticky : Sticky d
  longer : ∀ (s : Stream β) (more : List β), (d s).2.ok = true →
    d { s with left := s.left ++ more } = ((d s).1, { (d s).2 with left := (d s).2.left ++ more })

namespace Extends

variable {d : Decoder β α} {f : α → Decoder β δ}

theorem pure (value : α) : Extends (Pure.pure value : Decoder β α) := ⟨.pure _, fun _ _ _ => rfl⟩

theorem request (n : Nat) : Extends (request n : Decoder β Unit) := ⟨.request n, fun _ _ _ => rfl⟩

theorem tick : Extends (tick : Decoder β Unit) := ⟨.tick, fun _ _ _ => rfl⟩

theorem nested (items : List β) (d : Decoder β α) : Extends (nested items d) :=
  ⟨.nested items d, fun _ _ _ => rfl⟩

theorem bind (first : Extends d) (later : ∀ value, Extends (f value)) : Extends (d >>= f) where
  sticky := first.sticky.bind fun value => (later value).sticky
  longer s more fine := by
    have unmarked : (d s).2.ok = true := by
      by_contra marked
      exact absurd fine (by
        rw [bind_apply, (later _).sticky _ (Bool.eq_false_iff.mpr marked)]
        nofun)
    rw [bind_apply, first.longer s more unmarked]
    exact (later _).longer _ more fine

theorem ite {e : Decoder β α} {p : Prop} [Decidable p] (first : Extends d) (second : Extends e) :
    Extends (if p then d else e) := by
  split
  · exact first
  · exact second

theorem forEach {body : γ → Decoder β α} (each : ∀ x, Extends (body x)) (xs : List γ) :
    Extends (forEach body xs) := by
  induction xs with
  | nil => exact .pure _
  | cons x xs ih => exact tick.bind fun _ => (each x).bind fun _ => ih.bind fun _ => .pure _

end Extends

/-! ## Costs -/

/-- Iterations made, and bytes and elements asked for. -/
def spent (s : Stream β) : Nat := s.iterations + s.requested

/-- The decoder puts nothing back, and spends at most `extra` more than `c` for each item it takes. -/
def Spends (c extra : Nat) (d : Decoder β α) : Prop := ∀ s : Stream β,
  (d s).2.left.length ≤ s.left.length ∧
    spent (d s).2 + c * (d s).2.left.length ≤ spent s + c * s.left.length + extra

namespace Spends

variable {c extra more : Nat} {d : Decoder β α} {f : α → Decoder β δ}

theorem pure (value : α) : Spends c 0 (Pure.pure value : Decoder β α) :=
  fun _ => ⟨Nat.le_refl _, Nat.le_refl _⟩

theorem request (n : Nat) : Spends c n (request n : Decoder β Unit) := by
  refine fun s => ⟨Nat.le_refl _, ?_⟩
  simp only [spent, Decoder.request]
  omega

/-- What is decoded next may depend on the value before it. -/
theorem bind (first : Spends c extra d) (second : ∀ s, Spends c more (f (d s).1)) :
    Spends c (extra + more) (d >>= f) := by
  intro s
  have paid := first s
  have paid' := second s (d s).2
  rw [bind_apply]
  omega

theorem bind_free (first : Spends c extra d) (second : ∀ value, Spends c 0 (f value)) :
    Spends c extra (d >>= f) := first.bind fun _ => second _

theorem free_bind (first : Spends c 0 d) (second : ∀ s, Spends c more (f (d s).1)) :
    Spends c more (d >>= f) := by
  have both := first.bind second
  rwa [Nat.zero_add] at both

theorem ite {e : Decoder β α} {p : Prop} [Decidable p] (first : Spends c extra d)
    (second : Spends c extra e) : Spends c extra (if p then d else e) := by
  split
  · exact first
  · exact second

theorem extra_le (first : Spends c extra d) (enough : extra ≤ more) : Spends c more d := by
  intro s
  have paid := first s
  omega

/-- A loop spends one iteration and what its body spends for each of its items. -/
theorem forEach {body : γ → Decoder β α} (each : ∀ x, Spends c extra (body x)) (xs : List γ) :
    Spends c (xs.length * (1 + extra)) (forEach body xs) := by
  induction xs with
  | nil => exact (pure _).extra_le (Nat.zero_le _)
  | cons x xs ih =>
    intro s
    have first := each x (Decoder.tick s).2
    have later := ih (body x (Decoder.tick s).2).2
    have ticked : spent (Decoder.tick s).2 = spent s + 1 := Nat.add_right_comm _ _ _
    have same : (Decoder.tick s).2.left = s.left := rfl
    have last : (Decoder.forEach body (x :: xs) s).2 =
      (Decoder.forEach body xs (body x (Decoder.tick s).2).2).2 := rfl
    rw [ticked, same] at first
    rw [last, List.length_cons, Nat.succ_mul]
    omega

end Spends

end Decoder

end QinDB.Base
