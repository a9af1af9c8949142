/-
# Storage.Clock — the clock of the buffer pool

`BufferPoolManager::findVictim` of `buffer_pool_manager.cpp`: the hand of the clock goes
round the frames. The first round only moves the hand; the second one takes the first
unpinned frame that holds a page. The index of the frame is returned as an `int`, and twice
the number of frames is a 64-bit product.

* `findVictim_of_first`, `findVictim_of_none`: what a call does.
* `selects_iff`: the call finds the victim of the clock if and only if the index fits.
-/
import Mathlib.Algebra.Group.Nat.Defs
import Mathlib.Data.Nat.Find
import QinDB.Base.Loop
import QinDB.Core.Types

namespace QinDB.Storage

open QinDB.Base QinDB.Core

set_option autoImplicit false

structure Frame where
  pageId : PageId
  pinCount : Int
  deriving DecidableEq, Repr

structure BufferPoolManager where
  poolSize : Nat
  frames : Nat → Frame
  clockHand : Nat

/-- The variables of the loop, and the result of a `return` inside it. -/
structure Scan where
  clockHand : Nat
  numScanned : Nat
  victim : Option Int
  deriving DecidableEq, Repr

namespace BufferPoolManager

/-- One iteration, with the index of the frame it reads. -/
def scan (pool : BufferPoolManager) (s : Scan) : Option (Nat × Scan) :=
  if s.victim = none ∧ s.numScanned < pool.poolSize * 2 % 2 ^ 64 then
    let frame := pool.frames s.clockHand
    let clockHand := (s.clockHand + 1) % pool.poolSize
    let next : Scan := ⟨clockHand, s.numScanned + 1, none⟩
    some (s.clockHand,
      if frame.pinCount > 0 then next
      else if frame.pageId ≠ INVALID_PAGE_ID then
        if s.numScanned < pool.poolSize then next
        else ⟨clockHand, s.numScanned, some (Int.bmod s.clockHand (2 ^ 32))⟩
      else next)
  else none

/-- The frames that are read, the result and the pool after the call. -/
def findVictim (pool : BufferPoolManager) (fuel : Nat) :
    Option (List Nat × Int × BufferPoolManager) :=
  (Loop.loop pool.scan fuel ⟨pool.clockHand, 0, none⟩).map fun (visited, last) =>
    (visited, last.victim.getD (-1), { pool with clockHand := last.clockHand })

/-! ## The victim of the clock -/

/-- An unpinned frame that holds a page. -/
def Evictable (pool : BufferPoolManager) (i : Nat) : Prop :=
  ¬ 0 < (pool.frames i).pinCount ∧ (pool.frames i).pageId ≠ INVALID_PAGE_ID

instance (pool : BufferPoolManager) (i : Nat) : Decidable (pool.Evictable i) :=
  inferInstanceAs (Decidable (_ ∧ _))

/-- The frame the hand points to after `k` moves. -/
def ahead (pool : BufferPoolManager) (k : Nat) : Nat := (pool.clockHand + k) % pool.poolSize

/-- The first unpinned frame that holds a page is `j` places after the hand. -/
structure First (pool : BufferPoolManager) (j : Nat) : Prop where
  within : j < pool.poolSize
  evictable : pool.Evictable (pool.ahead j)
  earlier : ∀ k < j, ¬ pool.Evictable (pool.ahead k)

/-- What the replacement policy asks of a call. -/
structure Selects (pool : BufferPoolManager) (visited : List Nat) (victim : Int)
    (after : BufferPoolManager) : Prop where
  steps : visited.length ≤ 2 * pool.poolSize
  inside : ∀ i ∈ visited, i < pool.poolSize
  none_iff : victim = -1 ↔ ∀ i < pool.poolSize, ¬ pool.Evictable i
  first : (∃ i < pool.poolSize, pool.Evictable i) → ∃ j, pool.First j ∧ victim = pool.ahead j
  hand : after.clockHand < pool.poolSize

variable {pool : BufferPoolManager} {j k fuel : Nat}

theorem ahead_lt (some_frame : 0 < pool.poolSize) : pool.ahead k < pool.poolSize :=
  Nat.mod_lt _ some_frame

theorem ahead_round : pool.ahead (pool.poolSize + k) = pool.ahead k := by
  rw [ahead, ahead, Nat.add_left_comm, Nat.add_mod_left]

theorem ahead_succ : (pool.ahead k + 1) % pool.poolSize = pool.ahead (k + 1) := by
  rw [ahead, ahead, Nat.mod_add_mod, Nat.add_assoc]

/-- Every frame is ahead of the hand in the first round. -/
theorem exists_ahead (inside : pool.clockHand < pool.poolSize) {i : Nat}
    (frame : i < pool.poolSize) : ∃ k < pool.poolSize, pool.ahead k = i := by
  refine ⟨(i + (pool.poolSize - pool.clockHand)) % pool.poolSize, Nat.mod_lt _ (by omega), ?_⟩
  rw [ahead, Nat.add_mod_mod]
  have whole : pool.clockHand + (i + (pool.poolSize - pool.clockHand)) = i + pool.poolSize := by
    omega
  rw [whole, Nat.add_mod_right, Nat.mod_eq_of_lt frame]

theorem exists_first_iff (inside : pool.clockHand < pool.poolSize) :
    (∃ j, pool.First j) ↔ ∃ i < pool.poolSize, pool.Evictable i := by
  classical
  constructor
  · rintro ⟨j, first⟩
    exact ⟨_, ahead_lt (by omega), first.evictable⟩
  · rintro ⟨i, frame, evictable⟩
    obtain ⟨k, within, rfl⟩ := exists_ahead inside frame
    have found : ∃ k, pool.Evictable (pool.ahead k) := ⟨k, evictable⟩
    refine ⟨Nat.find found, ?_, Nat.find_spec found, fun _ => Nat.find_min found⟩
    exact Nat.lt_of_le_of_lt (Nat.find_min' found evictable) within

theorem First.unique {j' : Nat} (first : pool.First j) (other : pool.First j') : j = j' := by
  rcases Nat.lt_trichotomy j j' with less | same | more
  · exact absurd first.evictable (other.earlier j less)
  · exact same
  · exact absurd other.evictable (first.earlier j' more)

/-! ## Runs -/

/-- The state after `k` iterations that return nothing. -/
def scanned (pool : BufferPoolManager) (k : Nat) : Scan := ⟨pool.ahead k, k, none⟩

theorem scan_of_pass (more : k < pool.poolSize * 2 % 2 ^ 64)
    (pass : k < pool.poolSize ∨ ¬ pool.Evictable (pool.ahead k)) :
    pool.scan (pool.scanned k) = some (pool.ahead k, pool.scanned (k + 1)) := by
  rw [scan, if_pos ⟨rfl, more⟩]
  simp only [scanned, ahead_succ]
  congr 2
  split
  · rfl
  · split
    · rcases pass with first_round | not_evictable
      · exact if_pos first_round
      · exact absurd ⟨‹_›, ‹_›⟩ not_evictable
    · rfl

theorem scan_of_evictable (more : k < pool.poolSize * 2 % 2 ^ 64) (second_round : pool.poolSize ≤ k)
    (evictable : pool.Evictable (pool.ahead k)) : pool.scan (pool.scanned k) =
      some (pool.ahead k, ⟨pool.ahead (k + 1), k, some (Int.bmod (pool.ahead k) (2 ^ 32))⟩) := by
  rw [scan, if_pos ⟨rfl, more⟩]
  simp only [scanned, ahead_succ]
  rw [if_neg evictable.1, if_pos evictable.2, if_neg (by omega)]

theorem scanned_zero (inside : pool.clockHand < pool.poolSize) :
    pool.scanned 0 = ⟨pool.clockHand, 0, none⟩ := by
  rw [scanned, ahead, Nat.add_zero, Nat.mod_eq_of_lt inside]

variable {steps : Nat}

/-- The loop runs to its end. -/
theorem findVictim_of_left (inside : pool.clockHand < pool.poolSize)
    (passes : ∀ k < steps, pool.scan (pool.scanned k) = some (pool.ahead k, pool.scanned (k + 1)))
    (left : pool.scan (pool.scanned steps) = none) (enough : steps < fuel) :
    pool.findVictim fuel = some ((List.range steps).map pool.ahead, -1,
      { pool with clockHand := pool.ahead steps }) := by
  obtain ⟨rest, rfl⟩ : ∃ rest, fuel = rest + 1 + steps := ⟨fuel - 1 - steps, by omega⟩
  rw [findVictim, ← scanned_zero inside, Loop.loop_along _ _ _ passes, Loop.loop_succ_of_none left]
  simp only [Option.map_some, List.append_nil]
  rfl

/-- The loop returns a frame. -/
theorem findVictim_of_returned (inside : pool.clockHand < pool.poolSize)
    (passes : ∀ k < steps, pool.scan (pool.scanned k) = some (pool.ahead k, pool.scanned (k + 1)))
    {i hand : Nat} {victim : Int}
    (returned : pool.scan (pool.scanned steps) = some (i, ⟨hand, steps, some victim⟩))
    (enough : steps + 1 < fuel) : pool.findVictim fuel =
      some ((List.range steps).map pool.ahead ++ [i], victim, { pool with clockHand := hand }) := by
  obtain ⟨rest, rfl⟩ : ∃ rest, fuel = rest + 1 + 1 + steps := ⟨fuel - 2 - steps, by omega⟩
  have left : pool.scan ⟨hand, steps, some victim⟩ = none := if_neg fun going => nomatch going.1
  rw [findVictim, ← scanned_zero inside, Loop.loop_along _ _ _ passes,
    Loop.loop_succ_of_some returned, Loop.loop_succ_of_none left]
  rfl

/-- Nothing is found in the second round, or it is not reached. -/
theorem findVictim_of_none (inside : pool.clockHand < pool.poolSize)
    (none_found : ∀ k, pool.poolSize ≤ k → k < pool.poolSize * 2 % 2 ^ 64 →
      ¬ pool.Evictable (pool.ahead k)) (enough : pool.poolSize * 2 % 2 ^ 64 < fuel) :
    pool.findVictim fuel = some ((List.range (pool.poolSize * 2 % 2 ^ 64)).map pool.ahead, -1,
      { pool with clockHand := pool.ahead (pool.poolSize * 2 % 2 ^ 64) }) := by
  refine findVictim_of_left inside (fun k more => scan_of_pass more ?_)
    (if_neg fun going => Nat.lt_irrefl _ going.2) enough
  by_cases first_round : k < pool.poolSize
  · exact .inl first_round
  · exact .inr (none_found k (by omega) more)

/-- The first frame ahead of the hand is found in the second round. -/
theorem findVictim_of_first (inside : pool.clockHand < pool.poolSize)
    (fits : pool.poolSize < 2 ^ 63) (first : pool.First j) (enough : 2 * pool.poolSize < fuel) :
    pool.findVictim fuel = some ((List.range (pool.poolSize + j)).map pool.ahead ++ [pool.ahead j],
      Int.bmod (pool.ahead j) (2 ^ 32), { pool with clockHand := pool.ahead (j + 1) }) := by
  have within := first.within
  have returned := scan_of_evictable (by omega : pool.poolSize + j < pool.poolSize * 2 % 2 ^ 64)
    (by omega) (by rw [ahead_round]; exact first.evictable)
  rw [Nat.add_assoc, ahead_round, ahead_round] at returned
  refine findVictim_of_returned inside (fun k below => scan_of_pass (by omega) ?_) returned
    (by omega)
  by_cases first_round : k < pool.poolSize
  · exact .inl first_round
  · obtain ⟨before, rfl⟩ : ∃ before, k = pool.poolSize + before := ⟨k - pool.poolSize, by omega⟩
    rw [ahead_round]
    exact .inr (first.earlier before (by omega))

/-- A number that is not below `2 ^ 31` is not its `int`. -/
theorem bmod_eq_self_iff (i : Nat) : Int.bmod i (2 ^ 32) = i ↔ i < 2 ^ 31 := by
  constructor
  · intro same
    have small : Int.bmod i (2 ^ 32) < (2 ^ 32 + 1) / 2 := Int.bmod_lt (by decide)
    omega
  · intro small
    rw [Int.bmod_def]
    omega

theorem visited_lt (some_frame : 0 < pool.poolSize) (steps : Nat) :
    ∀ i ∈ (List.range steps).map pool.ahead, i < pool.poolSize := by
  rintro i member
  obtain ⟨k, -, rfl⟩ := List.mem_map.mp member
  exact ahead_lt some_frame

/-- A call returns the victim of the clock after at most two rounds if and only if the index of the
victim is an `int`, and twice the number of frames does not wrap around. -/
theorem selects_iff (inside : pool.clockHand < pool.poolSize) :
    (∃ visited victim after,
      (∀ fuel > 2 * pool.poolSize, pool.findVictim fuel = some (visited, victim, after)) ∧
        pool.Selects visited victim after) ↔
      ∀ j, pool.First j → pool.ahead j < 2 ^ 31 ∧ pool.poolSize < 2 ^ 63 := by
  have some_frame : 0 < pool.poolSize := by omega
  have twice : pool.poolSize * 2 % 2 ^ 64 ≤ 2 * pool.poolSize := by
    rw [Nat.mul_comm]
    exact Nat.mod_le _ _
  constructor
  · rintro ⟨visited, victim, after, returns, selects⟩ j first
    obtain ⟨j', first', found⟩ := selects.first ⟨_, ahead_lt some_frame, first.evictable⟩
    cases first.unique first'
    by_cases fits : pool.poolSize < 2 ^ 63
    · have returned := (returns _ (Nat.lt_succ_self _)).symm.trans
        (findVictim_of_first inside fits first (Nat.lt_succ_self _))
      simp only [Option.some.injEq, Prod.mk.injEq] at returned
      rw [← bmod_eq_self_iff, ← returned.2.1]
      exact ⟨found, fits⟩
    · -- the scan stops in the first round
      have returned := (returns _ (Nat.lt_succ_self _)).symm.trans
        (findVictim_of_none inside (fun k second below => by omega) (by omega))
      simp only [Option.some.injEq, Prod.mk.injEq] at returned
      omega
  · intro fits
    by_cases some_victim : ∃ j, pool.First j
    · obtain ⟨j, first⟩ := some_victim
      obtain ⟨index, size⟩ := fits j first
      have within := first.within
      refine ⟨_, _, _, fun fuel enough => findVictim_of_first inside size first enough, ?_⟩
      rw [(bmod_eq_self_iff _).mpr index]
      exact {
        steps := by simp only [List.length_append, List.length_map, List.length_range,
          List.length_singleton]; omega
        inside := fun i member => by
          rcases List.mem_append.mp member with before | last
          · exact visited_lt some_frame _ i before
          · rw [List.mem_singleton.mp last]
            exact ahead_lt some_frame
        none_iff := ⟨fun none => by omega,
          fun none => absurd first.evictable (none _ (ahead_lt some_frame))⟩
        first := fun _ => ⟨j, first, rfl⟩
        hand := ahead_lt some_frame }
    · have none : ∀ i < pool.poolSize, ¬ pool.Evictable i := fun i frame evictable =>
        some_victim ((exists_first_iff inside).mpr ⟨i, frame, evictable⟩)
      refine ⟨_, _, _, fun fuel enough => findVictim_of_none inside
        (fun k _ _ => none _ (ahead_lt some_frame)) (by omega), ?_⟩
      exact {
        steps := by rw [List.length_map, List.length_range]; exact twice
        inside := visited_lt some_frame _
        none_iff := iff_of_true rfl none
        first := fun ⟨i, frame, evictable⟩ => absurd evictable (none i frame)
        hand := ahead_lt some_frame }

/-- An unused frame, a page and a pinned page the hand points to. -/
def smallPool : BufferPoolManager := ⟨3, fun i => ⟨i, if i = 2 then 1 else 0⟩, 2⟩

theorem selects_iff_small : ∃ visited victim after,
    (∀ fuel > 2 * smallPool.poolSize, smallPool.findVictim fuel = some (visited, victim, after)) ∧
      smallPool.Selects visited victim after :=
  (selects_iff (by decide)).mpr fun _ _ =>
    ⟨Nat.lt_trans (ahead_lt (by decide)) (by decide), by decide⟩

/-- Every frame holds a page, and all but the last one are pinned. -/
def widePool : BufferPoolManager := ⟨2 ^ 31 + 1, fun i => ⟨i + 1, if i < 2 ^ 31 then 1 else 0⟩, 0⟩

/-- The victim is frame 2147483648, and the call returns a negative number. -/
theorem wide_pool_negative : widePool.First (2 ^ 31) ∧ widePool.ahead (2 ^ 31) = 2147483648 ∧
    ∃ visited after, ∀ fuel > 2 * widePool.poolSize,
      widePool.findVictim fuel = some (visited, -2147483648, after) := by
  have pinned : ∀ k < 2 ^ 31, ¬ widePool.Evictable (widePool.ahead k) := by
    intro k before evictable
    have here : widePool.ahead k = k := by
      show (0 + k) % (2 ^ 31 + 1) = k
      omega
    have pins : (widePool.frames k).pinCount = 1 := if_pos before
    rw [here] at evictable
    exact evictable.1 (by rw [pins]; decide)
  have first : widePool.First (2 ^ 31) := ⟨by decide, by decide, pinned⟩
  have index : widePool.ahead (2 ^ 31) = 2147483648 := by decide
  have victim : Int.bmod (widePool.ahead (2 ^ 31)) (2 ^ 32) = -2147483648 := by
    rw [index]
    decide
  have returns : ∀ fuel > 2 * widePool.poolSize, widePool.findVictim fuel = _ := fun fuel enough =>
    findVictim_of_first (by decide) (by decide) first enough
  rw [victim] at returns
  exact ⟨first, index, _, _, returns⟩

end BufferPoolManager

end QinDB.Storage
