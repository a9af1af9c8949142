/-
# Auth.BlockMixing — the words that the permutation of a block reaches

`Argon2id::fillBlock` combines a block with its permutation. `permute` mixes the lower half of
the first four rows of sixteen words, 32 of the 128 words. The other words are left as they
are, so the combination cancels them.

* `permute_rel`: what every mixing step keeps, the permutation keeps.
* `covers`: the words that the combination reaches, and those that it ignores.
-/
import QinDB.Auth.Argon2id
import QinDB.Auth.PackedMixing

namespace QinDB.Auth.Argon2id

open QinDB.Base.Packed QinDB.Auth.Blake2b

set_option autoImplicit false

/-- A block combined with its permutation. -/
def combine (r : Block) : Block := xorBlock r (permute r)

theorem fillBlock_eq (prev ref next : Block) :
    fillBlock prev ref next false = combine (xorBlock prev ref) ∧
      fillBlock prev ref next true = xorBlock next (combine (xorBlock prev ref)) := by
  refine ⟨rfl, funext fun i => ?_⟩
  exact UInt64.xor_assoc _ _ _

/-- The places that `permute` mixes. -/
def Mixed (i : Fin QWORDS_IN_BLOCK) : Prop := i.val < 64 ∧ i.val % 16 < 8

instance (i : Fin QWORDS_IN_BLOCK) : Decidable (Mixed i) := inferInstanceAs (Decidable (_ ∧ _))

theorem mixed_place (row : Fin 4) (column : Fin 8) : Mixed (place row column) := by
  unfold Mixed place
  dsimp only
  omega

/-! ## Steps -/

theorem permute_rel {σ : Type} {f : σ → (i₁ i₂ i₃ i₄ : Fin QWORDS_IN_BLOCK) → σ}
    {P : Block → σ → Prop} {block : Block} {s : σ}
    (kept : ∀ block s i₁ i₂ i₃ i₄, Mixed i₁ → Mixed i₂ → Mixed i₃ → Mixed i₄ → P block s →
      P (mix block i₁ i₂ i₃ i₄) (f s i₁ i₂ i₃ i₄)) (first : P block s) :
    P (permute block) (permuteWith f s) := by
  have places := mixed_place
  refine List.foldl_rel first fun _ _ block s before => ?_
  refine List.foldl_rel (List.foldl_rel before fun j _ block s before => ?_)
    fun j _ block s before => ?_
  · exact kept block s _ _ _ _ (places 0 j) (places 1 j) (places 2 j) (places 3 j) before
  · exact kept block s _ _ _ _ (places 0 j) (places 1 _) (places 2 _) (places 3 _) before

/-- A word that is not mixed stays. -/
theorem permute_unmixed (block : Block) {i : Fin QWORDS_IN_BLOCK} (unmixed : ¬ Mixed i) :
    permute block i = block i := by
  refine permute_rel (P := fun r (s : Block) => r i = s i) (f := fun s _ _ _ _ => s)
    (fun r s i₁ i₂ i₃ i₄ m₁ m₂ m₃ m₄ same => ?_) rfl
  have apart : ∀ k, Mixed k → i ≠ k := fun k mixed equal => unmixed (equal ▸ mixed)
  rw [mix, Function.update_of_ne (apart _ m₄), Function.update_of_ne (apart _ m₃),
    Function.update_of_ne (apart _ m₂), Function.update_of_ne (apart _ m₁)]
  exact same

/-- Two blocks with the same words at the mixed places. -/
def Agree (r s : Block) : Prop := ∀ k, Mixed k → r k = s k

theorem Agree.update {r s : Block} (agree : Agree r s) (i : Fin QWORDS_IN_BLOCK) (x : UInt64) :
    Agree (Function.update r i x) (Function.update s i x) := by
  intro k mixed
  rw [Function.update_apply, Function.update_apply, agree k mixed]

/-- The mixed words depend on the mixed words only. -/
theorem Agree.permute {r s : Block} (agree : Agree r s) : Agree (permute r) (permute s) := by
  refine permute_rel (P := Agree) (fun r s i₁ i₂ i₃ i₄ m₁ m₂ m₃ m₄ agree => ?_) agree
  unfold mix
  rw [agree i₁ m₁, agree i₂ m₂, agree i₃ m₃, agree i₄ m₄]
  exact (((agree.update _ _).update _ _).update _ _).update _ _

theorem combine_unmixed (r : Block) {i : Fin QWORDS_IN_BLOCK} (unmixed : ¬ Mixed i) :
    combine r i = 0 := by
  rw [combine, xorBlock, permute_unmixed r unmixed, UInt64.xor_self]

theorem Agree.combine {r s : Block} (agree : Agree r s) : combine r = combine s := by
  funext k
  by_cases mixed : Mixed k
  · rw [Argon2id.combine, Argon2id.combine, xorBlock, xorBlock, agree k mixed,
      agree.permute k mixed]
  · rw [combine_unmixed r mixed, combine_unmixed s mixed]

/-! ## Evaluation -/

/-- The words of a block, and zeros behind it. -/
def blockWords (r : Block) (i : Nat) : UInt64 :=
  if inside : i < QWORDS_IN_BLOCK then r ⟨i, inside⟩ else 0

theorem blockWords_val (r : Block) (i : Fin QWORDS_IN_BLOCK) : blockWords r i = r i :=
  dif_pos i.isLt

theorem blockWords_update (r : Block) (i : Fin QWORDS_IN_BLOCK) (x : UInt64) :
    blockWords (Function.update r i x) = Function.update (blockWords r) i x := by
  funext k
  by_cases inside : k < QWORDS_IN_BLOCK
  · simp only [blockWords, dif_pos inside, Function.update_apply, Fin.ext_iff]
  · have other : k ≠ i := fun same => inside (same ▸ i.isLt)
    rw [Function.update_of_ne other, blockWords, blockWords, dif_neg inside, dif_neg inside]

/-- The permutation of a packed block. -/
def permutePacked : Nat → Nat := permuteWith fun v i₁ i₂ i₃ i₄ => quarter v i₁ i₂ i₃ i₄ 0 0

theorem packs_permute {v : Nat} {r : Block} (packs : Packs v (blockWords r)) :
    Packs (permutePacked v) (blockWords (permute r)) := by
  refine permute_rel (P := fun r v => Packs v (blockWords r))
    (fun r v i₁ i₂ i₃ i₄ _ _ _ _ packs => ?_) packs
  have step := Packs.quarter packs i₁ i₂ i₃ i₄ 0 0
  rw [mix]
  simp only [blockWords_update, ← blockWords_val r]
  simpa only [quarterWords, UInt64.add_zero, UInt64.toNat_zero] using step

/-- A word of the combination, on numbers. -/
theorem toNat_combine {v : Nat} {r : Block} (packs : Packs v (blockWords r))
    (k : Fin QWORDS_IN_BLOCK) :
    (combine r k).toNat = word v k ^^^ word (permutePacked v) k := by
  rw [packs, packs_permute packs, blockWords_val, blockWords_val, ← UInt64.toNat_xor]
  rfl

theorem packs_clear : Packs 0 (blockWords fun _ => 0) := by
  intro k
  rw [blockWords, word, Nat.zero_shiftRight, Nat.zero_mod]
  split <;> rfl

theorem combine_clear (k : Fin QWORDS_IN_BLOCK) : combine (fun _ => 0) k = 0 := by
  have permuted : permutePacked 0 = 0 := by decide +kernel
  rw [← UInt64.toNat_inj, toNat_combine packs_clear, permuted, Nat.xor_self]
  rfl

/-- A block with one word that is not zero. -/
def single (i : Fin QWORDS_IN_BLOCK) (x : UInt64) : Block := Function.update (fun _ => 0) i x

theorem toNat_combine_single (i k : Fin QWORDS_IN_BLOCK) : (combine (single i 1) k).toNat =
    word (put 0 i 1) k ^^^ word (permutePacked (put 0 i 1)) k := by
  refine toNat_combine ?_ k
  rw [single, blockWords_update]
  exact packs_clear.put i 1

/-- The lowest bit of a mixed word reaches the first word, and that of the first word reaches
every mixed word. -/
theorem combine_single {i : Fin QWORDS_IN_BLOCK} (mixed : Mixed i) :
    combine (single i 1) ⟨0, by decide⟩ ≠ 0 ∧ combine (single ⟨0, by decide⟩ 1) i ≠ 0 := by
  have reached : ∀ i : Fin QWORDS_IN_BLOCK, Mixed i →
      word (put 0 i 1) 0 ^^^ word (permutePacked (put 0 i 1)) 0 ≠ 0 ∧
      word (put 0 0 1) i ^^^ word (permutePacked (put 0 0 1)) i ≠ 0 := by decide +kernel
  rw [ne_eq, ne_eq, ← UInt64.toNat_inj, ← UInt64.toNat_inj, toNat_combine_single,
    toNat_combine_single]
  exact reached i mixed

/-! ## Coverage -/

/-- A word that is not mixed has no effect on the combination. -/
theorem combine_update_unmixed {i : Fin QWORDS_IN_BLOCK} (unmixed : ¬ Mixed i) (r : Block)
    (x : UInt64) : combine (Function.update r i x) = combine r := by
  refine Agree.combine fun k mixed => Function.update_of_ne ?_ x r
  rintro rfl
  exact unmixed mixed

/-- The words that the combination depends on and the words of it that are not constant are the
mixed ones. A change of a mixed word changes the combination if the other mixed words are zero. -/
theorem covers (i : Fin QWORDS_IN_BLOCK) :
    ((∃ r s, combine r i ≠ combine s i) ↔ Mixed i) ∧
    ∀ r : Block, ((∃ x, combine (Function.update r i x) ≠ combine r) → Mixed i) ∧
      ((∀ k, Mixed k → k ≠ i → r k = 0) → Mixed i →
        ∃ x, combine (Function.update r i x) ≠ combine r) := by
  refine ⟨⟨?_, fun mixed => ?_⟩, fun r => ⟨?_, fun zeros mixed => ?_⟩⟩
  · rintro ⟨r, s, differ⟩
    by_contra unmixed
    exact differ (by rw [combine_unmixed r unmixed, combine_unmixed s unmixed])
  · refine ⟨single ⟨0, by decide⟩ 1, fun _ => 0, ?_⟩
    rw [combine_clear]
    exact (combine_single mixed).2
  · rintro ⟨x, differ⟩
    by_contra unmixed
    exact differ (combine_update_unmixed unmixed r x)
  · by_contra none
    have same : ∀ x, combine (Function.update r i x) = combine r := fun x =>
      by_contra fun differ => none ⟨x, differ⟩
    -- with the other words at zero, the blocks with the values 0 and 1 would agree
    have all : ∀ x, combine (single i x) = combine r := fun x => by
      rw [← same x]
      refine Agree.combine fun k mixed' => ?_
      rw [single, Function.update_apply, Function.update_apply]
      split
      · rfl
      · exact (zeros k mixed' ‹_›).symm
    have clear : single i 0 = fun _ => 0 := Function.update_eq_self i _
    apply (combine_single mixed).1
    rw [all 1, ← all 0, clear, combine_clear]

/-- Word 8 is not mixed: no change of it changes the combination of the zero block, and word 8 of
every combination is the same. -/
theorem word_eight_ignored :
    (¬ ∃ x, combine (Function.update (fun _ => 0) ⟨8, by decide⟩ x) ≠ combine fun _ => 0) ∧
      ¬ ∃ r s, combine r ⟨8, by decide⟩ ≠ combine s ⟨8, by decide⟩ := by
  have unmixed : ¬ Mixed ⟨8, by decide⟩ := by decide
  constructor
  · rintro ⟨x, differ⟩
    exact differ (combine_update_unmixed unmixed _ x)
  · rintro ⟨r, s, differ⟩
    exact differ (by rw [combine_unmixed r unmixed, combine_unmixed s unmixed])

end QinDB.Auth.Argon2id
