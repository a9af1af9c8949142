/-
# Network.DecodingCost — what the decoders spend on a payload

Lengths and counts are taken from the payload before it is known whether the bytes they
announce are there: a text is resized to its length, columns and rows are reserved and
looped over by their counts. Only the width of the fields bounds them: a length costs
four bytes of the payload and asks for less than `2 ^ 32`, and after the end of the payload
every field is read as zero. The two counts of a response are not paid for by bytes.

* `decoders_cost_bounded`: a constant for each byte, and the same constant once.
* `length_le_spent`: what a length announces is asked for, so the constant is that large.
-/
import QinDB.Network.QueryResponse

namespace QinDB.Network

open QinDB.Base QinDB.Base.Decoder QinDB.Core QinDB.Storage

set_option autoImplicit false

/-- The iterations made and the bytes and elements asked for while a payload is decoded. -/
def decodingCost {α : Type} (fields : Decoder UInt8 α) (payload : Bytes) : Nat :=
  if payload.isEmpty then 0 else spent (fields (start payload)).2

variable {memory : Nat → UInt8} {c : Nat} {α : Type}

theorem spends_readUInt (w : Nat) : Spends c 0 (readUInt w) := by
  intro s
  have shorter : (readUInt w s).2.left.length ≤ s.left.length := by
    simp only [readUInt, streamRead]
    split
    · exact Nat.zero_le _
    · exact List.length_drop ▸ Nat.sub_le _ _
  exact ⟨shorter, Nat.add_le_add_left (Nat.mul_le_mul_left c shorter) _⟩

theorem spends_readArray (length : Nat) : Spends c length (readArray memory length) := by
  refine (Spends.request length).bind_free fun _ s => ?_
  have shorter : (s.left.drop length).length ≤ s.left.length := List.length_drop ▸ Nat.sub_le _ _
  exact ⟨shorter, Nat.add_le_add_left (Nat.mul_le_mul_left c shorter) _⟩

/-- A length that is there has taken four bytes, which pay for what follows; one that is not there is
zero. -/
theorem spends_announced {f : Nat → Decoder UInt8 α} (zero : Spends c 0 (f 0))
    (each : ∀ n < 2 ^ 32, Spends c (4 * c) (f n)) : Spends c 0 (readUInt 4 >>= f) := by
  intro s
  by_cases short : s.left.length < 4
  · have read : readUInt 4 s = (0, { s with left := [], ok := false }) := by
      simp only [readUInt, streamRead, if_pos short, decide_eq_false (not_le.mpr short), Bool.and_false]
    have paid := zero { s with left := [], ok := false }
    have same : spent { s with left := ([] : Bytes), ok := false } = spent s := rfl
    rw [same, List.length_nil] at paid
    rw [bind_apply, read]
    dsimp only
    omega
  · rcases read : readUInt 4 s with ⟨n, later⟩
    have number : (readUInt 4 s).1 < 2 ^ 32 := streamRead_lt 4 s.left
    have left : (readUInt 4 s).2.left = s.left.drop 4 := by
      simp only [readUInt, streamRead, if_neg short]
    have same : spent (readUInt 4 s).2 = spent s := rfl
    rw [read] at number left same
    have paid := each n number later
    obtain ⟨length, sized⟩ := Nat.exists_eq_add_of_le (not_lt.mp short)
    rw [left, same, List.length_drop, sized, Nat.add_sub_cancel_left] at paid
    rw [bind_apply, read, sized, Nat.mul_add, Nat.mul_comm c 4]
    dsimp only
    omega

theorem spends_decodeString (enough : 2 ^ 32 ≤ 4 * c) : Spends c 0 (decodeString memory) := by
  refine spends_announced (Spends.pure _) fun n small => ?_
  refine Spends.ite ((Spends.pure _).extra_le (Nat.zero_le _)) ?_
  exact ((spends_readArray n).bind_free fun _ => Spends.pure _).extra_le (by omega)

/-- A text asks for less than `2 ^ 32` bytes, whatever its bytes are. -/
theorem spent_decodeString_le (s : Stream UInt8) :
    spent (decodeString memory s).2 ≤ spent s + 2 ^ 32 := by
  have free : Spends 0 (2 ^ 32) (decodeString memory) := by
    refine (spends_readUInt 4).free_bind fun s => ?_
    refine Spends.ite ((Spends.pure _).extra_le (Nat.zero_le _)) ?_
    exact ((spends_readArray _).bind_free fun _ => Spends.pure _).extra_le (streamRead_lt 4 s.left).le
  have paid := (free s).2
  omega

theorem spends_nested_decodeData (type : UInt8) (data : Bytes) :
    Spends c (2 ^ 32) (nested data (decodeData memory type)) := by
  intro s
  have inner : spent (decodeData memory type ⟨data, true, s.iterations, s.requested⟩).2 ≤
      spent s + 2 ^ 32 := by
    unfold decodeData
    split
    · exact Nat.le_add_right _ _
    split
    · exact Nat.le_add_right _ _
    split
    · exact Nat.le_add_right _ _
    · exact spent_decodeString_le ⟨data, true, s.iterations, s.requested⟩
  refine ⟨Nat.le_refl _, ?_⟩
  change spent (decodeData memory type ⟨data, true, s.iterations, s.requested⟩).2 + c * s.left.length ≤ _
  omega

theorem spends_decodeCell (enough : 2 ^ 31 ≤ c) (type : UInt8) : Spends c 0 (decodeCell memory type) := by
  refine (spends_readUInt 1).free_bind fun _ => Spends.ite (Spends.pure _) ?_
  refine spends_announced (Spends.pure _) fun n small => ?_
  refine Spends.ite ((Spends.pure _).extra_le (Nat.zero_le _)) ?_
  exact ((spends_readArray n).bind fun _ => spends_nested_decodeData type _).extra_le (by omega)

theorem spends_decodeColumns (enough : 2 ^ 31 ≤ c) (count : Nat) :
    Spends c (count + count) (decodeColumns memory count) := by
  have column : Spends c 0 (decodeColumn memory) :=
    (spends_decodeString (by omega)).bind_free fun _ => (spends_readUInt 1).bind_free fun _ => Spends.pure _
  have loop := Spends.forEach (fun _ => column) (List.replicate count ())
  rw [List.length_replicate, Nat.mul_one] at loop
  exact (Spends.request count).bind fun _ => loop

theorem spends_decodeRows (enough : 2 ^ 31 ≤ c) (columns : List ColumnInfo) (count : Nat) :
    Spends c (count + count * (1 + (columns.length + columns.length))) (decodeRows memory columns count) := by
  have row : Spends c (columns.length + columns.length) (decodeRow memory columns) := by
    have cell (column : ColumnInfo) : Spends c 0 (decodeCell memory column.type) :=
      spends_decodeCell enough column.type
    have loop := Spends.forEach cell columns
    rw [Nat.mul_one] at loop
    exact (Spends.request columns.length).bind fun _ => loop
  have loop := Spends.forEach (fun _ => row) (List.replicate count ())
  rw [List.length_replicate] at loop
  exact (Spends.request count).bind fun _ => loop

/-- What the counts of columns and rows can make a response cost. -/
theorem counts_le {columns rows : Nat} (fewColumns : columns < 2 ^ 32) (fewRows : rows < 2 ^ 32) :
    columns + columns + (rows + rows * (1 + (columns + columns))) ≤ 2 ^ 66 := by
  have cells : rows * (1 + (columns + columns)) ≤ 2 ^ 32 * 2 ^ 33 := Nat.mul_le_mul (by omega) (by omega)
  omega

theorem spends_queryResponse (enough : 2 ^ 31 ≤ c) : Spends c (2 ^ 66) (queryResponseFields memory) := by
  refine (spends_readUInt 1).free_bind fun _ => (spends_readUInt 1).free_bind fun _ =>
    (spends_readUInt 8).free_bind fun _ => (spends_readUInt 4).free_bind fun s =>
      (spends_readUInt 4).free_bind fun s' => ?_
  have columns := streamRead_lt 4 s.left
  have rows := streamRead_lt 4 s'.left
  refine ((spends_decodeColumns enough _).bind fun later => ?_).extra_le (counts_le columns rows)
  refine Spends.bind_free ?_ fun _ => (spends_decodeString (by omega)).bind_free fun _ => Spends.pure _
  have count : (decodeColumns memory (readUInt 4 s).1 later).1.length = (readUInt 4 s).1 := by
    rw [decodeColumns, bind_apply, length_forEach, List.length_replicate]
  have loop : Spends c _ (decodeRows memory (decodeColumns memory (readUInt 4 s).1 later).1
    (readUInt 4 s').1) := spends_decodeRows enough _ _
  rwa [count] at loop

theorem decodingCost_le {fields : Decoder UInt8 α} {extra : Nat} (spends : Spends c extra fields)
    (payload : Bytes) : decodingCost fields payload ≤ c * payload.length + extra := by
  have paid := (spends (start payload)).2
  have unspent : spent (start payload) = 0 := rfl
  have whole : (start payload).left = payload := rfl
  rw [unspent, whole] at paid
  rw [decodingCost]
  split <;> omega

/-- The decoders make at most `2 ^ 66` iterations and requests of bytes and elements for each byte of
a payload and one more. -/
theorem decoders_cost_bounded (memory : Nat → UInt8) (payload : Bytes) :
    decodingCost (authRequestFields memory) payload ≤ 2 ^ 66 * (payload.length + 1) ∧
      decodingCost (authResponseFields memory) payload ≤ 2 ^ 66 * (payload.length + 1) ∧
      decodingCost (queryRequestFields memory) payload ≤ 2 ^ 66 * (payload.length + 1) ∧
      decodingCost (databaseSwitchFields memory) payload ≤ 2 ^ 66 * (payload.length + 1) ∧
      decodingCost (queryResponseFields memory) payload ≤ 2 ^ 66 * (payload.length + 1) ∧
      decodingCost (errorResponseFields memory) payload ≤ 2 ^ 66 * (payload.length + 1) := by
  have number : ∀ w, Spends (2 ^ 66) 0 (readUInt w) := spends_readUInt
  have text : Spends (2 ^ 66) 0 (decodeString memory) := spends_decodeString (by decide)
  have fixed : ∀ {α : Type} {fields : Decoder UInt8 α}, Spends (2 ^ 66) 0 fields →
      decodingCost fields payload ≤ 2 ^ 66 * (payload.length + 1) := fun spends =>
    le_trans (decodingCost_le spends payload) (Nat.mul_le_mul_left _ (Nat.le_succ _))
  refine ⟨fixed ?_, fixed ?_, fixed ?_, fixed ?_, ?_, fixed ?_⟩
  · exact (number 2).bind_free fun _ => text.bind_free fun _ => text.bind_free fun _ =>
      text.bind_free fun _ => Spends.pure _
  · exact (number 1).bind_free fun _ => (number 8).bind_free fun _ => text.bind_free fun _ => Spends.pure _
  · exact (number 8).bind_free fun _ => text.bind_free fun _ => Spends.pure _
  · exact text.bind_free fun _ => Spends.pure _
  · exact decodingCost_le (spends_queryResponse (by decide)) payload
  · exact (number 4).bind_free fun _ => text.bind_free fun _ => text.bind_free fun _ => Spends.pure _

/-- The length of a text is asked for, whatever is left of the payload. -/
theorem length_le_spent (memory : Nat → UInt8) (s : Stream UInt8) :
    (streamRead 4 s.left).1 ≤ spent (decodeString memory s).2 := by
  have length : (readUInt 4 s).1 = (streamRead 4 s.left).1 := rfl
  rw [← length, decodeString, bind_apply]
  split
  · rename_i zero
    rw [zero]
    exact Nat.zero_le _
  · show (readUInt 4 s).1 ≤ (readUInt 4 s).2.iterations + ((readUInt 4 s).2.requested + (readUInt 4 s).1)
    omega

/-- Four bytes ask for `2 ^ 32 - 1`. -/
example : 2 ^ 32 - 1 ≤ decodingCost (databaseSwitchFields fun _ => 0) [0xFF, 0xFF, 0xFF, 0xFF] := by
  have asked := length_le_spent (fun _ => 0) (start [0xFF, 0xFF, 0xFF, 0xFF])
  have announced : (streamRead 4 (start [0xFF, 0xFF, 0xFF, 0xFF] : Stream UInt8).left).1 = 2 ^ 32 - 1 := by
    decide
  rwa [announced] at asked

end QinDB.Network
