/-
# Auth.Argon2id — the password hash

`argon2id.cpp`: the memory is an array of blocks, one row of `laneLength` blocks for each
lane. The first two blocks of a lane come from the password; passes over four slices fill
the segments of all lanes, each block from the one before it and a reference block that
the first word of the one before it picks; the last blocks of the lanes give the result.

The accesses to the memory are logged. There is no hash if one of them is outside the memory.
`8 * parallelism` is a 32-bit product, so there may be less than one block for each lane.

* `inside_iff`: all accesses are inside the memory if and only if a lane has two blocks.
* `accesses_inside`: each part of a hash stays inside, and a segment writes only its own blocks.
* `length_hash`: a hash is as long as it is asked for.
-/
import QinDB.Auth.Blake2b
import QinDB.Base.AccessLog
import QinDB.Base.Loop

namespace QinDB.Auth.Argon2id

open QinDB.Base QinDB.Core QinDB.Auth.Blake2b

set_option autoImplicit false

/-! ## Blocks -/

def ARGON2_VERSION : Nat := 0x13
def ARGON2_ID : Nat := 2
def BLOCK_SIZE : Nat := 1024
def QWORDS_IN_BLOCK : Nat := BLOCK_SIZE / 8

structure Parameters where
  timeCost : UInt32
  memoryCost : UInt32
  parallelism : UInt32
  hashLength : UInt32
  saltLength : UInt32
  deriving DecidableEq, Repr

abbrev Block := Fin QWORDS_IN_BLOCK → UInt64

def xorBlock (dst src : Block) : Block := fun i => dst i ^^^ src i

/-- The mixing of four words, as a quarter of a round without a message. -/
def mix (block : Block) (i₁ i₂ i₃ i₄ : Fin QWORDS_IN_BLOCK) : Block :=
  let a := block i₁ + block i₂
  let d := rotr64 (block i₄ ^^^ a) 32
  let c := block i₃ + d
  let b := rotr64 (block i₂ ^^^ c) 24
  let a := a + b
  let d := rotr64 (d ^^^ a) 16
  let c := c + d
  let b := rotr64 (b ^^^ c) 63
  Function.update (Function.update (Function.update (Function.update block i₁ a) i₂ b) i₃ c) i₄ d

/-- The place of a word in the first 64 words of a block. -/
def place (row : Fin 4) (column : Fin 8) : Fin QWORDS_IN_BLOCK :=
  ⟨column + 16 * row, by unfold QWORDS_IN_BLOCK BLOCK_SIZE; omega⟩

def permute (block : Block) : Block :=
  (List.range 8).foldl (fun block _ =>
    let columns := (List.finRange 8).foldl (fun block j =>
      mix block (place 0 j) (place 1 j) (place 2 j) (place 3 j)) block
    (List.finRange 8).foldl (fun block j =>
      mix block (place 0 j) (place 1 (j + 1)) (place 2 (j + 2)) (place 3 (j + 3))) columns) block

/-- The order of the steps of `permute`, for any step. -/
def permuteWith {σ : Type} (step : σ → (i₁ i₂ i₃ i₄ : Fin QWORDS_IN_BLOCK) → σ) (s : σ) : σ :=
  (List.range 8).foldl (fun s _ =>
    let columns := (List.finRange 8).foldl (fun s j =>
      step s (place 0 j) (place 1 j) (place 2 j) (place 3 j)) s
    (List.finRange 8).foldl (fun s j =>
      step s (place 0 j) (place 1 (j + 1)) (place 2 (j + 2)) (place 3 (j + 3))) columns) s

def fillBlock (prev ref next : Block) (withXor : Bool) : Block :=
  let r := xorBlock prev ref
  let z := permute r
  if withXor then xorBlock (xorBlock next r) z else xorBlock r z

/-- A block from its bytes. -/
def blockOfBytes (data : Bytes) : Block := fun i => load64 (data.drop (i * 8))

def blockBytes (block : Block) : Bytes :=
  (List.finRange QWORDS_IN_BLOCK).flatMap fun i => LittleEndian.encode 8 (block i).toNat

/-- The initial hash of the inputs. -/
def h0Hash (params : Parameters) (password salt : Bytes) : Bytes :=
  Blake2b.hash (store32 params.parallelism.toNat ++ store32 params.hashLength.toNat ++
    store32 params.memoryCost.toNat ++ store32 params.timeCost.toNat ++ store32 ARGON2_VERSION ++
    store32 ARGON2_ID ++ store32 password.length ++ password ++ store32 salt.length ++ salt ++
    store32 0 ++ store32 0) 64

/-- Block `index` of a lane, from the initial hash. -/
def firstBlock (params : Parameters) (password salt : Bytes) (lane index : Nat) : Block :=
  blockOfBytes
    (blake2bLong (h0Hash params password salt ++ store32 index ++ store32 lane) BLOCK_SIZE)

/-! ## The memory -/

/-- What the filling of the memory uses of its blocks. -/
structure BlockFunctions (B : Type) where
  clear : B
  firstWord : B → UInt64
  fillBlock : B → B → B → Bool → B
  xorBlock : B → B → B

def blockFunctions : BlockFunctions Block where
  clear := fun _ => 0
  firstWord := fun block => block ⟨0, by decide⟩
  fillBlock := fillBlock
  xorBlock := xorBlock

structure Context (B : Type) where
  memory : UInt32 → B
  lanes : UInt32
  segmentLength : UInt32
  laneLength : UInt32
  timeCost : UInt32
  log : List Access

namespace Context

variable {B : Type}

def read (ctx : Context B) (offset : UInt32) : B × Context B :=
  (ctx.memory offset, { ctx with log := ctx.log ++ [.read offset.toNat] })

def write (ctx : Context B) (offset : UInt32) (block : B) : Context B :=
  { ctx with
    memory := Function.update ctx.memory offset block
    log := ctx.log ++ [.write offset.toNat] }

end Context

/-- At least eight blocks for each lane. -/
def Parameters.memoryBlocks (params : Parameters) : UInt32 :=
  let least := 8 * params.parallelism
  if params.memoryCost < least then least else params.memoryCost

def Parameters.laneLength (params : Parameters) : UInt32 := params.memoryBlocks / params.parallelism

def Parameters.segmentLength (params : Parameters) : UInt32 := params.laneLength / 4

/-- The number of blocks of the memory. -/
def Parameters.size (params : Parameters) : Nat :=
  params.parallelism.toNat * params.laneLength.toNat

section Filling

variable {B : Type} (functions : BlockFunctions B)

/-- `Argon2id::initialize` -/
def initializeContext (params : Parameters) : Context B where
  memory := fun _ => functions.clear
  lanes := params.parallelism
  segmentLength := params.segmentLength
  laneLength := params.laneLength
  timeCost := params.timeCost
  log := []

def fillFirstBlocks (first : Nat → Nat → B) (ctx : Context B) : Context B :=
  Loop.count (fun lane ctx => (ctx.write (.ofNat lane * ctx.laneLength) (first lane 0)).write
    (.ofNat lane * ctx.laneLength + 1) (first lane 1)) 0 ctx.lanes.toNat ctx

/-- The number of blocks a reference may be taken from. -/
def refAreaSize (ctx : Context B) (pass slice index : UInt32) : UInt32 :=
  let size :=
    if pass = 0 then
      if slice = 0 then index - 1 else slice * ctx.segmentLength + index - 1
    else ctx.laneLength - ctx.segmentLength + index - 1
  if size = 0 then 1 else size

/-- The place of the reference among these blocks. -/
def relativePos (areaSize : UInt32) (pseudoRand : UInt64) : UInt64 :=
  let low := pseudoRand &&& 0xFFFFFFFF
  let squared := (low * low) >>> 32
  (areaSize - 1).toUInt64 - ((areaSize.toUInt64 * squared) >>> 32)

def indexAlpha (ctx : Context B) (pass slice lane index : UInt32) (pseudoRand : UInt64) : UInt32 :=
  let refLane := if pass = 0 ∧ slice = 0 then (pseudoRand >>> 32).toUInt32 % ctx.lanes else lane
  let startPos := if pass ≠ 0 then (slice + 1) * ctx.segmentLength % ctx.laneLength else 0
  let refIndex := (startPos +
    (relativePos (refAreaSize ctx pass slice index) pseudoRand).toUInt32) % ctx.laneLength
  refLane * ctx.laneLength + refIndex

/-- One block: with `withXor` the old content of the block is read as well. -/
def fillStep (pass slice lane index currOffset : UInt32) (ctx : Context B) : Context B :=
  let prevOffset :=
    if index = 0 ∧ slice = 0 then lane * ctx.laneLength + ctx.laneLength - 1 else currOffset - 1
  let (prev, ctx) := ctx.read prevOffset
  let (ref, ctx) := ctx.read (indexAlpha ctx pass slice lane index (functions.firstWord prev))
  if pass ≠ 0 then
    let (next, ctx) := ctx.read currOffset
    ctx.write currOffset (functions.fillBlock prev ref next true)
  else ctx.write currOffset (functions.fillBlock prev ref (ctx.memory currOffset) false)

/-- `currOffset` is counted with the index. -/
def fillSegment (pass lane slice : UInt32) (ctx : Context B) : Context B :=
  let startIndex := if pass = 0 ∧ slice = 0 then 2 else 0
  let start := lane * ctx.laneLength + slice * ctx.segmentLength
  Loop.count (fun index ctx =>
    fillStep functions pass slice lane (.ofNat index) (start + .ofNat index) ctx)
    startIndex (ctx.segmentLength.toNat - startIndex) ctx

def fillMemoryBlocks (ctx : Context B) : Context B :=
  Loop.count (fun pass ctx =>
    Loop.count (fun slice ctx =>
      Loop.count (fun lane ctx =>
        fillSegment functions (.ofNat pass) (.ofNat lane) (.ofNat slice) ctx) 0 ctx.lanes.toNat ctx)
      0 4 ctx) 0 ctx.timeCost.toNat ctx

/-- The last blocks of the lanes. -/
def finalBlock (ctx : Context B) : B × Context B :=
  let first := ctx.read (ctx.laneLength - 1)
  Loop.count (fun lane (block, ctx) =>
    let last := ctx.read (.ofNat lane * ctx.laneLength + ctx.laneLength - 1)
    (functions.xorBlock block last.1, last.2)) 1 (ctx.lanes.toNat - 1) first

end Filling

/-- The context after all accesses of a hash to its memory, and the last block. -/
def fillMemory {B : Type} (functions : BlockFunctions B) (first : Nat → Nat → B)
    (params : Parameters) : B × Context B :=
  finalBlock functions (fillMemoryBlocks functions
    (fillFirstBlocks first (initializeContext functions params)))

/-- `none` is an access outside the memory of `lanes * laneLength` blocks. -/
def hash (password salt : Bytes) (params : Parameters) : Option Bytes :=
  let filled := fillMemory blockFunctions (firstBlock params password salt) params
  if Access.Inside params.size filled.2.log then
    some (blake2bLong (blockBytes filled.1) params.hashLength.toNat)
  else none

/-! ## Offsets -/

section Offsets

variable {params : Parameters}

/-- The number of blocks is a 32-bit number. -/
theorem size_lt (params : Parameters) : params.size < 2 ^ 32 := by
  have whole : params.size ≤ params.memoryBlocks.toNat := by
    rw [Parameters.size, Parameters.laneLength, UInt32.toNat_div]
    exact Nat.mul_div_le _ _
  exact Nat.lt_of_le_of_lt whole params.memoryBlocks.toNat_lt

/-- A place in a lane. -/
theorem offset_lt {lane index : Nat} (lanes : lane < params.parallelism.toNat)
    (inside : index < params.laneLength.toNat) :
    lane * params.laneLength.toNat + index < params.size := by
  have whole : (lane + 1) * params.laneLength.toNat ≤ params.size := Nat.mul_le_mul_right _ lanes
  rw [Nat.add_mul, Nat.one_mul] at whole
  omega

/-- The offset of a place in a lane does not wrap around. -/
theorem toNat_offset {lane index : UInt32} (lanes : lane.toNat < params.parallelism.toNat)
    (inside : index.toNat < params.laneLength.toNat) :
    (lane * params.laneLength + index).toNat =
      lane.toNat * params.laneLength.toNat + index.toNat := by
  have below := offset_lt lanes inside
  have small := size_lt params
  rw [UInt32.toNat_add, UInt32.toNat_mul]
  omega

theorem toNat_offset_lt {lane index : UInt32} (lanes : lane.toNat < params.parallelism.toNat)
    (inside : index.toNat < params.laneLength.toNat) :
    (lane * params.laneLength + index).toNat < params.size := by
  rw [toNat_offset lanes inside]
  exact offset_lt lanes inside

theorem toNat_pred {n : UInt32} (positive : 0 < n.toNat) : (n - 1).toNat = n.toNat - 1 :=
  UInt32.toNat_sub_of_le _ _ (UInt32.le_iff_toNat_le.mpr positive)

/-- The last block of a lane. -/
theorem toNat_last_lt {lane : UInt32} (lanes : lane.toNat < params.parallelism.toNat)
    (positive : 0 < params.laneLength.toNat) :
    (lane * params.laneLength + params.laneLength - 1).toNat < params.size := by
  rw [UInt32.sub_eq_add_neg, UInt32.add_assoc, ← UInt32.sub_eq_add_neg]
  exact toNat_offset_lt lanes (by rw [toNat_pred positive]; omega)

end Offsets

/-! ## Accesses inside the memory -/

section Accesses

variable {B : Type} {functions : BlockFunctions B} {params : Parameters} {ctx : Context B}
  {writable : Nat → Prop}

/-- The sizes of a context are those of its parameters, its accesses are inside, and it writes only
where it may. -/
structure Within (params : Parameters) (writable : Nat → Prop) (ctx : Context B) : Prop where
  lanes : ctx.lanes = params.parallelism
  laneLength : ctx.laneLength = params.laneLength
  segmentLength : ctx.segmentLength = params.segmentLength
  inside : Access.Inside params.size ctx.log
  writes : ∀ offset, .write offset ∈ ctx.log → writable offset

theorem Within.read (within : Within params writable ctx) {offset : UInt32}
    (below : offset.toNat < params.size) : Within params writable (ctx.read offset).2 where
  lanes := within.lanes
  laneLength := within.laneLength
  segmentLength := within.segmentLength
  inside := Access.inside_append.mpr ⟨within.inside, Access.inside_singleton.mpr below⟩
  writes := fun written member => by
    rcases List.mem_append.mp member with before | last
    · exact within.writes written before
    · cases List.mem_singleton.mp last

theorem Within.write (within : Within params writable ctx) {offset : UInt32}
    (below : offset.toNat < params.size) (allowed : writable offset.toNat) (block : B) :
    Within params writable (ctx.write offset block) where
  lanes := within.lanes
  laneLength := within.laneLength
  segmentLength := within.segmentLength
  inside := Access.inside_append.mpr ⟨within.inside, Access.inside_singleton.mpr below⟩
  writes := fun written member => by
    rcases List.mem_append.mp member with before | last
    · exact within.writes written before
    · cases List.mem_singleton.mp last
      exact allowed

variable (functions params writable) in
/-- The context of `initialize`, whatever its memory holds. -/
theorem within_initialize (memory : UInt32 → B) :
    Within params writable { initializeContext functions params with memory := memory } :=
  ⟨rfl, rfl, rfl, nofun, nofun⟩

theorem toNat_lane {lane : Nat} (lanes : lane < params.parallelism.toNat) :
    (UInt32.ofNat lane).toNat = lane :=
  UInt32.toNat_ofNat_of_lt' (Nat.lt_trans lanes params.parallelism.toNat_lt)

theorem Within.fillFirstBlocks (within : Within params (fun _ => True) ctx)
    (two : 2 ≤ params.laneLength.toNat) (first : Nat → Nat → B) :
    Within params (fun _ => True) (fillFirstBlocks first ctx) := by
  rw [Argon2id.fillFirstBlocks, within.lanes]
  refine Loop.count_keeps (P := fun _ s => Within params _ s) (fun lane s _ below kept => ?_) within
  rw [Nat.zero_add] at below
  have lanes : (UInt32.ofNat lane).toNat < params.parallelism.toNat := by rwa [toNat_lane below]
  have zero := toNat_offset_lt lanes (show (0 : UInt32).toNat < _ by rw [UInt32.toNat_zero]; omega)
  have one := toNat_offset_lt lanes (show (1 : UInt32).toNat < _ by rw [UInt32.toNat_one]; omega)
  rw [UInt32.add_zero] at zero
  rw [kept.laneLength]
  exact (kept.write zero trivial _).write one trivial _

theorem indexAlpha_lt (within : Within params writable ctx) {lane : UInt32}
    (lanes : lane.toNat < params.parallelism.toNat) (positive : 0 < params.laneLength.toNat)
    (pass slice index : UInt32) (pseudoRand : UInt64) :
    (indexAlpha ctx pass slice lane index pseudoRand).toNat < params.size := by
  have refLane : (if pass = 0 ∧ slice = 0 then (pseudoRand >>> 32).toUInt32 % ctx.lanes
      else lane).toNat < params.parallelism.toNat := by
    split
    · rw [within.lanes, UInt32.toNat_mod]
      exact Nat.mod_lt _ (by omega)
    · exact lanes
  simp only [indexAlpha, within.laneLength]
  apply toNat_offset_lt refLane
  rw [UInt32.toNat_mod]
  exact Nat.mod_lt _ positive

/-- The segment of a lane and a slice. -/
def Segment (params : Parameters) (lane slice : UInt32) (offset : Nat) : Prop :=
  lane.toNat * params.laneLength.toNat + slice.toNat * params.segmentLength.toNat ≤ offset ∧
    offset < lane.toNat * params.laneLength.toNat + slice.toNat * params.segmentLength.toNat +
      params.segmentLength.toNat

theorem toNat_segment {lane slice index : UInt32} (lanes : lane.toNat < params.parallelism.toNat)
    (slices : slice.toNat < 4) (segment : index.toNat < params.segmentLength.toNat) :
    (lane * params.laneLength + slice * params.segmentLength + index).toNat =
      lane.toNat * params.laneLength.toNat + slice.toNat * params.segmentLength.toNat +
        index.toNat ∧
    slice.toNat * params.segmentLength.toNat + index.toNat < params.laneLength.toNat := by
  have quarter : 4 * params.segmentLength.toNat ≤ params.laneLength.toNat := by
    rw [Parameters.segmentLength, UInt32.toNat_div]
    exact Nat.mul_div_le _ _
  have reach : slice.toNat * params.segmentLength.toNat ≤ 3 * params.segmentLength.toNat :=
    Nat.mul_le_mul_right _ (by omega)
  have small := params.laneLength.toNat_lt
  have place : (slice * params.segmentLength + index).toNat =
      slice.toNat * params.segmentLength.toNat + index.toNat := by
    rw [UInt32.toNat_add, UInt32.toNat_mul]
    omega
  rw [UInt32.add_assoc, toNat_offset lanes (by omega), place]
  omega

theorem Within.fillStep (within : Within params writable ctx) {lane slice index : UInt32}
    (allowed : ∀ offset, Segment params lane slice offset → writable offset) (pass : UInt32)
    (lanes : lane.toNat < params.parallelism.toNat) (slices : slice.toNat < 4)
    (segment : index.toNat < params.segmentLength.toNat) :
    Within params writable (fillStep functions pass slice lane index
      (lane * params.laneLength + slice * params.segmentLength + index) ctx) := by
  obtain ⟨offset, inside⟩ := toNat_segment lanes slices segment
  generalize lane * params.laneLength + slice * params.segmentLength + index = current at offset ⊢
  have below : current.toNat < params.size := by
    have := offset_lt lanes inside
    omega
  have owned : Segment params lane slice current.toNat := by
    rw [Segment]
    omega
  have previous : (if index = 0 ∧ slice = 0 then lane * ctx.laneLength + ctx.laneLength - 1
      else current - 1).toNat < params.size := by
    rw [within.laneLength]
    split
    · exact toNat_last_lt lanes (by omega)
    · rename_i later
      have positive : 0 < current.toNat := by
        by_contra zero
        have start : slice.toNat * params.segmentLength.toNat = 0 ∧ index.toNat = 0 := by omega
        rcases Nat.mul_eq_zero.mp start.1 with slice_zero | empty
        · exact later ⟨UInt32.toNat_inj.mp start.2, UInt32.toNat_inj.mp slice_zero⟩
        · omega
      rw [toNat_pred positive]
      omega
  have first := within.read previous
  have second := fun pseudoRand =>
    first.read (indexAlpha_lt first lanes (by omega) pass slice index pseudoRand)
  unfold Argon2id.fillStep
  dsimp only
  split
  · exact ((second _).read below).write below (allowed _ owned) _
  · exact (second _).write below (allowed _ owned) _

theorem Within.fillSegment (within : Within params writable ctx) {pass lane slice : UInt32}
    (allowed : ∀ offset, Segment params lane slice offset → writable offset)
    (lanes : lane.toNat < params.parallelism.toNat) (slices : slice.toNat < 4) :
    Within params writable (fillSegment functions pass lane slice ctx) := by
  rw [Argon2id.fillSegment, within.laneLength, within.segmentLength]
  refine Loop.count_keeps (P := fun _ s => Within params _ s)
    (fun index s least below kept => ?_) within
  have segment : (UInt32.ofNat index).toNat < params.segmentLength.toNat := by
    have reach : index < params.segmentLength.toNat := by omega
    rwa [UInt32.toNat_ofNat_of_lt' (Nat.lt_trans reach params.segmentLength.toNat_lt)]
  exact kept.fillStep allowed pass lanes slices segment

theorem Within.fillMemoryBlocks (within : Within params (fun _ => True) ctx) :
    Within params (fun _ => True) (fillMemoryBlocks functions ctx) := by
  refine Loop.count_keeps (P := fun _ s => Within params _ s) (fun pass s _ _ kept => ?_) within
  refine Loop.count_keeps (P := fun _ s => Within params _ s) (fun slice s _ slices kept => ?_) kept
  refine Loop.count_keeps (P := fun _ s => Within params _ s) (fun lane s _ lanes kept' => ?_) kept
  rw [kept.lanes, Nat.zero_add] at lanes
  apply kept'.fillSegment (fun _ _ => trivial)
  · rwa [toNat_lane lanes]
  · rw [UInt32.toNat_ofNat_of_lt' (Nat.lt_trans slices (by decide))]
    exact slices

theorem Within.finalBlock (within : Within params writable ctx)
    (some_lane : 1 ≤ params.parallelism.toNat) (positive : 0 < params.laneLength.toNat) :
    Within params writable (finalBlock functions ctx).2 := by
  rw [Argon2id.finalBlock, within.laneLength, within.lanes]
  refine Loop.count_keeps (P := fun _ (s : B × Context B) => Within params writable s.2)
    (fun lane s _ below kept => ?_) (within.read ?_)
  · obtain ⟨block, ctx'⟩ := s
    have length : ctx'.laneLength = params.laneLength := kept.laneLength
    have lanes : lane < params.parallelism.toNat := by omega
    simp only [length]
    exact kept.read (toNat_last_lt (by rwa [toNat_lane lanes]) positive)
  · rw [toNat_pred positive]
    have := offset_lt some_lane (Nat.sub_lt positive Nat.one_pos)
    omega

/-! ## An access outside -/

theorem mem_log_fillMemoryBlocks {access : Access} (member : access ∈ ctx.log) :
    access ∈ (fillMemoryBlocks functions ctx).log := by
  refine Loop.count_keeps (P := fun _ (s : Context B) => access ∈ s.log)
    (fun pass s _ _ kept => ?_) member
  refine Loop.count_keeps (P := fun _ (s : Context B) => access ∈ s.log)
    (fun slice s _ _ kept => ?_) kept
  refine Loop.count_keeps (P := fun _ (s : Context B) => access ∈ s.log)
    (fun lane s _ _ kept => ?_) kept
  refine Loop.count_keeps (P := fun _ (s : Context B) => access ∈ s.log)
    (fun index s _ _ kept => ?_) kept
  unfold fillStep
  dsimp only
  split
  · exact List.mem_append_left _ (List.mem_append_left _ (List.mem_append_left _
      (List.mem_append_left _ kept)))
  · exact List.mem_append_left _ (List.mem_append_left _ (List.mem_append_left _ kept))

theorem mem_log_finalBlock {access : Access} (member : access ∈ ctx.log) :
    access ∈ (finalBlock functions ctx).2.log :=
  Loop.count_keeps (P := fun _ (s : B × Context B) => access ∈ s.2.log)
    (fun _ _ _ _ kept => List.mem_append_left _ kept) (List.mem_append_left _ member)

theorem mem_log_fillFirstBlocks (first : Nat → Nat → B) {lane : Nat}
    (lanes : lane < ctx.lanes.toNat) :
    .write (UInt32.ofNat lane * ctx.laneLength + 1).toNat ∈ (fillFirstBlocks first ctx).log := by
  have all : (fillFirstBlocks first ctx).laneLength = ctx.laneLength ∧ ∀ lane < 0 + ctx.lanes.toNat,
      .write (UInt32.ofNat lane * ctx.laneLength + 1).toNat ∈ (fillFirstBlocks first ctx).log := by
    refine Loop.count_keeps (P := fun i (s : Context B) => s.laneLength = ctx.laneLength ∧
      ∀ lane < i, .write (UInt32.ofNat lane * ctx.laneLength + 1).toNat ∈ s.log)
      (fun i s _ _ kept => ?_) ⟨rfl, fun _ none => absurd none (Nat.not_lt_zero _)⟩
    refine ⟨kept.1, fun lane below => ?_⟩
    rcases Nat.lt_succ_iff_lt_or_eq.mp below with before | rfl
    · exact List.mem_append_left _ (List.mem_append_left _ (kept.2 lane before))
    · exact List.mem_append_right _ (by rw [← kept.1]; exact List.mem_singleton_self _)
  exact all.2 lane (by omega)

/-- All accesses are inside the memory if and only if a lane has two blocks. -/
theorem inside_iff (some_lane : 1 ≤ params.parallelism.toNat) (first : Nat → Nat → B) :
    Access.Inside params.size (fillMemory functions first params).2.log ↔
      2 ≤ params.laneLength.toNat := by
  constructor
  · intro inside
    by_contra short
    have written : Access.write (UInt32.ofNat (params.parallelism.toNat - 1) *
        params.laneLength + 1).toNat ∈ (fillMemory functions first params).2.log :=
      mem_log_finalBlock (mem_log_fillMemoryBlocks (mem_log_fillFirstBlocks first
        (show params.parallelism.toNat - 1 < params.parallelism.toNat by omega)))
    have below := inside _ written
    have many := params.parallelism.toNat_lt
    have lane := toNat_lane (show params.parallelism.toNat - 1 < params.parallelism.toNat by omega)
    rw [Access.address, Parameters.size, UInt32.toNat_add, UInt32.toNat_mul, lane,
      UInt32.toNat_one] at below
    rcases (by omega : params.laneLength.toNat = 0 ∨ params.laneLength.toNat = 1) with none | one
    · rw [none] at below
      omega
    · rw [one] at below
      omega
  · intro two
    have start := within_initialize functions params (fun _ => True) fun _ => functions.clear
    have filled := start.fillFirstBlocks two first
    exact (filled.fillMemoryBlocks.finalBlock some_lane (by omega)).inside

/-- A lane has two blocks if there is memory for them, by the cost or by the 32-bit product that
raises it. -/
theorem two_le_laneLength_iff (some_lane : 1 ≤ params.parallelism.toNat) :
    2 ≤ params.laneLength.toNat ↔ 2 * params.parallelism.toNat ≤ params.memoryCost.toNat ∨
      2 * params.parallelism.toNat ≤ 8 * params.parallelism.toNat % 2 ^ 32 := by
  have least : (8 * params.parallelism).toNat = 8 * params.parallelism.toNat % 2 ^ 32 := by
    rw [UInt32.toNat_mul]
    rfl
  rw [Parameters.laneLength, UInt32.toNat_div, Nat.le_div_iff_mul_le some_lane,
    Parameters.memoryBlocks]
  split
  · rename_i raised
    rw [UInt32.lt_iff_toNat_lt] at raised
    omega
  · rename_i enough
    rw [UInt32.lt_iff_toNat_lt] at enough
    omega

variable (functions) in
/-- If eight blocks for each lane are a 32-bit number, then every access of every part of a hash is
inside the memory, whatever it holds, and a segment is written by its own lane and slice only. -/
theorem accesses_inside (params : Parameters) (some_lane : 1 ≤ params.parallelism.toNat)
    (fits : 8 * params.parallelism.toNat < 2 ^ 32) (first : Nat → Nat → B) (memory : UInt32 → B) :
    let ctx : Context B := { initializeContext functions params with memory := memory }
    (params.parallelism * params.laneLength).toNat = params.size ∧
    Access.Inside params.size (fillFirstBlocks first ctx).log ∧
    (∀ pass lane slice : UInt32, lane < params.parallelism → slice < 4 →
      Access.Inside params.size (fillSegment functions pass lane slice ctx).log ∧
      ∀ offset, .write offset ∈ (fillSegment functions pass lane slice ctx).log →
        Segment params lane slice offset) ∧
    Access.Inside params.size (finalBlock functions ctx).2.log ∧
    Access.Inside params.size (fillMemory functions first params).2.log := by
  intro ctx
  have two : 2 ≤ params.laneLength.toNat := (two_le_laneLength_iff some_lane).mpr (.inr (by omega))
  have start := fun writable => within_initialize functions params writable memory
  refine ⟨?_, ((start _).fillFirstBlocks two first).inside, fun pass lane slice lanes slices => ?_,
    ((start fun _ => True).finalBlock some_lane (by omega)).inside,
    (inside_iff some_lane first).mpr two⟩
  · rw [UInt32.toNat_mul]
    exact Nat.mod_eq_of_lt (size_lt params)
  · have filled : Within params (Segment params lane slice)
        (fillSegment functions pass lane slice ctx) := (start _).fillSegment (fun _ => id)
      (UInt32.lt_iff_toNat_lt.mp lanes) (UInt32.lt_iff_toNat_lt.mp slices)
    exact ⟨filled.inside, filled.writes⟩

end Accesses

/-- The blocks of two lanes with the least memory. -/
theorem accesses_inside_two : Access.Inside 16 (fillMemory blockFunctions (fun _ _ _ => 0)
    (Parameters.mk 1 0 2 32 16)).2.log :=
  (accesses_inside blockFunctions (Parameters.mk 1 0 2 32 16) (by decide) (by decide)
    (fun _ _ _ => 0) (fun _ _ => 0)).2.2.2.2

/-- There is a hash if and only if a lane has two blocks, and it is as long as it is asked for. -/
theorem hash_isSome_iff {params : Parameters} (some_lane : 1 ≤ params.parallelism.toNat)
    (password salt : Bytes) : (hash password salt params).isSome ↔
      2 ≤ params.laneLength.toNat := by
  rw [← inside_iff some_lane (firstBlock params password salt), hash]
  split
  · exact iff_of_true rfl ‹_›
  · exact iff_of_false nofun ‹_›

theorem length_hash {params : Parameters} {password salt digest : Bytes}
    (hashed : hash password salt params = some digest) :
    digest.length = params.hashLength.toNat := by
  rw [hash] at hashed
  split at hashed
  · cases hashed
    exact length_blake2bLong _ _
  · cases hashed

end QinDB.Auth.Argon2id
