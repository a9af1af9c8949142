/-
# Storage.DiskManager — the pages of a file

`disk_manager.cpp`: a file of eight bytes and then one page after the other. A file that does
not exist is created with one page; of one that exists, the pages are counted by its size.
Page numbers are handed out from a counter that is set when the file is opened, whereas the
number of pages also grows when a page behind the end is written.

A file that was produced before is one that is reopened in the course of a run.

* `Consistent`: the size of a file with its eight bytes, and what was written to its pages.
* `pageStore_iff`: the file is a store of pages exactly when it did not exist before and every
  number is handed out above the number of pages.
-/
import Mathlib.Algebra.Group.Nat.Defs
import QinDB.Base.Memory
import QinDB.Base.Run
import QinDB.Core.Types

namespace QinDB.Storage

open QinDB.Core QinDB.Base QinDB.Base.Run

set_option autoImplicit false

/-- The bytes behind the size do not belong to the file. -/
structure File where
  size : Nat
  bytes : Nat → UInt8

namespace File

def empty : File := ⟨0, fun _ => 0⟩

def write (file : File) (offset : Nat) (data : Bytes) : File where
  size := max file.size (offset + data.length)
  bytes := Memory.write file.bytes offset data

/-- A range that is not all in the file is not read. -/
def read (file : File) (offset count : Nat) : Option Bytes :=
  if offset + count ≤ file.size then some (Memory.read file.bytes offset count) else none

end File

abbrev PageBytes := { bytes : Bytes // bytes.length = PAGE_SIZE }

structure DiskManager where
  file : File
  numPages : Nat
  nextPageId : Nat

/-- A file that does not exist, or one without a byte. -/
inductive FileState where
  | absent
  | empty
  deriving DecidableEq, Repr

namespace DiskManager

/-- Pages begin behind the magic number. -/
def pageOffset (pageId : Nat) : Nat := 8 + (pageId - 1) * PAGE_SIZE

/-- The constructor on a file that exists. -/
def openExisting (file : File) : DiskManager :=
  let numPages := if 8 ≤ file.size then (file.size - 8) / PAGE_SIZE else 0
  { file, numPages, nextPageId := (numPages + 1) % 2 ^ 32 }

/-- The placeholder of the magic number and the header page, whose bytes are given here. -/
def initializeFile (header : PageBytes) : DiskManager where
  file := (File.empty.write 0 (List.replicate 8 0)).write 8 header.1
  numPages := 1
  nextPageId := 1

def openFile (header : PageBytes) : FileState → DiskManager
  | .absent => initializeFile header
  | .empty => openExisting .empty

def extendFile (m : DiskManager) (numPages : Nat) : DiskManager :=
  { m with
    file := ⟨m.file.size + numPages * PAGE_SIZE,
      Memory.fill m.file.bytes m.file.size (numPages * PAGE_SIZE) 0⟩
    numPages := m.numPages + numPages }

def readPage (m : DiskManager) (pageId : Nat) : Option Bytes :=
  if pageId = INVALID_PAGE_ID ∨ m.numPages < pageId then none
  else m.file.read (pageOffset pageId) PAGE_SIZE

def writePage (m : DiskManager) (pageId : Nat) (page : PageBytes) : Bool × DiskManager :=
  if pageId = INVALID_PAGE_ID then (false, m)
  else
    let m := if m.numPages < pageId then m.extendFile (pageId - m.numPages) else m
    (true, { m with file := m.file.write (pageOffset pageId) page.1 })

/-- The counter has 32 bits. -/
def allocatePage (m : DiskManager) : Nat × DiskManager :=
  let newPageId := m.nextPageId
  let m := { m with nextPageId := (newPageId + 1) % 2 ^ 32 }
  (newPageId, if m.numPages < newPageId then m.extendFile 1 else m)

end DiskManager

/-! ## Runs -/

/-- The manager, what was last written to each page, and the most pages there ever were. -/
structure PageStore where
  manager : DiskManager
  written : Nat → Option Bytes
  most : Nat

namespace PageStore

inductive Call where
  | allocatePage
  | writePage (pageId : Nat) (page : PageBytes)
  | readPage (pageId : Nat)
  | reopen

inductive Answer where
  | allocated (pageId : Nat)
  | returned (result : Bool)
  | bytes (page : Option Bytes)
  | reopened
  deriving DecidableEq, Repr

def start (header : PageBytes) (file : FileState) : PageStore :=
  let manager := DiskManager.openFile header file
  ⟨manager, fun _ => none, manager.numPages⟩

def withManager (s : PageStore) (manager : DiskManager) : PageStore :=
  { s with manager, most := max s.most manager.numPages }

def perform (s : PageStore) : Call → Answer × PageStore
  | .allocatePage => s.manager.allocatePage.map .allocated s.withManager
  | .writePage pageId page =>
      let (result, manager) := s.manager.writePage pageId page
      (.returned result, { s.withManager manager with
        written := if result then Function.update s.written pageId (some page.1) else s.written })
  | .readPage pageId => (.bytes (s.manager.readPage pageId), s)
  | .reopen => (.reopened, s.withManager (.openExisting s.manager.file))

/-- The size tells the number of pages, and each of them can be read. -/
def Formed (s : PageStore) : Prop :=
  s.manager.file.size = 8 + PAGE_SIZE * s.manager.numPages ∧
    ∀ pageId, 1 ≤ pageId → pageId ≤ s.manager.numPages → (s.manager.readPage pageId).isSome

/-- A call leaves the file formed, reads what was last written, and allocates a page that could
never be read before. -/
def Correct (s : PageStore) (call : Call) : Prop :=
  (s.perform call).2.Formed ∧
    match call, (s.perform call).1 with
    | .readPage pageId, .bytes page => ∀ bytes ∈ s.written pageId, page = some bytes
    | .allocatePage, .allocated pageId => ¬ (1 ≤ pageId ∧ pageId ≤ s.most)
    | _, _ => True

/-- The next number is above the number of pages (or the invalid one). -/
def Ahead (s : PageStore) : Call → Prop
  | .allocatePage => s.manager.nextPageId = INVALID_PAGE_ID ∨
      s.manager.numPages < s.manager.nextPageId
  | _ => True

structure Consistent (s : PageStore) : Prop where
  size : s.manager.file.size = 8 + PAGE_SIZE * s.manager.numPages
  most : s.most = s.manager.numPages
  next : s.manager.nextPageId ≤ s.manager.numPages + 1
  written : ∀ pageId bytes, s.written pageId = some bytes →
    1 ≤ pageId ∧ pageId ≤ s.manager.numPages ∧
      Memory.read s.manager.file.bytes (DiskManager.pageOffset pageId) PAGE_SIZE = bytes

namespace Consistent

variable {s : PageStore}

/-- Every page has a place of its own in the file. -/
theorem pageOffset_inside {pageId count : Nat} (first : 1 ≤ pageId) (last : pageId ≤ count) :
    DiskManager.pageOffset pageId + PAGE_SIZE ≤ 8 + PAGE_SIZE * count := by
  have : (pageId - 1 + 1) * PAGE_SIZE ≤ count * PAGE_SIZE :=
    Nat.mul_le_mul_right _ (by omega)
  simp only [DiskManager.pageOffset, PAGE_SIZE] at this ⊢
  omega

theorem readPage_eq (consistent : s.Consistent) {pageId : Nat} (first : 1 ≤ pageId)
    (last : pageId ≤ s.manager.numPages) :
    s.manager.readPage pageId = some (Memory.read s.manager.file.bytes
      (DiskManager.pageOffset pageId) PAGE_SIZE) := by
  rw [DiskManager.readPage, if_neg (by simp only [INVALID_PAGE_ID]; omega), File.read,
    if_pos (consistent.size ▸ pageOffset_inside first last)]

theorem formed (consistent : s.Consistent) : s.Formed :=
  ⟨consistent.size, fun pageId first last => by
    rw [consistent.readPage_eq first last, Option.isSome_some]⟩

theorem readPage_written (consistent : s.Consistent) {pageId : Nat} {bytes : Bytes}
    (written : s.written pageId = some bytes) : s.manager.readPage pageId = some bytes := by
  obtain ⟨first, last, same⟩ := consistent.written pageId bytes written
  rw [consistent.readPage_eq first last, same]

/-- The pages before the end stay as they are when the file grows. -/
theorem extendFile (consistent : s.Consistent) (count : Nat) {next : Nat}
    (bound : next ≤ s.manager.numPages + count + 1) :
    Consistent { s.withManager ({ s.manager with nextPageId := next }.extendFile count) with
      written := s.written } where
  size := by
    simp only [withManager, DiskManager.extendFile, consistent.size, Nat.mul_add]
    rw [Nat.mul_comm count, Nat.add_assoc]
  most := by
    simp only [withManager, DiskManager.extendFile, consistent.most]
    omega
  next := bound
  written pageId bytes written := by
    obtain ⟨first, last, same⟩ := consistent.written pageId bytes written
    refine ⟨first, Nat.le_trans last (Nat.le_add_right _ _), ?_⟩
    simp only [withManager, DiskManager.extendFile]
    rw [Memory.read_fill_apart _ (Or.inr (consistent.size ▸ pageOffset_inside first last)), same]

/-- A page before the end is replaced, and no other page has its place. -/
theorem write (consistent : s.Consistent) {pageId : Nat} (page : PageBytes)
    (first : 1 ≤ pageId) (last : pageId ≤ s.manager.numPages) :
    Consistent { s with
      manager := { s.manager with
        file := s.manager.file.write (DiskManager.pageOffset pageId) page.1 }
      written := Function.update s.written pageId (some page.1) } where
  size := by
    have inside := pageOffset_inside first last
    have size := consistent.size
    simp only [File.write, page.2]
    omega
  most := consistent.most
  next := consistent.next
  written other bytes written := by
    by_cases same : other = pageId
    · subst same
      change Function.update s.written other (some page.1) other = _ at written
      rw [Function.update_self] at written
      refine ⟨first, last, ?_⟩
      have kept := Memory.read_write s.manager.file.bytes (DiskManager.pageOffset other) page.1
      rw [page.2] at kept
      exact kept.trans (Option.some.inj written)
    · change Function.update s.written pageId (some page.1) other = _ at written
      rw [Function.update_of_ne same] at written
      obtain ⟨low, high, held⟩ := consistent.written other bytes written
      refine ⟨low, high, ?_⟩
      simp only [File.write]
      rw [Memory.read_write_apart, held]
      have apart : other < pageId ∨ pageId < other := Nat.lt_or_gt_of_ne same
      simp only [page.2, DiskManager.pageOffset, PAGE_SIZE]
      omega

end Consistent

theorem start_consistent (header : PageBytes) : (start header .absent).Consistent where
  size := by
    simp [start, DiskManager.openFile, DiskManager.initializeFile, File.write, File.empty,
      header.2]
  most := rfl
  next := Nat.le_succ 1
  written _ _ written := by cases written

theorem allocatePage_consistent {s : PageStore} (consistent : s.Consistent) :
    (s.perform .allocatePage).2.Consistent := by
  have next := consistent.next
  have bound : (s.manager.nextPageId + 1) % 2 ^ 32 ≤ s.manager.nextPageId + 1 := Nat.mod_le _ _
  simp only [perform, DiskManager.allocatePage, Prod.map]
  split
  · exact consistent.extendFile 1 (by omega)
  · rename_i low
    refine ⟨consistent.size, ?_, ?_, consistent.written⟩
    · simp only [withManager, consistent.most, Nat.max_self]
    · simp only [withManager]
      omega

theorem reopen_consistent {s : PageStore} (consistent : s.Consistent) :
    (s.perform .reopen).2.Consistent := by
  have count : (DiskManager.openExisting s.manager.file).numPages = s.manager.numPages := by
    simp only [DiskManager.openExisting, consistent.size, Nat.le_add_right, if_true,
      Nat.add_sub_cancel_left]
    exact Nat.mul_div_cancel_left _ (by decide)
  refine ⟨?_, ?_, ?_, ?_⟩
  · simp only [perform, withManager, count]
    exact consistent.size
  · simp only [perform, withManager, count, consistent.most, Nat.max_self]
  · exact Nat.mod_le _ _
  · simp only [perform, withManager, count]
    exact consistent.written

theorem writePage_consistent {s : PageStore} (consistent : s.Consistent) (pageId : Nat)
    (page : PageBytes) : (s.perform (.writePage pageId page)).2.Consistent := by
  simp only [perform, DiskManager.writePage]
  by_cases invalid : pageId = INVALID_PAGE_ID
  · rw [if_pos invalid]
    refine ⟨consistent.size, ?_, consistent.next, consistent.written⟩
    simp only [withManager, consistent.most, Nat.max_self]
  have first : 1 ≤ pageId := Nat.pos_of_ne_zero invalid
  rw [if_neg invalid]
  by_cases behind : s.manager.numPages < pageId
  · -- The file first grows up to the page.
    have grown := consistent.extendFile (pageId - s.manager.numPages)
      (Nat.le_trans consistent.next (by omega))
    have reached : pageId ≤ s.manager.numPages + (pageId - s.manager.numPages) := by omega
    simp only [if_pos behind, if_true]
    exact grown.write page first reached
  · simp only [if_neg behind, if_true]
    have written := consistent.write page first (Nat.not_lt.mp behind)
    refine ⟨written.size, ?_, written.next, written.written⟩
    simp only [withManager, consistent.most, Nat.max_self]

theorem perform_consistent {s : PageStore} (consistent : s.Consistent) :
    ∀ call, (s.perform call).2.Consistent
  | .allocatePage => allocatePage_consistent consistent
  | .writePage pageId page => writePage_consistent consistent pageId page
  | .readPage _ => consistent
  | .reopen => reopen_consistent consistent

/-- In a consistent store only the number of a new page can be wrong. -/
theorem correct_iff {s : PageStore} (consistent : s.Consistent) (call : Call) :
    s.Correct call ↔ s.Ahead call := by
  have formed := (perform_consistent consistent call).formed
  cases call with
  | allocatePage =>
    refine (and_iff_right formed).trans ?_
    simp only [perform, DiskManager.allocatePage, Prod.map, Ahead, consistent.most,
      INVALID_PAGE_ID]
    omega
  | writePage pageId page => exact iff_of_true ⟨formed, trivial⟩ trivial
  | readPage pageId =>
    refine iff_of_true ⟨formed, fun bytes written => ?_⟩ trivial
    exact consistent.readPage_written written
  | reopen => exact iff_of_true ⟨formed, trivial⟩ trivial

/-- A file is a store of pages when it is formed from the start and every call is correct. -/
def IsStore (header : PageBytes) (file : FileState) (calls : List Call) : Prop :=
  (start header file).Formed ∧
    Meets (fun s call => some (perform s call)) Correct (start header file) calls

/-- Exactly the files that did not exist, and the runs that allocate no page below the end. -/
theorem pageStore_iff (header : PageBytes) (file : FileState) (calls : List Call) :
    IsStore header file calls ↔ file = .absent ∧
      Meets (fun s call => some (perform s call)) Ahead (start header file) calls := by
  cases file with
  | empty =>
    refine iff_of_false (fun store => ?_) fun absent => FileState.noConfusion absent.1
    -- The eight bytes are missing.
    have size : 0 = 8 := store.1.1
    omega
  | absent =>
    have consistent := start_consistent header
    rw [IsStore, and_iff_right consistent.formed, and_iff_right rfl]
    refine meets_iff_of_invariant (fun s call held => correct_iff held call) ?_ calls _ consistent
    intro s call answer s' consistent _ taken
    have after : (s.perform call).2 = s' := congrArg Prod.snd (Option.some.inj taken)
    exact after ▸ perform_consistent consistent call

/-- The first page that is allocated in a new file is its header page. -/
theorem header_page_allocated :
    ¬ IsStore ⟨List.replicate PAGE_SIZE 0, List.length_replicate⟩ .absent [.allocatePage] := by
  rintro ⟨-, correct, -⟩
  exact correct.2 ⟨Nat.le_refl 1, Nat.le_refl 1⟩

end PageStore

end QinDB.Storage
