/-
# Executor.Bags — the rows of a table as a bag

The rows that a table shows, taken page by page and slot by slot: exchanging one slot
exchanges what that slot shows, and a record appended to a page adds what it shows.

* `chainContents_setSlot`, `chainContents_append`: the two changes, for whatever the slots
  contribute.
-/
import QinDB.Base.Bag
import QinDB.Executor.Blobs

namespace QinDB.Executor

open QinDB.Core QinDB.Storage QinDB.Base.Bag

set_option autoImplicit false

section Contents

variable {V β : Type} (f : Slot → Option β)

/-- What the slots of a page of the disk contribute; a missing page contributes nothing. -/
def pageContents (disk : PageId → Option TablePage) (pageId : PageId) : List β :=
  match disk pageId with
  | none => []
  | some page => page.slots.filterMap f

def chainContents (disk : PageId → Option TablePage) (chain : List PageId) : List β :=
  chain.flatMap (pageContents f disk)

variable {f} in
theorem pageContents_of_disk {disk : PageId → Option TablePage} {pageId : PageId}
    {page : TablePage} (found : disk pageId = some page) :
    pageContents f disk pageId = page.slots.filterMap f := by
  rw [pageContents, found]

variable {f} in
theorem pageContents_congr {disk disk' : PageId → Option TablePage} {pageId : PageId}
    (same : disk' pageId = disk pageId) : pageContents f disk' pageId = pageContents f disk pageId := by
  rw [pageContents, pageContents, same]

variable {f} in
theorem chainContents_congr {disk disk' : PageId → Option TablePage} {chain : List PageId}
    (same : ∀ p ∈ chain, disk' p = disk p) :
    chainContents f disk' chain = chainContents f disk chain :=
  List.flatMap_congr fun p member => pageContents_congr (same p member)

variable {f} in
theorem mem_chainContents {disk : PageId → Option TablePage} {chain : List PageId} {item : β} :
    item ∈ chainContents f disk chain ↔ ∃ pageId ∈ chain, ∃ page, disk pageId = some page ∧
      item ∈ page.slots.filterMap f := by
  rw [chainContents, List.mem_flatMap]
  refine exists_congr fun pageId => and_congr_right fun _ => ?_
  rw [pageContents]
  cases disk pageId with
  | none => simp
  | some page => simp

/-- A chain that is all on disk is scanned to its end. -/
theorem scan_flatMap_contents (disk : PageId → Option TablePage) :
    ∀ {chain : List PageId}, (∀ p ∈ chain, disk p ≠ none) →
      ((scan disk chain).flatMap fun found => found.2.slots.filterMap f) =
        chainContents f disk chain
  | [], _ => rfl
  | first :: rest, readable => by
      obtain ⟨page, onDisk⟩ := Option.ne_none_iff_exists'.mp (readable first List.mem_cons_self)
      have later := scan_flatMap_contents disk
        fun p member => readable p (List.mem_cons_of_mem first member)
      rw [chainContents] at later ⊢
      rw [scan, onDisk, List.flatMap_cons, List.flatMap_cons, later, pageContents, onDisk]

variable {db : Database V} {chain : List PageId} {pageId : PageId} {page : TablePage} {index : Nat}

/-- Writing a page of the chain exchanges what that page contributes. -/
theorem chainContents_writePage (nodup : chain.Nodup) (inChain : pageId ∈ chain)
    (found : db.disk pageId = some page) :
    ∃ rest, (chainContents f db.disk chain).Perm (page.slots.filterMap f ++ rest) ∧
      ∀ page', (chainContents f (db.writePage pageId page').disk chain).Perm
        (page'.slots.filterMap f ++ rest) := by
  obtain ⟨rest, split⟩ := flatMap_update (pageContents f db.disk) nodup inChain
  refine ⟨rest, ?_, fun page' => ?_⟩
  · have whole := split _ fun _ _ _ => rfl
    rw [pageContents, found] at whole
    exact whole
  · have whole := split (pageContents f (db.writePage pageId page').disk)
      fun p _ distinct => by
        rw [pageContents, pageContents, Database.writePage]
        simp only [Function.update_of_ne distinct]
    rw [pageContents, Database.writePage] at whole
    simp only [Function.update_self] at whole
    exact whole

/-- Changing a slot exchanges what the slot contributes. -/
theorem chainContents_setSlot {record : Record} (nodup : chain.Nodup) (inChain : pageId ∈ chain)
    (found : db.disk pageId = some page) (slot : page.slot index = some record) :
    ∃ rest, (chainContents f db.disk chain).Perm ((f (some record)).toList ++ rest) ∧
      ∀ content, (chainContents f (db.writePage pageId (page.setSlot index content)).disk chain).Perm
        ((f content).toList ++ rest) := by
  have here : page.slots[index]? = some (some record) := by
    rw [TablePage.slot] at slot
    exact Option.join_eq_some_iff.mp slot
  obtain ⟨outside, before, after⟩ := chainContents_writePage f nodup inChain found
  obtain ⟨inside, old, new⟩ := filterMap_set f here
  refine ⟨inside ++ outside, ?_, fun content => ?_⟩
  · rw [← List.append_assoc]
    exact before.trans (old.append_right outside)
  · rw [← List.append_assoc]
    exact (after _).trans ((new content).append_right outside)

/-- A record appended to a page adds what it contributes. -/
theorem chainContents_append (nodup : chain.Nodup) (inChain : pageId ∈ chain)
    (found : db.disk pageId = some page) (content : Slot) (offset : Nat) :
    (chainContents f (db.writePage pageId ⟨page.slots ++ [content], offset⟩).disk chain).Perm
      ((f content).toList ++ chainContents f db.disk chain) := by
  obtain ⟨outside, before, after⟩ := chainContents_writePage f nodup inChain found
  have shown : (page.slots ++ [content]).filterMap f =
      page.slots.filterMap f ++ (f content).toList := by
    rw [List.filterMap_append, List.filterMap_cons]
    cases f content <;> rfl
  refine (after _).trans ?_
  rw [shown]
  refine (List.perm_append_comm.append_right outside).trans ?_
  rw [List.append_assoc]
  exact before.symm.append_left _

end Contents

end QinDB.Executor
