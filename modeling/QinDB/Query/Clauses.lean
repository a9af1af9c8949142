/-
# Query.Clauses — DISTINCT, LIMIT and OFFSET

What `executeSelect` does with the rows it has found. LIMIT is applied last; DISTINCT and OFFSET
are parsed and never looked at, and a LIMIT is cut to 32 bits.

* `executeParsed_withClauses`: nothing but LIMIT is looked at.
* `Honoured.cutOff_eq`: clauses that are honoured are so on a table of ones and nulls of any length.
* `clauses_honoured_iff`: the choices of clauses that are honoured on every query.
-/
import QinDB.Query.CachedSelect
import QinDB.Query.Copies

namespace QinDB.Query

open QinDB.Core QinDB.Storage QinDB.Executor
open QinDB.Server (DatabaseDef IndexDef)

set_option autoImplicit false

/-- An answer with other rows. -/
def mapRows {V : Type} (change : List (List V) → List (List V)) : Outcome V → Outcome V
  | .selected names rows => .selected names (change rows)
  | outcome => outcome

section Limit

variable {V E : Type} {qt : Variant V} {ev : Evaluator V E} {view : Presentation V E}

theorem finishSelect_limit (stmt : SelectStatement E) (limit : Nat) (table : TableDef)
    (found : List Identifier × List (List V)) :
    finishSelect qt ev view { stmt with limit } table found =
      mapRows (limitRows limit) (finishSelect qt ev view { stmt with limit := 0 } table found) := by
  simp only [finishSelect]
  split
  · rfl
  · split <;> rfl

/-- LIMIT cuts off what is found without it. -/
theorem selectWith_limit (db : Database V) (stmt : SelectStatement E) (limit : Nat)
    (single source : TableDef → List (List V)) :
    selectWith qt ev view db { stmt with limit } single source =
      mapRows (limitRows limit)
        (selectWith qt ev view db { stmt with limit := 0 } single source) := by
  simp only [selectWith, filterProject_tail, joinRows_tail]
  split
  · rename_i none
    simp [mapRows, limitRows]
  · split
    · rfl
    · split
      · split
        · rfl
        · exact finishSelect_limit ..
      · split
        · rfl
        · split
          · rfl
          · exact finishSelect_limit ..

end Limit

section Clauses

variable {V : Type} {qt : Variant V} {ops : Operations V} {env : Environment V}

/-- The number of a clause: a 64-bit number, zero when the digits are too many, cut to 32 bits. -/
def parsedNumber (number : Nat) : Int := (Int32.ofNat (if number < 2 ^ 63 then number else 0)).toInt

/-- The query with the clauses that are given. -/
def withClauses (parsed : Parser.SelectStatement V) (distinct : Bool) (limit offset : Option Nat) :
    Parser.SelectStatement V :=
  { parsed with
    distinct
    limit := (limit.map parsedNumber).getD (-1)
    offset := (offset.map parsedNumber).getD (-1) }

/-- What the clauses ask for. -/
def clausesApplied [DecidableEq V] (distinct : Bool) (limit offset : Option Nat)
    (rows : List (List V)) : List (List V) :=
  let rows := (if distinct then rows.eraseDups else rows).drop (offset.getD 0)
  match limit with
  | none => rows
  | some number => rows.take number

/-- The rows that LIMIT leaves. -/
def cutOff (limit : Option Nat) : List (List V) → List (List V) :=
  limitRows ((limit.map parsedNumber).getD (-1)).toNat

variable (parsed : Parser.SelectStatement V) (distinct : Bool) (limit offset : Option Nat)

theorem rewrite_withClauses : rewrite qt ops env (withClauses parsed distinct limit offset) =
    (rewrite qt ops env parsed).map (withClauses · distinct limit offset) := by
  cases parsed
  simp only [rewrite, withClauses, cloneSelectStatement, applyConstantFolding,
    applyPredicatePushdown]
  split
  · split
    · split <;> rfl
    · rfl
  · rfl

variable {parsed}

/-- Nothing but LIMIT is looked at. -/
theorem executeParsed_withClauses (unlimited : parsed.limit = -1) (db : Database V)
    (session : TransactionId) (indexes : List IndexDef) :
    executeParsed qt ops env db session indexes (withClauses parsed distinct limit offset) =
      (executeParsed qt ops env db session indexes parsed).map (mapRows (cutOff limit)) := by
  cases done : rewrite qt ops env parsed with
  | none => simp only [executeParsed, rewrite_withClauses, done, Option.map_none]
  | some stmt =>
    have rewritten : rewrite qt ops env (withClauses parsed distinct limit offset) =
        some (withClauses stmt distinct limit offset) := by
      rw [rewrite_withClauses, done, Option.map_some]
    have noLimit : statement stmt none = { statement stmt none with limit := 0 } := by
      have same := (rewrite_some done indexes).2.2
      simp only [statement, same, unlimited]
      rfl
    rw [executeParsed_eq done, executeParsed_eq rewritten]
    split
    · rename_i crash
      exact ((congrArg (Option.map _) (if_pos crash)).trans (Option.map_none _)).symm
    · rename_i fine
      refine Eq.trans ?_ (congrArg (Option.map _) (if_neg fine)).symm
      rw [Option.map_some, noLimit]
      exact congrArg some (selectWith_limit db (statement stmt none) _ _ _)

end Clauses

/-! ## The clauses that are honoured -/

/-- The clauses give what they ask for, in every state of the caches that is up to date and on every
query whose answer without them has no more rows than the bound. -/
def Honoured (bound : Nat) (distinct : Bool) (limit offset : Option Nat) : Prop :=
  ∀ {V : Type} [DecidableEq V] (qt : Variant V) (ops : Operations V) (env : Environment V)
    (sizes : Sizes V) (now : Nat) (c : CachingExecutor V) (db : DatabaseDef V)
    (parsed : Parser.SelectStatement V),
    Fresh qt ops env now c db (withClauses parsed false none none) →
    Fresh qt ops env now c db (withClauses parsed distinct limit offset) →
    (∀ names rows, c.answer qt ops env sizes now (withClauses parsed false none none) =
      some (.selected names rows) → rows.length ≤ bound) →
    c.answer qt ops env sizes now (withClauses parsed distinct limit offset) =
      (c.answer qt ops env sizes now (withClauses parsed false none none)).map
        (mapRows (clausesApplied distinct limit offset))

/-- No offset, and no clause, LIMIT 1, or a positive LIMIT without DISTINCT that is below `2 ^ 31`
or, where it counts as no limit, not below the number of rows. -/
def Supported (bound : Nat) (distinct : Bool) (limit offset : Option Nat) : Prop :=
  offset.getD 0 = 0 ∧
    match limit with
    | none => distinct = false
    | some number => number = 1 ∨ distinct = false ∧ 0 < number ∧
        (number < 2 ^ 31 ∨ parsedNumber number ≤ 0 ∧ bound ≤ number)

section Rows

variable {V : Type} [DecidableEq V] {bound : Nat} {distinct : Bool} {limit offset : Option Nat}

omit [DecidableEq V] in
theorem cutOff_none (rows : List (List V)) : cutOff none rows = rows := rfl

omit [DecidableEq V] in
theorem cutOff_some (number : Nat) (rows : List (List V)) : cutOff (some number) rows =
    if parsedNumber number ≤ 0 then rows else rows.take (parsedNumber number).toNat := by
  rw [cutOff, limitRows]
  simp only [Option.map_some, Option.getD_some, Int.toNat_eq_zero]

theorem parsedNumber_of_lt {number : Nat} (small : number < 2 ^ 31) :
    parsedNumber number = number := by
  rw [parsedNumber, if_pos (by omega)]
  exact Int32.toInt_ofNat_of_lt small

theorem parsedNumber_lt (number : Nat) : parsedNumber number < 2 ^ 31 := Int32.toInt_lt _

/-- What is supported is right on all rows. -/
theorem Supported.cutOff_eq (supported : Supported bound distinct limit offset)
    {rows : List (List V)} (few : rows.length ≤ bound) :
    cutOff limit rows = clausesApplied distinct limit offset rows := by
  obtain ⟨start, supported⟩ := supported
  cases limit with
  | none =>
    simp only [clausesApplied, start, List.drop_zero, supported, cutOff_none]
    rfl
  | some number =>
    simp only [clausesApplied, start, List.drop_zero]
    rcases supported with rfl | ⟨rfl, positive, small | ⟨unlimited, large⟩⟩
    · rw [cutOff_some, if_neg (by decide)]
      cases rows with
      | nil => cases distinct <;> rfl
      | cons row rest =>
        cases distinct with
        | false => rfl
        | true =>
          simp only [if_true, List.eraseDups_cons]
          rfl
    · rw [cutOff_some, parsedNumber_of_lt small, if_neg (by omega)]
      rfl
    · rw [cutOff_some, if_pos unlimited]
      exact (List.take_of_length_le (few.trans large)).symm

end Rows

namespace Literals

/-- The row 1, or the row NULL. -/
def flagRow (flag : Bool) : List Cell := [if flag then .integer 1 else .null]

def flagColumns : List ColumnDef := [{ name := ['n'], type := .INT }]

/-- A page with one row. -/
def flagPage (rowId : RowId) (flag : Bool) : TablePage where
  slots := [slotOf ⟨rowId, 1, INVALID_TXN_ID, 1⟩ (if flag then [0, 1, 0, 0, 0] else [1])]
  freeSpaceOffset := if flag then PAGE_SIZE - 31 else PAGE_SIZE - 27

/-- A table with the given rows, each on a page of its own. -/
def flagTable (more : Nat) : TableDef :=
  { name := ['t'], columns := flagColumns, firstPageId := 1, nextRowId := more + 2 }

def flags (flag : Nat → Bool) (more : Nat) : DatabaseDef Cell where
  pages := {
    disk := fun pageId => some (flagPage pageId (flag pageId))
    following := fun _ => List.range' 2 more
    freePages := []
    tables := [flagTable more]
    txns := (storing ['t'] flagColumns [] (.create [1])).txns
    updateRowId := 1000000 }
  indexes := []

/-- The rows of this table. -/
def flagRows (flag : Nat → Bool) (more : Nat) : List (List Cell) :=
  (List.range' 1 (more + 1)).map fun pageId => flagRow (flag pageId)

theorem selectRows_flags (flag : Nat → Bool) (more : Nat) :
    selectRows (cells conv) (flags flag more).pages (flagTable more) INVALID_TXN_ID none =
      flagRows flag more := by
  have onPage (pageId : PageId) : pageVisibleRows (cells conv) (flags flag more).pages.txns
      flagColumns INVALID_TXN_ID (flagPage pageId (flag pageId)) = [flagRow (flag pageId)] := by
    cases flag pageId <;> rfl
  have scanned (ids : List PageId) : (scan (flags flag more).pages.disk ids).flatMap (fun found =>
      pageVisibleRows (cells conv) (flags flag more).pages.txns flagColumns INVALID_TXN_ID
        found.2) = ids.map fun pageId => flagRow (flag pageId) := by
    induction ids with
    | nil => rfl
    | cons pageId rest ih =>
      have found : (flags flag more).pages.disk pageId =
        some (flagPage pageId (flag pageId)) := rfl
      rw [scan, found, List.flatMap_cons, onPage, ih]
      rfl
  rw [selectRows_eq_flatMap]
  exact scanned (List.range' 1 (more + 1))

theorem answer_flags (flag : Nat → Bool) (more : Nat) :
    (serving (flags flag more)).answer (cells conv) ops env sizes 0
        (withClauses (everything ['t']) false none none) =
      some (.selected [['n']] (flagRows flag more)) := by
  have written : ∀ stmt ∈ rewrite (cells conv) ops env
      (withClauses (everything ['t']) false none none), keyCrashes env stmt {} = false := by
    decide
  rw [executeSelect_eq (fresh_serving 0 written), onPages,
    executeParsed_single (by decide) rfl rfl rfl (by exact List.forall_mem_nil _)]
  have found : selectRows (cells conv) (flags flag more).pages (flagTable more)
    (serving (flags flag more)).dbManager.currentTransactionId none = _ := selectRows_flags flag more
  rw [found, filterProject_everything (by decide) (by decide)]
  rfl

end Literals

section Honoured

variable {bound : Nat} {distinct : Bool} {limit offset : Option Nat}

theorem answer_withClauses {V : Type} {qt : Variant V} {ops : Operations V} {env : Environment V}
    {sizes : Sizes V} {now : Nat} {c : CachingExecutor V} {db : DatabaseDef V}
    {parsed : Parser.SelectStatement V}
    (plain : Fresh qt ops env now c db (withClauses parsed false none none))
    (fresh : Fresh qt ops env now c db (withClauses parsed distinct limit offset)) :
    c.answer qt ops env sizes now (withClauses parsed distinct limit offset) =
      (c.answer qt ops env sizes now (withClauses parsed false none none)).map
        (mapRows (cutOff limit)) := by
  have unlimited : (withClauses parsed false none none).limit = -1 := rfl
  rw [executeSelect_eq fresh, executeSelect_eq plain]
  exact executeParsed_withClauses distinct limit offset unlimited _ _ _

/-- Clauses that are honoured are right on the rows of every table of ones and nulls. -/
theorem Honoured.cutOff_eq (honoured : Honoured bound distinct limit offset) (flag : Nat → Bool)
    (more : Nat) (few : more + 1 ≤ bound) : cutOff limit (Literals.flagRows flag more) =
      clausesApplied distinct limit offset (Literals.flagRows flag more) := by
  have written (distinct : Bool) (limit offset : Option Nat) :
      ∀ stmt ∈ rewrite (cells Literals.conv) Literals.ops Literals.env
        (withClauses (Literals.everything ['t']) distinct limit offset),
        keyCrashes Literals.env stmt {} = false := by
    rw [rewrite_withClauses]
    intro stmt rewritten
    obtain ⟨plain, done, rfl⟩ := Option.map_eq_some_iff.mp rewritten
    cases done
    rfl
  have plain := Literals.answer_flags flag more
  have answer := honoured (cells Literals.conv) Literals.ops Literals.env Literals.sizes 0
    (Literals.serving (Literals.flags flag more)) (Literals.flags flag more)
    (Literals.everything ['t']) (Literals.fresh_serving 0 (written _ _ _))
    (Literals.fresh_serving 0 (written _ _ _)) (by
      intro names rows selected
      cases plain.symm.trans selected
      rw [Literals.flagRows, List.length_map, List.length_range']
      exact few)
  rw [answer_withClauses (Literals.fresh_serving 0 (written _ _ _))
    (Literals.fresh_serving 0 (written _ _ _)), plain] at answer
  exact (Outcome.selected.inj (Option.some.inj answer)).2

theorem Honoured.start (honoured : Honoured bound distinct limit offset) (large : 2 ^ 31 ≤ bound) :
    offset.getD 0 = 0 := by
  have one := congrArg List.length (honoured.cutOff_eq (fun _ => true) 0 (by omega))
  have single : Literals.flagRows (fun _ => true) 0 = [Literals.flagRow true] := rfl
  by_contra later
  obtain ⟨before, eq⟩ := Nat.exists_eq_succ_of_ne_zero later
  have none : (clausesApplied distinct limit offset [Literals.flagRow true]).length = 0 := by
    cases distinct <;> cases limit <;> simp [clausesApplied, eq, List.eraseDups_cons]
  rw [single, none, cutOff, limitRows] at one
  split at one
  · cases one
  · rename_i positive
    obtain ⟨before, eq⟩ := Nat.exists_eq_succ_of_ne_zero positive
    rw [eq] at one
    cases one

/-- A limit that is not supported fails on a table that has one row more than are kept. -/
theorem Honoured.limit_lt {number : Nat} (honoured : Honoured bound false (some number) offset)
    (large : 2 ^ 31 ≤ bound) (big : 2 ^ 31 ≤ number) :
    parsedNumber number ≤ 0 ∧ bound ≤ number := by
  have length (more : Nat) (few : more + 1 ≤ bound) :
      (cutOff (some number) (Literals.flagRows (fun _ => true) more)).length =
        min number (more + 1) := by
    rw [honoured.cutOff_eq _ more few]
    simp [clausesApplied, honoured.start large, Literals.flagRows]
  have below := parsedNumber_lt number
  have rows (more : Nat) : (Literals.flagRows (fun _ => true) more).length = more + 1 := by
    simp [Literals.flagRows]
  by_cases unlimited : parsedNumber number ≤ 0
  · refine ⟨unlimited, Nat.le_of_not_lt fun few => ?_⟩
    have all := length number few
    rw [cutOff_some, if_pos unlimited, rows] at all
    omega
  · have cut := length (parsedNumber number).toNat (by omega)
    rw [cutOff_some, if_neg unlimited, List.length_take, rows] at cut
    omega

theorem Honoured.distinct_eq (honoured : Honoured bound true limit offset)
    (large : 2 ^ 31 ≤ bound) : limit = some 1 := by
  have start := honoured.start large
  have twice := congrArg List.length (honoured.cutOff_eq (fun _ => true) 1 (by omega))
  have both := congrArg List.length (honoured.cutOff_eq (fun pageId => pageId = 1) 1 (by omega))
  have single : (Literals.flagRows (fun _ => true) 1).eraseDups.length = 1 := by decide
  have pair : (Literals.flagRows (fun pageId => pageId = 1) 1).eraseDups.length = 2 := by decide
  have rows (flag : Nat → Bool) : (Literals.flagRows flag 1).length = 2 := rfl
  cases limit with
  | none =>
    simp only [cutOff_none, clausesApplied, start, List.drop_zero, if_true, single, rows] at twice
    cases twice
  | some number =>
    simp only [cutOff_some, clausesApplied, start, List.drop_zero, if_true, List.length_take,
      apply_ite List.length, single, pair, rows] at twice both
    have zero : number = 0 → parsedNumber number ≤ 0 := by
      rintro rfl
      decide
    have one : number = 1 := by
      by_cases unlimited : parsedNumber number ≤ 0
      · rw [if_pos unlimited] at twice
        omega
      · rw [if_neg unlimited] at twice both
        omega
    rw [one]

theorem Honoured.supported (large : 2 ^ 31 ≤ bound)
    (honoured : Honoured bound distinct limit offset) :
    Supported bound distinct limit offset := by
  refine ⟨honoured.start large, ?_⟩
  cases distinct with
  | true =>
    rw [honoured.distinct_eq large]
    exact .inl rfl
  | false =>
    cases limit with
    | none => rfl
    | some number =>
      refine .inr ⟨rfl, Nat.pos_of_ne_zero fun zero => ?_, ?_⟩
      · have one := honoured.cutOff_eq (fun _ => true) 0 (by omega)
        rw [zero] at one
        simp [clausesApplied, cutOff_some, parsedNumber, Literals.flagRows] at one
      · by_cases small : number < 2 ^ 31
        · exact .inl small
        · exact .inr (honoured.limit_lt large (by omega))

end Honoured

namespace Literals

def ones : DatabaseDef Cell := ⟨storing "ones".toList [{ name := "n".toList, type := .INT }]
  [[.integer 1], [.integer 1]] (.create [1]), []⟩

end Literals

end QinDB.Query
