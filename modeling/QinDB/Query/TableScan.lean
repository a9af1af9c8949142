/-
# Query.TableScan — SELECT on a single table

The branch of `executeSelect` without JOIN, with both caches off, on the bytes of the pages. The
loop follows the page links, so it returns only on a chain that ends; each page is decoded slot by
slot, each record is checked for visibility, filtered and projected, and the first error ends the
statement. The result keeps its rows when the export to a file fails.

* `scanFrom_chain`: on a chain that ends the loop returns after as many pages, with the rows of
  all of them.
* `selectTable_rows_iff`: the rows are those of the visible records on which WHERE is true, unless
  an index reports the invalid row id and there are such rows.
* `selectTable_eq_selectResult`: on the pages of a database it is the answer of `selectResult`.
-/
import QinDB.Query.ParsedSelect

namespace QinDB.Query

open QinDB.Core QinDB.Storage QinDB.Executor
open QinDB.Parser (Expression)
open QinDB.Server (IndexDef)

set_option autoImplicit false

/-! ## Pages and their links -/

/-- The records of a page in slot order, as far as they decode, and the link to the next page. -/
abbrev Fetched (V : Type) := List (RecordHeader × List V) × PageId

/-- A page of the disk with its link. -/
structure LinkedPage where
  page : RawPage
  nextPageId : PageId

/-- What a scan sees of the pages of the disk. -/
def fetchRecords {V : Type} (qt : Variant V) (columns : List ColumnDef)
    (disk : PageId → Option LinkedPage) (pageId : PageId) : Option (Fetched V) :=
  (disk pageId).map fun linked => (linked.page.getAllRecords qt columns, linked.nextPageId)

/-- The links from a page on end after these pages. -/
inductive Chain {V : Type} (fetch : PageId → Option (Fetched V)) :
    PageId → List (List (RecordHeader × List V)) → Prop
  | nil : Chain fetch INVALID_PAGE_ID []
  | cons {pageId nextPageId : PageId} {records : List (RecordHeader × List V)}
      {rest : List (List (RecordHeader × List V))} (valid : pageId ≠ INVALID_PAGE_ID)
      (fetched : fetch pageId = some (records, nextPageId)) (later : Chain fetch nextPageId rest) :
      Chain fetch pageId (records :: rest)

/-- What a statement returns; `error` is none when it succeeded. -/
structure QueryResult (V : Type) where
  error : Option ExecError
  columnNames : List Identifier
  rows : List (List V)
  deriving DecidableEq

section Select

variable {V : Type} (qt : Variant V) (ops : Operations V) (env : Environment V)
  (txns : TransactionManager V) (current : TransactionId) (table : TableDef)
  (stmt : SelectStatement (Expression V))

/-! ## The loops -/

/-- WHERE on one row; a MATCH that an index serves is not evaluated. -/
def passes (row : List V) : Except ExecError Bool :=
  if stmt.fullText.isSome then .ok true
  else matchesWhere qt (expressionEvaluator qt ops) table stmt.whereClause row

/-- The select list on one row. -/
def projected (row : List V) : Except ExecError (List V) :=
  if isSelectAll env.view stmt then .ok row
  else projectRow (expressionEvaluator qt ops) table.toTableSchema row stmt.selectList

def undeletedIds (records : List (RecordHeader × List V)) : List RowId :=
  records.filterMap fun (header, _) =>
    if header.deleteTxnId ≠ INVALID_TXN_ID then none else some header.rowId

/-- The records of a page from a position on, added to the rows found before. -/
def selectRecords (rowIds : List RowId) :
    List (RecordHeader × List V) → Nat → List (List V) → Except ExecError (List (List V))
  | [], _, rows => .ok rows
  | (header, row) :: rest, position, rows =>
      if fullTextKeeps stmt.fullText rowIds position && txns.isVisible header current then
        match passes qt ops table stmt row with
        | .error error => .error error
        | .ok false => selectRecords rowIds rest (position + 1) rows
        | .ok true =>
            match projected qt ops env table stmt row with
            | .error error => .error error
            | .ok values => selectRecords rowIds rest (position + 1) (rows ++ [values])
      else selectRecords rowIds rest (position + 1) rows

/-- The loop over the pages, cut off after a number of them. A page that cannot be fetched ends
it. -/
def scanFrom (fetch : PageId → Option (Fetched V)) :
    Nat → PageId → List (List V) → Option (Except ExecError (List (List V)))
  | 0, pageId, rows => if pageId = INVALID_PAGE_ID then some (.ok rows) else none
  | fuel + 1, pageId, rows =>
      if pageId = INVALID_PAGE_ID then some (.ok rows)
      else
        match fetch pageId with
        | none => some (.ok rows)
        | some (records, nextPageId) =>
            match selectRecords qt ops env txns current table stmt (undeletedIds records)
                records 0 rows with
            | .error error => some (.error error)
            | .ok rows => scanFrom fetch fuel nextPageId rows

def exportError : Option ExecError :=
  match stmt.exportFilePath with
  | none => none
  | some path => if env.exportsTo path then none else some (.exportFile path)

/-- The result that is handed out; rows stay in it when their export fails. -/
def resulting : Outcome V → QueryResult V
  | .selected names rows => ⟨exportError env stmt, names, rows⟩
  | .failed error => ⟨some error, [], []⟩
  | _ => ⟨none, [], []⟩

/-- GROUP BY, ORDER BY, LIMIT and the export, once the rows are found. -/
def finished (found : List Identifier × List (List V)) : QueryResult V :=
  resulting env stmt (finishSelect qt (expressionEvaluator qt ops) env.view stmt table found)

end Select

section Statement

variable {V : Type} (qt : Variant V) (ops : Operations V) (env : Environment V)

/-- A SELECT without JOIN; `none` when the loop has not ended after `fuel` pages, or when a null
pointer of the select list is dereferenced. -/
def selectTable (fuel : Nat) (fetch : PageId → Option (Fetched V)) (txns : TransactionManager V)
    (current : TransactionId) (table : TableDef) (indexes : List IndexDef)
    (parsed : Parser.SelectStatement V) : Option (QueryResult V) :=
  let stmt := statement parsed (fullTextResults env indexes parsed)
  let names := columnNames env.view stmt table
  let useIndex := if stmt.fullText.isSome then none
    else reportedRow qt env table indexes parsed.where_
  if !namesColumns env stmt then none
  else if useIndex = some INVALID_ROW_ID then some (finished qt ops env table stmt (names, []))
  else
    (scanFrom qt ops env txns current table stmt fetch fuel table.firstPageId []).map fun scanned =>
      match scanned with
      | .error error => ⟨some error, [], []⟩
      | .ok rows => finished qt ops env table stmt (names, rows)

end Statement

/-! ## The loops and the rows they let through -/

section Loops

variable {V : Type} {qt : Variant V} {ops : Operations V} {env : Environment V}
  {txns : TransactionManager V} {current : TransactionId} {table : TableDef}
  {stmt : SelectStatement (Expression V)}

variable (txns current stmt) in
/-- The rows of a page that are filtered and projected, from a position on. -/
def keptRows (rowIds : List RowId) (records : List (RecordHeader × List V)) (position : Nat) :
    List (List V) :=
  ((records.zipIdx position).filter fun (record, index) =>
    fullTextKeeps stmt.fullText rowIds index && txns.isVisible record.1 current).map (·.1.2)

theorem filterProject_cons (row : List V) (rest : List (List V)) :
    filterProject qt (expressionEvaluator qt ops) env.view stmt table (row :: rest) =
      match passes qt ops table stmt row with
      | .error error => .error error
      | .ok false => filterProject qt (expressionEvaluator qt ops) env.view stmt table rest
      | .ok true =>
          match projected qt ops env table stmt row with
          | .error error => .error error
          | .ok values =>
              (filterProject qt (expressionEvaluator qt ops) env.view stmt table rest).map
                (values :: ·) := by
  rw [filterProject, ← passes, ← projected]
  cases passes qt ops table stmt row with
  | error => rfl
  | ok passed =>
    cases passed
    · rfl
    · cases projected qt ops env table stmt row with
      | error => rfl
      | ok =>
        cases filterProject qt (expressionEvaluator qt ops) env.view stmt table rest <;> rfl

theorem filterProject_append (first second : List (List V)) :
    filterProject qt (expressionEvaluator qt ops) env.view stmt table (first ++ second) =
      match filterProject qt (expressionEvaluator qt ops) env.view stmt table first with
      | .error error => .error error
      | .ok rows =>
          (filterProject qt (expressionEvaluator qt ops) env.view stmt table second).map
            (rows ++ ·) := by
  induction first with
  | nil =>
    rw [List.nil_append, filterProject]
    cases filterProject qt (expressionEvaluator qt ops) env.view stmt table second <;> rfl
  | cons row rest ih =>
    rw [List.cons_append, filterProject_cons, filterProject_cons, ih]
    cases passes qt ops table stmt row with
    | error => rfl
    | ok passed =>
      cases passed
      · rfl
      · cases projected qt ops env table stmt row with
        | error => rfl
        | ok values =>
          cases filterProject qt (expressionEvaluator qt ops) env.view stmt table rest <;>
            cases filterProject qt (expressionEvaluator qt ops) env.view stmt table second <;> rfl

/-- The loop over the records of a page filters and projects the kept rows. -/
theorem selectRecords_eq (rowIds : List RowId) (records : List (RecordHeader × List V)) :
    ∀ (position : Nat) (rows : List (List V)),
      selectRecords qt ops env txns current table stmt rowIds records position rows =
        (filterProject qt (expressionEvaluator qt ops) env.view stmt table
          (keptRows txns current stmt rowIds records position)).map (rows ++ ·) := by
  induction records with
  | nil =>
    intro position rows
    rw [selectRecords, keptRows, List.zipIdx_nil, List.filter_nil, List.map_nil, filterProject,
      Except.map, List.append_nil]
  | cons record rest ih =>
    intro position rows
    obtain ⟨header, row⟩ := record
    rw [selectRecords, keptRows, List.zipIdx_cons, List.filter_cons]
    dsimp only
    by_cases kept : (fullTextKeeps stmt.fullText rowIds position && txns.isVisible header current)
        = true
    · rw [if_pos kept, if_pos kept, List.map_cons, filterProject_cons, ih, ← keptRows]
      cases passes qt ops table stmt row with
      | error => rfl
      | ok passed =>
        cases passed
        · rfl
        · cases projected qt ops env table stmt row with
          | error => rfl
          | ok values =>
            dsimp only
            rw [ih]
            cases filterProject qt (expressionEvaluator qt ops) env.view stmt table
              (keptRows txns current stmt rowIds rest (position + 1)) with
            | error => rfl
            | ok found => simp only [Except.map, List.append_assoc, List.singleton_append]
    · rw [if_neg kept, if_neg kept, ih, keptRows]

variable (txns current stmt) in
/-- The rows of all pages that are filtered and projected. -/
def rowsOfPages (pages : List (List (RecordHeader × List V))) : List (List V) :=
  pages.flatMap fun records => keptRows txns current stmt (undeletedIds records) records 0

/-- On links that end the loop ends after as many pages, having filtered and projected the kept rows
of all of them. -/
theorem scanFrom_chain {fetch : PageId → Option (Fetched V)} {pageId : PageId}
    {pages : List (List (RecordHeader × List V))} (chain : Chain fetch pageId pages) :
    ∀ (fuel : Nat) (rows : List (List V)), pages.length ≤ fuel →
      scanFrom qt ops env txns current table stmt fetch fuel pageId rows =
        some ((filterProject qt (expressionEvaluator qt ops) env.view stmt table
          (rowsOfPages txns current stmt pages)).map (rows ++ ·)) := by
  induction chain with
  | nil =>
    intro fuel rows _
    rw [rowsOfPages, List.flatMap_nil, filterProject, Except.map, List.append_nil]
    cases fuel <;> rw [scanFrom, if_pos rfl]
  | cons valid fetched later ih =>
    intro fuel rows enough
    rename_i pageId nextPageId records rest
    obtain ⟨fuel, rfl⟩ : ∃ less, fuel = less + 1 :=
      ⟨fuel - 1, by rw [List.length_cons] at enough; omega⟩
    rw [scanFrom, if_neg valid, fetched]
    dsimp only
    rw [selectRecords_eq, rowsOfPages, List.flatMap_cons, filterProject_append, ← rowsOfPages]
    cases filterProject qt (expressionEvaluator qt ops) env.view stmt table
      (keptRows txns current stmt (undeletedIds records) records 0) with
    | error => rfl
    | ok found =>
      simp only [Except.map]
      rw [ih fuel (rows ++ found) (by rw [List.length_cons] at enough; omega)]
      cases filterProject qt (expressionEvaluator qt ops) env.view stmt table
        (rowsOfPages txns current stmt rest) with
      | error => rfl
      | ok => simp only [Except.map, List.append_assoc]

end Loops

/-! ## The rows a SELECT is for -/

section Answer

variable {V : Type} (qt : Variant V) (ops : Operations V) (env : Environment V)
  (txns : TransactionManager V) (current : TransactionId) (table : TableDef)
  (parsed : Parser.SelectStatement V)

/-- WHERE is true on a row; without WHERE it is. -/
def whereTrue (row : List V) : Bool :=
  match parsed.where_ with
  | .null => true
  | condition =>
      match evaluateWithRow qt ops condition (some table.toTableSchema) row with
      | .ok value => Executor.isTrue qt value
      | .error _ => false

/-- A row as the select list wants it. -/
def projection (row : List V) : Option (List V) :=
  if isSelectAll env.view (statement parsed none) then some row
  else parsed.selectList.mapM fun expr =>
    (evaluateWithRow qt ops expr (some table.toTableSchema) row).toOption

/-- The projections of the visible rows on which WHERE is true, in the order of the chain. -/
def answer (pages : List (List (RecordHeader × List V))) : List (List V) :=
  (pages.flatten.filter fun record =>
    txns.isVisible record.1 current && whereTrue qt ops table parsed record.2).filterMap
      fun record => projection qt ops env table parsed record.2

/-- WHERE evaluates on a row, and where it is true the select list does. -/
structure RowEvaluates (row : List V) : Prop where
  condition : parsed.where_ ≠ .null →
    ∃ value, evaluateWithRow qt ops parsed.where_ (some table.toTableSchema) row = .ok value
  selectList : whereTrue qt ops table parsed row = true →
    ∃ values, projection qt ops env table parsed row = some values

end Answer

section AnswerLemmas

variable {V : Type} {qt : Variant V} {ops : Operations V} {env : Environment V}
  {txns : TransactionManager V} {current : TransactionId} {table : TableDef}
  {parsed : Parser.SelectStatement V}

theorem passes_statement {row : List V} (evaluates : RowEvaluates qt ops env table parsed row) :
    passes qt ops table (statement parsed none) row =
      .ok (whereTrue qt ops table parsed row) := by
  have condition := evaluates.condition
  rw [passes, whereTrue, if_neg (by simp [statement])]
  dsimp only [statement]
  cases given : parsed.where_ with
  | null => rfl
  | _ =>
    obtain ⟨value, evaluated⟩ := condition (by simp [given])
    rw [given] at evaluated
    simp [matchesWhere, clause, expressionEvaluator, evaluated, Executor.isTrue]

theorem projectRow_eq (schema : TableSchema) (row : List V) (exprs : List (Expression V))
    {values : List V} (evaluated : exprs.mapM (fun expr =>
      (evaluateWithRow qt ops expr (some schema) row).toOption) = some values) :
    projectRow (expressionEvaluator qt ops) schema row exprs = .ok values := by
  induction exprs generalizing values with
  | nil =>
    cases evaluated
    rfl
  | cons expr rest ih =>
    rw [List.mapM_cons] at evaluated
    cases first : evaluateWithRow qt ops expr (some schema) row with
    | error => simp [first, Except.toOption] at evaluated
    | ok value =>
      cases later : rest.mapM (fun expr =>
          (evaluateWithRow qt ops expr (some schema) row).toOption) with
      | none =>
        rw [first, later] at evaluated
        simp [Except.toOption] at evaluated
      | some others =>
        rw [first, later] at evaluated
        have joined : value :: others = values := Option.some.inj evaluated
        have here : (expressionEvaluator qt ops).evaluateWithRow expr (some schema) row =
            .ok value := first
        rw [projectRow, here, ih later, ← joined]

theorem projected_statement {row values : List V}
    (wanted : projection qt ops env table parsed row = some values) :
    projected qt ops env table (statement parsed none) row = .ok values := by
  rw [projection] at wanted
  rw [projected]
  split at wanted
  · rename_i everything
    rw [if_pos everything, Option.some.inj wanted]
  · rename_i listed
    rw [if_neg listed]
    exact projectRow_eq table.toTableSchema row parsed.selectList wanted

/-- Rows on which everything evaluates are filtered by WHERE and projected. -/
theorem filterProject_evaluates {rows : List (List V)}
    (evaluates : ∀ row ∈ rows, RowEvaluates qt ops env table parsed row) :
    filterProject qt (expressionEvaluator qt ops) env.view (statement parsed none) table rows =
      .ok ((rows.filter (whereTrue qt ops table parsed)).filterMap
        (projection qt ops env table parsed)) := by
  induction rows with
  | nil => rfl
  | cons row rest ih =>
    have here := evaluates row List.mem_cons_self
    rw [filterProject_cons, passes_statement here, ih fun row among =>
      evaluates row (List.mem_cons_of_mem _ among), List.filter_cons]
    cases passed : whereTrue qt ops table parsed row with
    | false => rfl
    | true =>
      obtain ⟨values, wanted⟩ := here.selectList passed
      dsimp only
      rw [projected_statement wanted, if_pos rfl, List.filterMap_cons_some wanted]
      rfl

theorem keptRows_without_match {stmt : SelectStatement (Expression V)}
    (noMatch : stmt.fullText = none) (rowIds : List RowId)
    (records : List (RecordHeader × List V)) (position : Nat) :
    keptRows txns current stmt rowIds records position =
      (records.filter fun record => txns.isVisible record.1 current).map (·.2) := by
  induction records generalizing position with
  | nil => rfl
  | cons record rest ih =>
    have later := ih (position + 1)
    rw [keptRows, noMatch] at later ⊢
    rw [List.zipIdx_cons, List.filter_cons, List.filter_cons]
    cases visible : txns.isVisible record.1 current <;>
      simpa [fullTextKeeps, visible] using later

theorem rowsOfPages_without_match {stmt : SelectStatement (Expression V)}
    (noMatch : stmt.fullText = none) (pages : List (List (RecordHeader × List V))) :
    rowsOfPages txns current stmt pages =
      (pages.flatten.filter fun record => txns.isVisible record.1 current).map (·.2) := by
  induction pages with
  | nil => rfl
  | cons records rest ih =>
    rw [rowsOfPages, List.flatMap_cons, keptRows_without_match noMatch, ← rowsOfPages, ih,
      List.flatten_cons, List.filter_append, List.map_append]

/-- A chain on whose visible rows everything evaluates is scanned to the answer. -/
theorem scanFrom_answer {fetch : PageId → Option (Fetched V)} {pageId : PageId}
    {pages : List (List (RecordHeader × List V))} (chain : Chain fetch pageId pages)
    (evaluates : ∀ record ∈ pages.flatten, txns.isVisible record.1 current = true →
      RowEvaluates qt ops env table parsed record.2) {fuel : Nat} (enough : pages.length ≤ fuel) :
    scanFrom qt ops env txns current table (statement parsed none) fetch fuel pageId [] =
      some (.ok (answer qt ops env txns current table parsed pages)) := by
  have rows : ∀ row ∈ rowsOfPages txns current (statement parsed none) pages,
      RowEvaluates qt ops env table parsed row := by
    intro row among
    rw [rowsOfPages_without_match rfl] at among
    obtain ⟨record, kept, rfl⟩ := List.mem_map.mp among
    obtain ⟨stored, visible⟩ := List.mem_filter.mp kept
    exact evaluates record stored visible
  rw [scanFrom_chain chain fuel [] enough, filterProject_evaluates rows,
    rowsOfPages_without_match rfl, List.filter_map, List.filterMap_map, List.filter_filter, answer]
  simp only [Except.map, List.nil_append]
  congr 3
  exact List.filter_congr fun record _ => Bool.and_comm _ _

theorem fullTextResults_of_ne {indexes : List IndexDef}
    (noMatch : ∀ columns query mode, parsed.where_ ≠ .matchAgainst columns query mode) :
    fullTextResults env indexes parsed = none := by
  rw [fullTextResults]
  split
  · rename_i columns query mode given
    exact absurd given (noMatch _ _ _)
  · rfl

theorem finished_plain (ungrouped : parsed.groupBy = none) (unordered : parsed.orderBy = [])
    (unlimited : parsed.limit ≤ 0) (names : List Identifier) (rows : List (List V)) :
    finished qt ops env table (statement parsed none) (names, rows) =
      ⟨exportError env (statement parsed none), names, rows⟩ := by
  simp [finished, resulting, finishSelect, statement, ungrouped, unordered, limitRows,
    Int.toNat_of_nonpos unlimited]

/-- What a SELECT without JOIN, MATCH, GROUP BY, ORDER BY and LIMIT returns. -/
theorem selectTable_eq {fetch : PageId → Option (Fetched V)} {indexes : List IndexDef}
    {pages : List (List (RecordHeader × List V))} (chain : Chain fetch table.firstPageId pages)
    (noMatch : ∀ columns query mode, parsed.where_ ≠ .matchAgainst columns query mode)
    (ungrouped : parsed.groupBy = none) (unordered : parsed.orderBy = [])
    (unlimited : parsed.limit ≤ 0)
    (evaluates : ∀ record ∈ pages.flatten, txns.isVisible record.1 current = true →
      RowEvaluates qt ops env table parsed record.2) {fuel : Nat} (enough : pages.length ≤ fuel) :
    selectTable qt ops env fuel fetch txns current table indexes parsed =
      if namesColumns env (statement parsed none) = true then
        some ⟨exportError env (statement parsed none),
          columnNames env.view (statement parsed none) table,
          if reportedRow qt env table indexes parsed.where_ = some INVALID_ROW_ID then []
          else answer qt ops env txns current table parsed pages⟩
      else none := by
  have plain : (statement parsed (none : Option (List RowId))).fullText.isSome = false := rfl
  rw [selectTable, fullTextResults_of_ne noMatch]
  simp only [plain, Bool.false_eq_true, if_false]
  cases namesColumns env (statement parsed none) with
  | false => rfl
  | true =>
    simp only [Bool.not_true, Bool.false_eq_true, if_false, if_true]
    split
    · rw [finished_plain ungrouped unordered unlimited]
    · rw [scanFrom_answer chain evaluates enough, Option.map_some]
      exact congrArg some (finished_plain ungrouped unordered unlimited _ _)

end AnswerLemmas

/-- A SELECT without JOIN, MATCH, GROUP BY, ORDER BY and LIMIT on a chain of pages that ends. When
everything evaluates it returns the answer, unless an index reports the invalid row id and the
answer has rows, or a null pointer in the select list has to be printed. -/
theorem selectTable_rows_iff {V : Type} (qt : Variant V) (ops : Operations V) (env : Environment V)
    (disk : PageId → Option LinkedPage) (txns : TransactionManager V) (current : TransactionId)
    (table : TableDef) (indexes : List IndexDef) (parsed : Parser.SelectStatement V)
    {pages : List (List (RecordHeader × List V))}
    (chain : Chain (fetchRecords qt table.columns disk) table.firstPageId pages)
    (noMatch : ∀ columns query mode, parsed.where_ ≠ .matchAgainst columns query mode)
    (ungrouped : parsed.groupBy = none) (unordered : parsed.orderBy = [])
    (unlimited : parsed.limit ≤ 0)
    (evaluates : ∀ record ∈ pages.flatten, txns.isVisible record.1 current = true →
      RowEvaluates qt ops env table parsed record.2) :
    (∀ fuel, pages.length ≤ fuel →
      selectTable qt ops env fuel (fetchRecords qt table.columns disk) txns current table indexes
          parsed =
        some ⟨exportError env (statement parsed none),
          columnNames env.view (statement parsed none) table,
          answer qt ops env txns current table parsed pages⟩) ↔
      namesColumns env (statement parsed none) = true ∧
        (reportedRow qt env table indexes parsed.where_ = some INVALID_ROW_ID →
          answer qt ops env txns current table parsed pages = []) := by
  constructor
  · intro returned
    have result := returned pages.length (Nat.le_refl _)
    rw [selectTable_eq chain noMatch ungrouped unordered unlimited evaluates (Nat.le_refl _)]
      at result
    split at result
    · rename_i named
      refine ⟨named, fun reported => ?_⟩
      rw [if_pos reported] at result
      exact (congrArg QueryResult.rows (Option.some.inj result)).symm
    · cases result
  · rintro ⟨named, harmless⟩ fuel enough
    rw [selectTable_eq chain noMatch ungrouped unordered unlimited evaluates enough, if_pos named]
    split
    · rename_i reported
      rw [harmless reported]
    · rfl

/-! ## The databases of the executor -/

section Databases

variable {V : Type} {qt : Variant V} {ops : Operations V} {env : Environment V}

variable (qt) in
/-- The records of the pages of a table, page by page. -/
def storedRecords (db : Database V) (table : TableDef) : List (List (RecordHeader × List V)) :=
  (scan db.disk (db.chain table)).map fun stored => getAllRecords qt table.columns stored.2

theorem rowsOfPages_storedRecords (db : Database V) (table : TableDef) (current : TransactionId)
    (stmt : SelectStatement (Expression V)) :
    rowsOfPages db.txns current stmt (storedRecords qt db table) =
      selectRows qt db table current stmt.fullText := by
  rw [rowsOfPages, storedRecords, List.flatMap_map, selectRows]
  refine List.flatMap_congr fun stored _ => ?_
  simp only [keptRows, pageRows, List.filter_map, List.map_map]
  rfl

/-- On the pages of a database the loops over page links give the answer of its model, as long as no
index reports the invalid row id. -/
theorem selectTable_eq_selectResult {db : Database V} {table : TableDef} {session : TransactionId}
    {indexes : List IndexDef} {parsed : Parser.SelectStatement V} {name : Identifier}
    {fetch : PageId → Option (Fetched V)}
    (chain : Chain fetch table.firstPageId (storedRecords qt db table))
    (fromTable : parsed.from_.map (·.tableName) = some name) (known : db.getTable name = some table)
    (single : parsed.joins = [])
    (printable : namesColumns env (statement parsed (fullTextResults env indexes parsed)) = true)
    (nothing : reportedRow qt env table indexes parsed.where_ ≠ some INVALID_ROW_ID) {fuel : Nat}
    (enough : (storedRecords qt db table).length ≤ fuel) :
    selectTable qt ops env fuel fetch db.txns session table indexes parsed =
      some (resulting env (statement parsed (fullTextResults env indexes parsed))
        (selectResult qt (expressionEvaluator qt ops) env.view session
          (statement parsed (fullTextResults env indexes parsed)) db)) := by
  have unserved : ¬ (if (statement parsed (fullTextResults env indexes parsed)).fullText.isSome
      then none else reportedRow qt env table indexes parsed.where_) = some INVALID_ROW_ID := by
    split
    · simp
    · exact nothing
  have origin : (statement parsed (fullTextResults env indexes parsed)).from_ = some name :=
    fromTable
  have alone : (statement parsed (fullTextResults env indexes parsed)).joins = [] := by
    rw [statement, single, List.map_nil]
  rw [selectTable]
  simp only [printable, Bool.not_true, Bool.false_eq_true, if_false]
  rw [if_neg unserved, scanFrom_chain chain fuel [] enough, rowsOfPages_storedRecords,
    Option.map_some, selectResult, selectWith, origin]
  dsimp only
  rw [known]
  dsimp only
  rw [alone]
  dsimp only
  cases filterProject qt (expressionEvaluator qt ops) env.view
    (statement parsed (fullTextResults env indexes parsed)) table
    (selectRows qt db table session
      (statement parsed (fullTextResults env indexes parsed)).fullText) <;> rfl

end Databases

/-! ## An index that reports row id zero -/

namespace Literals

/-- Surroundings whose index lookups find the given row. -/
def finding (found : Option RowId) : Environment Cell where
  valueText := fun _ => []
  ofText := fun _ => .null
  ofCount := fun _ => .null
  textLess := fun _ _ => false
  compare := fun _ _ => some .eq
  sort := fun _ rows => rows
  exportsTo := fun _ => false
  lookup := fun _ _ => found
  searchText := fun _ _ _ _ => []

def codes : TableDef :=
  { name := "codes".toList, columns := RawPage.Literals.columns, firstPageId := 1, nextRowId := 2 }

/-- A page with the row `7, ab` of transaction 1. -/
def filled : RawPage :=
  (RawPage.Literals.blank.insertRecord (cells conv) codes.columns 1
    [.integer 7, RawPage.Literals.code] 1).getD RawPage.Literals.blank

def disk : PageId → Option LinkedPage := fun pageId =>
  if pageId = 1 then some ⟨filled, INVALID_PAGE_ID⟩ else none

def onId : IndexDef :=
  { name := "by_id".toList, tableName := "codes".toList, columns := ["id".toList],
    indexType := .BTREE, keyType := .INT, unique := false, rootPageId := 2 }

/-- `SELECT code FROM codes WHERE id = 7`. -/
def byId : Parser.SelectStatement Cell :=
  { distinct := false, selectList := [.column [] "code".toList], selectAliases := [],
    from_ := some ⟨"codes".toList, []⟩, joins := [],
    where_ := .binary (.column [] "id".toList) .EQ (.literal (.integer 7)), groupBy := none,
    orderBy := [], limit := -1, offset := -1, exportFilePath := [], exportFormat := [] }

def pages : List (List (RecordHeader × List Cell)) :=
  [filled.getAllRecords (cells conv) codes.columns]

theorem chain : Chain (fetchRecords (cells conv) codes.columns disk) codes.firstPageId pages :=
  .cons (by decide) rfl .nil

/-- Two pages with the rows `7, ab` and `8, ab` each. -/
def twoPages : Database Cell :=
  let db := storing codes.name codes.columns
    [[.integer 7, RawPage.Literals.code], [.integer 8, RawPage.Literals.code]] (.create [1])
  { db with
    disk := fun _ => db.disk 1
    following := fun _ => [2] }

def linked : PageId → Option (Fetched Cell) := fun pageId =>
  (twoPages.disk pageId).map fun page =>
    (getAllRecords (cells conv) codes.columns page, if pageId = 1 then 2 else INVALID_PAGE_ID)

/-- The loops go over four records and keep one of each page. -/
theorem selectTable_eq_selectResult_byId :
    selectTable (cells conv) ops (finding (some 1)) 2 linked twoPages.txns INVALID_TXN_ID
        (twoPages.tables.headD codes) [onId] byId =
      some ⟨none, ["code".toList], [[RawPage.Literals.code], [RawPage.Literals.code]]⟩ := by
  have chain : Chain linked 1 (storedRecords (cells conv) twoPages (twoPages.tables.headD codes)) :=
    .cons (by decide) rfl (.cons (by decide) rfl .nil)
  rw [selectTable_eq_selectResult chain rfl rfl rfl (by decide) (by decide) (by decide)]
  decide +kernel

/-- Transaction 1 reads its own row. -/
theorem selectTable_rows_byId :
    selectTable (cells conv) ops (finding (some 1)) 1
        (fetchRecords (cells conv) codes.columns disk) .initial 1 codes [onId] byId =
      some ⟨none, ["code".toList],
        answer (cells conv) ops (finding (some 1)) .initial 1 codes byId pages⟩ := by
  refine (selectTable_rows_iff (cells conv) ops (finding (some 1)) disk .initial 1 codes [onId] byId
    chain (by intro _ _ _ same; cases same) rfl rfl (by decide) ?_).mpr ⟨by decide, by decide⟩ 1
    (Nat.le_refl 1)
  intro record among _
  have row : ∀ record ∈ pages.flatten, record.2 = [.integer 7, RawPage.Literals.code] := by
    decide +kernel
  rw [row record among]
  exact ⟨fun _ => ⟨_, rfl⟩, fun _ => ⟨_, rfl⟩⟩

theorem reported_zero :
    selectTable (cells conv) ops (finding (some INVALID_ROW_ID)) 1
        (fetchRecords (cells conv) codes.columns disk) .initial 1 codes [onId] byId =
      some ⟨none, ["code".toList], []⟩ ∧
    answer (cells conv) ops (finding (some INVALID_ROW_ID)) .initial 1 codes byId pages =
      [[RawPage.Literals.code]] := by
  decide +kernel

end Literals

end QinDB.Query
