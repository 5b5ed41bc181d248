import Zhongzhuan.Kit.Json
import Zhongzhuan.Kit.Paging

/-!
# The request logs and their listing

The model of `log_request` and `list_logs` of `store/logs.py`.  A page of `list_logs` is the
newest rows behind the cursor, and the next cursor is the oldest of them, so the next page goes
over the newer ones again and never comes to the older ones.

The columns `token_id` and `cost` are left out: no function modelled here reads them.
-/

namespace Zhongzhuan.Store

open Kit

/-- What `log_request` is given, and the clock. -/
structure LogEntry where
  ts : ℕ
  clientIp : String
  modelName : String
  memberModel : String
  resolvedModelId : Option ℕ
  keyId : Option ℕ
  status : ℤ
  latencyMs : ℤ
  tokensIn : ℤ
  tokensOut : ℤ
  error : String
  requestId : String
  inboundProtocol : String
  outboundProtocol : String
  translated : Bool
deriving DecidableEq, Repr

/-- A row of `request_logs`. -/
structure LogRow where
  id : ℕ
  ts : ℕ
  clientIp : String
  modelName : String
  resolvedModelId : Option ℕ
  keyId : Option ℕ
  status : ℤ
  latencyMs : ℤ
  tokensIn : ℤ
  tokensOut : ℤ
  error : String
  requestId : String
  inboundProtocol : String
  outboundProtocol : String
  translated : Bool
deriving DecidableEq, Repr

/-- The table.  `last` is the number that the key column gave out last. -/
structure RequestLogs where
  rows : List LogRow
  last : ℕ
  sorted : rows.Pairwise fun a b => a.id < b.id
  positive : ∀ row ∈ rows, 0 < row.id
  bounded : ∀ row ∈ rows, row.id ≤ last

namespace RequestLogs

/-- The table before the first request. -/
def empty : RequestLogs :=
  ⟨[], 0, .nil, fun _ mem => absurd mem List.not_mem_nil, fun _ mem => absurd mem List.not_mem_nil⟩

end RequestLogs

/-- `_display_model`: the member that served stands behind the name of its group. -/
def displayModel (modelName memberModel : String) : String :=
  if memberModel ≠ "" ∧ modelName ≠ "" ∧ memberModel ≠ modelName then
    modelName ++ "(" ++ memberModel ++ ")"
  else modelName

/-- The row of an entry. -/
def LogEntry.row (entry : LogEntry) (id : ℕ) : LogRow :=
  { id := id
    ts := entry.ts
    clientIp := entry.clientIp
    modelName := displayModel entry.modelName entry.memberModel
    resolvedModelId := entry.resolvedModelId
    keyId := entry.keyId
    status := entry.status
    latencyMs := entry.latencyMs
    tokensIn := entry.tokensIn
    tokensOut := entry.tokensOut
    error := entry.error
    requestId := entry.requestId
    inboundProtocol := entry.inboundProtocol
    outboundProtocol := entry.outboundProtocol
    translated := entry.translated }

namespace RequestLogs

variable (logs : RequestLogs)

theorem sorted_concat {row : LogRow} (id : row.id = logs.last + 1) :
    (logs.rows ++ [row]).Pairwise fun a b => a.id < b.id := by
  refine List.pairwise_append.mpr ⟨logs.sorted, List.pairwise_singleton _ _, ?_⟩
  intro old mem new same
  rw [List.mem_singleton.mp same, id]
  exact Nat.lt_succ_of_le (logs.bounded old mem)

theorem positive_concat {row : LogRow} (id : row.id = logs.last + 1) :
    ∀ other ∈ logs.rows ++ [row], 0 < other.id := by
  intro other mem
  rcases List.mem_append.mp mem with old | new
  · exact logs.positive other old
  · rw [List.mem_singleton.mp new, id]
    exact Nat.succ_pos _

theorem bounded_concat {row : LogRow} (id : row.id = logs.last + 1) :
    ∀ other ∈ logs.rows ++ [row], other.id ≤ logs.last + 1 := by
  intro other mem
  rcases List.mem_append.mp mem with old | new
  · exact Nat.le_succ_of_le (logs.bounded other old)
  · rw [List.mem_singleton.mp new, id]

/-- `log_request`. -/
def logRequest (entry : LogEntry) : RequestLogs :=
  { rows := logs.rows ++ [entry.row (logs.last + 1)]
    last := logs.last + 1
    sorted := logs.sorted_concat rfl
    positive := logs.positive_concat rfl
    bounded := logs.bounded_concat rfl }

end RequestLogs

/-! ## `list_logs` -/

/-- The two filters of `list_logs`. -/
structure LogFilter where
  model : Option String
  status : Option ℤ
deriving DecidableEq, Repr

/-- A row passes the filters.  `same` is the comparison of the database for the model column. -/
def LogFilter.passes (same : String → String → Bool) (filter : LogFilter) (row : LogRow) : Bool :=
  (match filter.model with
    | some model => decide (model = "") || same row.modelName model
    | none => true)
  && filter.status.all fun status => decide (row.status = status)

/-- `None` is `null`. -/
def optionalId (id : Option ℕ) : Json :=
  match id with
  | some id => .int id
  | none => .null

/-- An entry of `data`. -/
def LogRow.shown (row : LogRow) : Json :=
  .obj
    [("id", .int row.id), ("ts", .int row.ts), ("client_ip", .str row.clientIp),
      ("model_name", .str row.modelName), ("resolved_model_id", optionalId row.resolvedModelId),
      ("key_id", optionalId row.keyId), ("status", .int row.status),
      ("latency_ms", .int row.latencyMs), ("tokens_in", .int row.tokensIn),
      ("tokens_out", .int row.tokensOut), ("error", .str row.error),
      ("request_id", .str row.requestId), ("inbound_protocol", .str row.inboundProtocol),
      ("outbound_protocol", .str row.outboundProtocol), ("translated", .bool row.translated)]

/-- `ORDER BY id DESC`. -/
def downwards (a b : LogRow) : Bool := decide (b.id ≤ a.id)

/-- What `list_logs` answers. -/
structure LogPage where
  data : List Json
  nextCursor : ℕ
deriving DecidableEq, Repr

section

variable (same : String → String → Bool) (logs : RequestLogs) (filter : LogFilter)

/-- The rows of a page: `id > cursor`, `ORDER BY id DESC`, `LIMIT`. -/
def pageRows (cursor limit : ℕ) : List LogRow :=
  ((logs.rows.filter fun row =>
    decide (cursor < row.id) && filter.passes same row).mergeSort downwards).take limit

/-- `list_logs`. -/
def listLogs (cursor limit : ℕ) : LogPage :=
  let rows := pageRows same logs filter cursor limit
  ⟨rows.map LogRow.shown, (rows.getLast?.map LogRow.id).getD cursor⟩

/-- The pages that follow `next_cursor` until one is empty. -/
def logPages (limit : ℕ) (_ : ℕ) (cursor : ℕ) : Page Json ℕ :=
  let page := listLogs same logs filter cursor limit
  ⟨page.data, page.nextCursor, !page.data.isEmpty⟩

/-- The rows that the filters let through. -/
def matching : List LogRow := logs.rows.filter (filter.passes same)

end

section

variable {same : String → String → Bool} {logs : RequestLogs} {filter : LogFilter}
  {cursor limit : ℕ}

theorem matching_sorted (same : String → String → Bool) (logs : RequestLogs)
    (filter : LogFilter) : (matching same logs filter).Pairwise fun a b => a.id < b.id :=
  logs.sorted.sublist List.filter_sublist

theorem eq_of_id {rows : List LogRow} (sorted : rows.Pairwise fun a b => a.id < b.id)
    {a b : LogRow} (memA : a ∈ rows) (memB : b ∈ rows) (id : a.id = b.id) : a = b :=
  List.inj_on_of_nodup_map (List.pairwise_map.mpr (sorted.imp ne_of_lt)) memA memB id

theorem mergeSort_downwards {rows : List LogRow} (sorted : rows.Pairwise fun a b => a.id < b.id) :
    rows.mergeSort downwards = rows.reverse := by
  have transitive : ∀ a b c, downwards a b = true → downwards b c = true →
      downwards a c = true := by
    intro a b c one two
    exact decide_eq_true (le_trans (of_decide_eq_true two) (of_decide_eq_true one))
  have total : ∀ a b, (downwards a b || downwards b a) = true := by
    intro a b
    simp only [downwards, Bool.or_eq_true, decide_eq_true_eq]
    exact le_total b.id a.id
  have antisymm : ∀ a b, a ∈ rows.mergeSort downwards → b ∈ rows.reverse →
      downwards a b = true → downwards b a = true → a = b := by
    intro a b memA memB one two
    exact eq_of_id sorted (List.mem_mergeSort.mp memA) (List.mem_reverse.mp memB)
      (le_antisymm (of_decide_eq_true two) (of_decide_eq_true one))
  have turned : rows.reverse.Pairwise fun a b => downwards a b = true :=
    List.pairwise_reverse.mpr (sorted.imp fun below => decide_eq_true (le_of_lt below))
  exact List.Perm.eq_of_pairwise antisymm (List.pairwise_mergeSort transitive total rows) turned
    ((List.mergeSort_perm rows downwards).trans (List.reverse_perm rows).symm)

/-- The rows behind a cursor. -/
def newer (rows : List LogRow) (cursor : ℕ) : List LogRow :=
  rows.filter fun row => decide (cursor < row.id)

theorem pageRows_eq (same : String → String → Bool) (logs : RequestLogs) (filter : LogFilter)
    (cursor limit : ℕ) :
    pageRows same logs filter cursor limit
      = (newer (matching same logs filter) cursor).reverse.take limit := by
  have rows : (logs.rows.filter fun row => decide (cursor < row.id) && filter.passes same row)
      = newer (matching same logs filter) cursor := by
    rw [newer, matching, List.filter_filter]
  have sorted : (newer (matching same logs filter) cursor).Pairwise fun a b => a.id < b.id :=
    (matching_sorted same logs filter).sublist List.filter_sublist
  rw [pageRows, rows, mergeSort_downwards sorted]

theorem mem_of_mem_pageRows {row : LogRow} (mem : row ∈ pageRows same logs filter cursor limit) :
    row ∈ newer (matching same logs filter) cursor := by
  rw [pageRows_eq] at mem
  exact List.mem_reverse.mp (List.mem_of_mem_take mem)

theorem nextCursor_of_concat {before : List LogRow} {row : LogRow}
    (page : pageRows same logs filter cursor limit = before ++ [row]) :
    (listLogs same logs filter cursor limit).nextCursor = row.id := by
  simp only [listLogs, page, List.getLast?_concat, Option.map_some, Option.getD_some]

theorem exists_last (more : (logPages same logs filter limit 0 cursor).more = true) :
    ∃ before row, pageRows same logs filter cursor limit = before ++ [row]
      ∧ (listLogs same logs filter cursor limit).nextCursor = row.id := by
  rcases List.eq_nil_or_concat (pageRows same logs filter cursor limit)
    with none | ⟨before, row, page⟩
  · rw [logPages, listLogs, none] at more
    cases more
  · rw [List.concat_eq_append] at page
    exact ⟨before, row, page, nextCursor_of_concat page⟩

theorem logPages_end (same : String → String → Bool) (logs : RequestLogs) (filter : LogFilter)
    (limit : ℕ) :
    ∃ fuel data, readPages (logPages same logs filter limit) fuel 0 0 = some data := by
  have shrinks : ∀ n cursor, True → (logPages same logs filter limit n cursor).more = true →
      (newer (matching same logs filter) (logPages same logs filter limit n cursor).cursor).length
        < (newer (matching same logs filter) cursor).length := by
    intro n cursor _ more
    obtain ⟨before, row, page, next⟩ := exists_last more
    have mem := mem_of_mem_pageRows
      (page ▸ List.mem_append_right before (List.mem_singleton_self row))
    have above : cursor < row.id := of_decide_eq_true (List.mem_filter.mp mem).2
    have fewer : newer (matching same logs filter) row.id
        = (newer (matching same logs filter) cursor).filter
            fun other => decide (row.id < other.id) := by
      rw [newer, newer, List.filter_filter]
      refine List.filter_congr fun other _ => ?_
      rw [Bool.eq_iff_iff, Bool.and_eq_true, decide_eq_true_eq, decide_eq_true_eq]
      omega
    change (newer _ (listLogs same logs filter cursor limit).nextCursor).length < _
    rw [next, fewer]
    exact List.length_filter_lt_length_iff_exists.mpr ⟨row, mem, by simp⟩
  obtain ⟨data, read⟩ := readPages_ends
    (fun cursor => (newer (matching same logs filter) cursor).length) (fun _ _ _ _ => trivial)
    shrinks trivial 0
  exact ⟨_, data, read⟩

theorem read_cases {fuel n : ℕ} {data : List Json}
    (read : readPages (logPages same logs filter limit) fuel n cursor = some data) :
    (pageRows same logs filter cursor limit = [] ∧ data = [])
      ∨ ∃ before row rest fuel', pageRows same logs filter cursor limit = before ++ [row]
          ∧ data = (before ++ [row]).map LogRow.shown ++ rest
          ∧ readPages (logPages same logs filter limit) fuel' (n + 1) row.id = some rest := by
  cases fuel with
  | zero => cases read
  | succ fuel =>
      by_cases more : (logPages same logs filter limit n cursor).more = true
      · obtain ⟨before, row, page, next⟩ := exists_last more
        rw [readPages_more more] at read
        obtain ⟨rest, tail, rfl⟩ := Option.map_eq_some_iff.mp read
        refine .inr ⟨before, row, rest, fuel, page, ?_, ?_⟩
        · rw [← page]
          rfl
        · rw [← next]
          exact tail
      · rw [readPages_last (Bool.eq_false_iff.mpr more)] at read
        have none : pageRows same logs filter cursor limit = [] := by
          simpa [logPages, listLogs] using more
        refine .inl ⟨none, ?_⟩
        rw [← Option.some.inj read]
        simp only [logPages, listLogs, none, List.map_nil]

theorem read_newest {fuel n : ℕ} {data : List Json} {older : List LogRow} {top : LogRow}
    (rows : matching same logs filter = older ++ [top])
    (read : readPages (logPages same logs filter limit) fuel n top.id = some data) : data = [] := by
  have sorted := matching_sorted same logs filter
  rw [rows] at sorted
  have none : newer (matching same logs filter) top.id = [] := by
    refine List.filter_eq_nil_iff.mpr fun row mem => ?_
    rw [rows] at mem
    rw [decide_eq_true_eq, not_lt]
    rcases List.mem_append.mp mem with old | new
    · exact ((List.pairwise_append.mp sorted).2.2 row old top (List.mem_singleton_self top)).le
    · rw [List.mem_singleton.mp new]
  rcases read_cases read with ⟨-, empty⟩ | ⟨before, row, rest, fuel', page, -, -⟩
  · exact empty
  · have mem := mem_of_mem_pageRows (page ▸ List.mem_append_right before
      (List.mem_singleton_self row))
    rw [none] at mem
    cases mem

theorem read_older {fuel n : ℕ} {data : List Json} {older : List LogRow} {top : LogRow}
    (rows : matching same logs filter = older ++ [top]) (below : cursor < top.id)
    (positive : 0 < limit)
    (read : readPages (logPages same logs filter limit) fuel n cursor = some data) :
    top.shown ∈ data := by
  have first : ∃ others, pageRows same logs filter cursor limit = top :: others := by
    obtain ⟨size, rfl⟩ := Nat.exists_eq_succ_of_ne_zero positive.ne'
    refine ⟨(newer older cursor).reverse.take size, ?_⟩
    rw [pageRows_eq, rows, newer, List.filter_append, List.filter_singleton, decide_eq_true below]
    simp [newer]
  obtain ⟨others, first⟩ := first
  rcases read_cases read with ⟨none, -⟩ | ⟨before, row, rest, fuel', page, shown, -⟩
  · rw [none] at first
    cases first
  · rw [shown, ← page, first]
    exact List.mem_append_left _ List.mem_cons_self

theorem nodup_shown (same : String → String → Bool) (logs : RequestLogs) (filter : LogFilter) :
    ((matching same logs filter).map LogRow.shown).Nodup := by
  refine List.pairwise_map.mpr ((matching_sorted same logs filter).imp fun below shown => ?_)
  simp only [LogRow.shown, Json.obj.injEq, List.cons.injEq, Prod.mk.injEq, Json.int.injEq,
    true_and] at shown
  have := shown.1
  omega

/-- **What the iteration returns** is every matching row exactly once if there is at most one. -/
theorem read_perm_iff (positive : 0 < limit) {fuel : ℕ} {data : List Json}
    (read : readPages (logPages same logs filter limit) fuel 0 0 = some data) :
    data.Perm ((matching same logs filter).map LogRow.shown)
      ↔ (matching same logs filter).length ≤ 1 := by
  have all : newer (matching same logs filter) 0 = matching same logs filter :=
    List.filter_eq_self.mpr fun row mem =>
      decide_eq_true (logs.positive row (List.mem_of_mem_filter mem))
  rcases List.eq_nil_or_concat (matching same logs filter) with none | ⟨older, top, rows⟩
  · -- no row: the first page is empty
    rcases read_cases read with ⟨-, empty⟩ | ⟨before, row, rest, fuel', page, -, -⟩
    · simp [none, empty]
    · rw [pageRows_eq, all, none] at page
      exact absurd page.symm (by simp)
  · rw [List.concat_eq_append] at rows
    obtain ⟨size, rfl⟩ := Nat.exists_eq_succ_of_ne_zero positive.ne'
    have first : pageRows same logs filter 0 (size + 1) = top :: older.reverse.take size := by
      rw [pageRows_eq, all, rows, List.reverse_append]
      rfl
    rcases read_cases read with ⟨none, -⟩ | ⟨before, row, rest, fuel', page, shown, tail⟩
    · rw [first] at none
      cases none
    · rw [first] at page
      rcases List.eq_nil_or_concat (older.reverse.take size) with alone | ⟨others, last, more⟩
      · -- the first page is the newest row, and nothing is behind it
        rw [alone] at page
        obtain ⟨rfl, rfl⟩ : before = [] ∧ row = top := by
          cases before with
          | nil => exact ⟨rfl, (List.cons.inj page).1.symm⟩
          | cons _ before => exact absurd (List.cons.inj page).2.symm (by simp)
        rw [shown, read_newest rows tail, rows]
        constructor
        · intro perm
          have := perm.length_eq
          simpa using this.ge
        · intro short
          have : older = [] := List.eq_nil_of_length_eq_zero (by simpa using short)
          rw [this]
          exact .refl _
      · -- the first page has an older row too: the next page has the newest again
        rw [List.concat_eq_append] at more
        obtain rfl : row = last := by
          have ends := congrArg List.getLast? page
          rw [more, ← List.cons_append, List.getLast?_concat, List.getLast?_concat] at ends
          exact (Option.some.inj ends).symm
        have old : row ∈ older := by
          refine List.mem_reverse.mp (List.mem_of_mem_take (i := size) ?_)
          rw [more]
          exact List.mem_append_right _ (List.mem_singleton_self row)
        have sorted := matching_sorted same logs filter
        rw [rows] at sorted
        have below := (List.pairwise_append.mp sorted).2.2 row old top (List.mem_singleton_self top)
        have again : top.shown ∈ rest := read_older rows below positive tail
        constructor
        · intro perm
          have nodup := perm.nodup_iff.mpr (nodup_shown same logs filter)
          rw [shown, ← page, List.map_cons, List.cons_append, List.nodup_cons] at nodup
          exact absurd (List.mem_append_right _ again) nodup.1
        · intro short
          rw [rows, List.length_append, List.length_singleton] at short
          rw [List.eq_nil_of_length_eq_zero (by omega : older.length = 0)] at old
          cases old

/-- **Following `next_cursor`** comes to an end, and the pages have every matching row exactly
once if and only if at most one row matches. -/
theorem listLogs_exactly_once_iff (same : String → String → Bool) (logs : RequestLogs)
    (filter : LogFilter) (limit : ℕ) (positive : 0 < limit) :
    ∃ fuel data, readPages (logPages same logs filter limit) fuel 0 0 = some data
      ∧ (data.Perm ((matching same logs filter).map LogRow.shown)
        ↔ (matching same logs filter).length ≤ 1) := by
  obtain ⟨fuel, data, read⟩ := logPages_end same logs filter limit
  exact ⟨fuel, data, read, read_perm_iff positive read⟩

end

/-! ### Three requests, two to a page -/

/-- A request that got an answer. -/
def answered (requestId : String) : LogEntry :=
  { ts := 10
    clientIp := ""
    modelName := "m"
    memberModel := ""
    resolvedModelId := none
    keyId := some 1
    status := 200
    latencyMs := 5
    tokensIn := 1
    tokensOut := 1
    error := ""
    requestId := requestId
    inboundProtocol := "openai"
    outboundProtocol := "openai"
    translated := false }

/-- The table with one request, and with three. -/
def logsOfOne : RequestLogs := RequestLogs.empty.logRequest (answered "a")

def logsOfThree : RequestLogs := (logsOfOne.logRequest (answered "b")).logRequest (answered "c")

/-- The one row, and a page size of two. -/
theorem logsOfOne_exactly_once :
    0 < 2 ∧ ∃ fuel data,
      readPages (logPages (fun a b => decide (a = b)) logsOfOne ⟨none, none⟩ 2) fuel 0 0 = some data
        ∧ (data.Perm ((matching (fun a b => decide (a = b)) logsOfOne ⟨none, none⟩).map
            LogRow.shown)
          ↔ (matching (fun a b => decide (a = b)) logsOfOne ⟨none, none⟩).length ≤ 1) :=
  ⟨by decide, listLogs_exactly_once_iff _ logsOfOne ⟨none, none⟩ 2 (by decide)⟩

/-- Of three requests the oldest is never listed, and the newest twice. -/
theorem logsOfThree_missed :
    readPages (logPages (fun a b => decide (a = b)) logsOfThree ⟨none, none⟩ 2) 3 0 0
        = some (([3, 2, 3].map fun id => (answered
            (if id = 3 then "c" else "b")).row id).map LogRow.shown)
      ∧ ¬ ∃ fuel data,
        readPages (logPages (fun a b => decide (a = b)) logsOfThree ⟨none, none⟩ 2) fuel 0 0
            = some data
          ∧ data.Perm ((matching (fun a b => decide (a = b)) logsOfThree ⟨none, none⟩).map
              LogRow.shown) := by
  refine ⟨by simp only [readPages, logPages, listLogs, pageRows_eq]; decide, ?_⟩
  rintro ⟨fuel, data, read, perm⟩
  exact absurd ((read_perm_iff (by decide) read).mp perm) (by decide)

end Zhongzhuan.Store
