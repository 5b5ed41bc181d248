import Zhongzhuan.Kit.Paging
import Zhongzhuan.Responses.Resources

/-!
# The pages of `/input_items`

`create` numbers the input items from zero, and nothing writes input rows under the id of a
response again, so the cursor that `input_items` computes by counting what it returned is the
`seq` of the last item returned.

`inputItems_paged` follows the cursor from `-1` on, with a page size of its own for each
request and with other requests served between the pages.
-/

namespace Zhongzhuan.Responses

open Kit Store

/-! ## The rows of a list of items -/

/-- Items with their `seq`, as `save_input_items` numbers them. -/
def numbered (first : ℕ) (items : List Json) : List (ℕ × Json) :=
  (items.zipIdx first).map fun item => (item.2, item.1)

theorem numbered_cons (first : ℕ) (item : Json) (items : List Json) :
    numbered first (item :: items) = (first, item) :: numbered (first + 1) items := rfl

theorem numbered_append (first : ℕ) (one two : List Json) :
    numbered first (one ++ two) = numbered first one ++ numbered (first + one.length) two := by
  simp only [numbered, List.zipIdx_append, List.map_append]

@[simp] theorem map_snd_numbered (first : ℕ) (items : List Json) :
    (numbered first items).map Prod.snd = items := by
  induction items generalizing first with
  | nil => rfl
  | cons item items ih => rw [numbered_cons, List.map_cons, ih]

theorem seq_of_mem_numbered {first : ℕ} {items : List Json} {row : ℕ × Json}
    (mem : row ∈ numbered first items) : first ≤ row.1 ∧ row.1 < first + items.length := by
  induction items generalizing first with
  | nil => cases mem
  | cons item items ih =>
      rw [List.length_cons]
      rcases List.mem_cons.mp mem with rfl | later
      · exact ⟨le_rfl, by simp⟩
      · have := ih later
        omega

theorem sorted_numbered (first : ℕ) (items : List Json) :
    (numbered first items).Pairwise fun a b => a.1 < b.1 := by
  induction items generalizing first with
  | nil => exact .nil
  | cons item items ih =>
      exact .cons (fun row mem => (seq_of_mem_numbered mem).1) (ih _)

theorem foldl_upsertItem {rows old : List (ℕ × Json)}
    (sorted : rows.Pairwise fun a b => a.1 < b.1)
    (apart : ∀ row ∈ rows, ∀ other ∈ old, other.1 ≠ row.1) :
    rows.foldl Tables.upsertItem old = old ++ rows := by
  induction rows generalizing old with
  | nil => exact (List.append_nil old).symm
  | cons row rows ih =>
      obtain ⟨above, sorted⟩ := List.pairwise_cons.mp sorted
      have inserted : Tables.upsertItem old row = old ++ [row] := by
        have kept : old.filter (fun other => other.1 ≠ row.1) = old :=
          List.filter_eq_self.mpr fun other mem =>
            decide_eq_true (apart row List.mem_cons_self other mem)
        rw [Tables.upsertItem, kept]
      rw [List.foldl_cons, inserted, ih sorted, List.append_assoc, List.singleton_append]
      intro later mem other old
      rcases List.mem_append.mp old with old | new
      · exact apart later (List.mem_cons_of_mem _ mem) other old
      · rw [List.mem_singleton.mp new]
        exact (above later mem).ne

/-- The items behind a cursor. -/
def behind (items : List Json) (after : ℤ) : List Json := items.drop (after + 1).toNat

theorem page_numbered (items : List Json) {after : ℤ} (least : -1 ≤ after) (limit : ℕ) :
    Tables.page (numbered 0 items) after limit = (behind items after).take limit := by
  -- the rows up to the cursor and those behind it, each told apart by its `seq`
  obtain ⟨seen, seenDef⟩ : ∃ seen, seen = (after + 1).toNat := ⟨_, rfl⟩
  have rest : (numbered 0 items).filter (fun row => decide (after < (row.1 : ℤ)))
      = numbered (items.take seen).length (items.drop seen) := by
    conv_lhs => rw [← List.take_append_drop seen items, numbered_append, Nat.zero_add]
    rw [List.filter_append]
    have before : (numbered 0 (items.take seen)).filter
        (fun row => decide (after < (row.1 : ℤ))) = [] := by
      refine List.filter_eq_nil_iff.mpr fun row mem => ?_
      have := (seq_of_mem_numbered mem).2
      have := List.length_take_le seen items
      simp only [decide_eq_true_eq]
      omega
    have later : (numbered (items.take seen).length (items.drop seen)).filter
        (fun row => decide (after < (row.1 : ℤ)))
          = numbered (items.take seen).length (items.drop seen) := by
      refine List.filter_eq_self.mpr fun row mem => decide_eq_true ?_
      have bounds := seq_of_mem_numbered mem
      rw [List.length_take, List.length_drop] at bounds
      omega
    rw [before, later, List.nil_append]
  have sorted : (numbered (items.take seen).length (items.drop seen)).Pairwise
      fun a b => decide (a.1 ≤ b.1) = true :=
    (sorted_numbered _ _).imp fun below => decide_eq_true below.le
  rw [Tables.page, rest, List.mergeSort_of_pairwise sorted, List.map_take, map_snd_numbered,
    behind, seenDef]

/-! ## What the requests do to the input rows -/

variable {I : Type} {codec : ItemCodec I} {caps : ChainCaps} {db : Tables} {req : ResourceRequest}
  {rid : String}

/-- The rows of `input_items` under an id are the same. -/
def SameInput (rid : String) (db db' : Tables) : Prop :=
  (db' rid).inputItems = (db rid).inputItems

namespace SameInput

variable {db' db'' : Tables} {id ws : String}

theorem refl (rid : String) (db : Tables) : SameInput rid db db := rfl

theorem trans (first : SameInput rid db db') (second : SameInput rid db' db'') :
    SameInput rid db db'' :=
  Eq.trans second first

theorem setRows (rows : IdRows) (same : id = rid → rows.inputItems = (db rid).inputItems) :
    SameInput rid db (db.setRows id rows) := by
  by_cases here : id = rid
  · subst here
    simpa [SameInput, Tables.setRows] using same rfl
  · simp [SameInput, Tables.setRows, Function.update_of_ne (Ne.symm here)]

theorem setCancelled (now : ℕ) : SameInput rid db (db.setCancelled id ws now) := by
  unfold Tables.setCancelled
  split
  · exact setRows _ fun here => by rw [here]
  · exact refl rid db

theorem deleteResponse : SameInput rid db (db.deleteResponse id ws).1 := by
  unfold Tables.deleteResponse
  split
  · exact setRows _ fun here => by rw [here]
  · exact refl rid db

theorem requestCancel (now : ℕ) : SameInput rid db (db.requestCancel id now) :=
  setRows _ fun here => by rw [here]

end SameInput

theorem create_tables (db : Tables) (req : ResourceRequest) :
    (create codec caps db req).1 = db
      ∨ ∃ depth, writeCreated codec db req depth = some (create codec caps db req).1 := by
  unfold create
  dsimp only
  split
  · exact .inl rfl
  · split
    · split
      · exact .inr ⟨_, ‹_›⟩
      · exact .inl rfl
    · exact .inl rfl

theorem writeCreated_inputItems {depth : ℕ} {db' : Tables} (id : String)
    (write : writeCreated codec db req depth = some db') :
    (db' id).inputItems
      = if id = req.freshId then
          (numbered 0 (codec.parse (bodyField req.body "input" .null))).foldl Tables.upsertItem
            (db id).inputItems
        else (db id).inputItems := by
  obtain ⟨created, inserted, rfl⟩ := Option.map_eq_some_iff.mp write
  have same : ∀ id, (created id).inputItems = (db id).inputItems := by
    intro id
    unfold Tables.createResponse at inserted
    split at inserted
    · cases inserted
    · cases inserted
      change SameInput id _ _
      exact .setRows _ fun here => by rw [here]
  have filled : ((if (codec.parse (bodyField req.body "input" .null)).isEmpty then created
      else created.saveInputItems req.freshId (codec.parse (bodyField req.body "input" .null)))
        id).inputItems
      = if id = req.freshId then
          (numbered 0 (codec.parse (bodyField req.body "input" .null))).foldl Tables.upsertItem
            (db id).inputItems
        else (db id).inputItems := by
    split
    · rename_i none
      rw [List.isEmpty_iff.mp none, same]
      exact (ite_self _).symm
    · by_cases here : id = req.freshId
      · subst here
        rw [if_pos rfl, Tables.saveInputItems, Tables.setRows, Function.update_self, same]
        rfl
      · rw [if_neg here, Tables.saveInputItems, Tables.setRows, Function.update_of_ne here, same]
  dsimp only
  split
  · exact filled
  · rw [← filled]
    change SameInput id _ _
    exact .setRows _ fun here => by rw [here]

theorem create_sameInput (other : req.freshId ≠ rid) :
    SameInput rid db (create codec caps db req).1 := by
  rcases create_tables  db req with same | ⟨depth, write⟩
  · rw [same]
    exact .refl rid db
  · rw [SameInput, writeCreated_inputItems rid write, if_neg (Ne.symm other)]

theorem create_inputItems (new : db req.freshId = .empty)
    (stored : (((create codec caps db req).1 req.freshId).response).isSome) :
    ((create codec caps db req).1 req.freshId).inputItems
      = numbered 0 (codec.parse (bodyField req.body "input" .null)) := by
  rcases create_tables  db req with same | ⟨depth, write⟩
  · rw [same, new] at stored
    cases stored
  · rw [writeCreated_inputItems _ write, if_pos rfl, new]
    exact foldl_upsertItem (sorted_numbered 0 _) fun _ _ _ mem => absurd mem List.not_mem_nil

theorem dispatch_sameInput (other : req.freshId ≠ rid) :
    SameInput rid db (dispatchResource codec caps db req).1 := by
  unfold dispatchResource
  split
  · exact .refl rid db
  · split
    · exact .refl rid db
    · exact create_sameInput other
    · rename_i id _
      unfold retrieve
      split <;> exact .refl rid db
    · rename_i id _
      have deleted : SameInput rid db (db.deleteResponse id req.workspaceId).1 := .deleteResponse
      unfold delete
      dsimp only
      split <;> exact deleted
    · rename_i id _
      have cancelled : SameInput rid db
          ((db.requestCancel id (req.clock 0)).setCancelled id req.workspaceId (req.clock 1)) :=
        (SameInput.requestCancel _).trans (.setCancelled _)
      unfold cancel
      split
      · exact .refl rid db
      · dsimp only
        split <;> exact cancelled
    · exact .refl rid db
    · split
      · exact .refl rid db
      · unfold inputItems
        split <;> exact .refl rid db

/-- **A run** leaves the input rows of every response that none of its requests creates. -/
theorem serve_sameInput {requests : List ResourceRequest}
    (others : ∀ request ∈ requests, request.freshId ≠ rid) :
    SameInput rid db (serve (dispatchResource codec caps) db requests) := by
  induction requests generalizing db with
  | nil => exact .refl rid db
  | cons request requests ih =>
      obtain ⟨here, later⟩ := List.forall_mem_cons.mp others
      exact (dispatch_sameInput here).trans (ih later)

/-! ## Following the cursor -/

/-- A request for the input items of a response behind a cursor, `limit` of them at most. -/
structure AsksFor (codec : ItemCodec I) (ws rid : String) (after limit : ℤ)
    (request : ResourceRequest) : Prop where
  workspace : request.workspaceId = ws
  path : isResponsesPath request.path = true
  endpoint : resolveResponsesEndpoint request.method request.path = some (.inputItems rid)
  given : bodyField request.body "after" .null ∉ [Json.null, .str ""]
  after : codec.int (bodyField request.body "after" .null) = some after
  sized : bodyField request.body "limit" .null ∉ [Json.null, .str ""]
  limit : codec.int (bodyField request.body "limit" .null) = some limit

/-- What a client reads off an answer: the items, the cursor, and whether there are more. -/
def answeredPage (answer : Option (ℕ × Json)) : Page Json ℤ :=
  match answer with
  | some (_, .obj fields) =>
    { rows := match Fields.get fields "data" with
        | some (.arr items) => items
        | _ => []
      cursor := match Fields.get fields "after" with
        | some (.int after) => after
        | _ => 0
      more := decide (Fields.get fields "has_more" = some (.bool true)) }
  | _ => ⟨[], 0, false⟩

theorem pageParameter_of_int {body : Fields} {name : String} {default least n : ℤ} {small : String}
    (given : bodyField body name .null ∉ [Json.null, .str ""])
    (int : codec.int (bodyField body name .null) = some n) (bound : least ≤ n) :
    pageParameter codec body name default least small = .inl n := by
  rw [List.mem_cons, List.mem_singleton] at given
  simp only [pageParameter, if_neg given, int, if_neg (not_lt.mpr bound)]

/-- **One page**: what stands behind the cursor, up to the limit, and the cursor moved on by as
many. -/
theorem answeredPage_dispatch {ws : String} {after limit : ℤ} {request : ResourceRequest}
    {items : List Json} (asks : AsksFor codec ws rid after limit request) (least : -1 ≤ after)
    (positive : 0 < limit) (found : (db.getResponse rid ws).isSome)
    (stands : (db rid).inputItems = numbered 0 items) :
    let size := (max 1 (min limit 100)).toNat
    let rows := (behind items after).take size
    answeredPage (dispatchResource codec caps db request).2.answer
      = ⟨rows, after + rows.length, decide (rows.length = size)⟩ := by
  obtain ⟨record, here⟩ := Option.isSome_iff_exists.mp found
  have one : 1 ≤ limit := positive
  have parsed : parsePagination codec request.body = .inl (after, limit) := by
    simp only [parsePagination, pageParameter_of_int asks.given asks.after least,
      pageParameter_of_int asks.sized asks.limit one]
  have listed : ∀ size, db.listInputItems rid after size = (behind items after).take size := by
    intro size
    rw [Tables.listInputItems, stands, page_numbered items least]
  simp only [dispatchResource, asks.path, asks.endpoint, parsed, inputItems, asks.workspace, here,
    listed]
  simp [Served.just, answeredPage, toInputItemsList, Fields.get, List.lookup]

theorem behind_taken (items : List Json) {after : ℤ} (least : -1 ≤ after) (size : ℕ) :
    behind items (after + ((behind items after).take size).length)
      = (behind items after).drop size := by
  have moved : (after + (((behind items after).take size).length : ℤ) + 1).toNat
      = (after + 1).toNat + ((behind items after).take size).length := by omega
  rw [behind, moved, ← List.drop_drop, List.length_take]
  change (behind items after).drop (min size (behind items after).length) = _
  rcases le_total size (behind items after).length with fits | short
  · rw [min_eq_left fits]
  · rw [min_eq_right short, List.drop_length, List.drop_of_length_le short]

/-- **Pages of what stands behind the cursor**, of one item or more, that ask for another page
as long as they are full: together they are the items. -/
theorem readPages_behind {items : List Json} {size : ℕ → ℕ} (nonempty : ∀ n, 1 ≤ size n)
    {fetch : ℕ → ℤ → Page Json ℤ}
    (page : ∀ n after, -1 ≤ after → fetch n after
      = ⟨(behind items after).take (size n),
          after + ((behind items after).take (size n)).length,
          decide (((behind items after).take (size n)).length = size n)⟩) :
    ∃ fuel, readPages fetch fuel 0 (-1) = some items := by
  have keeps : ∀ n after, -1 ≤ after → (fetch n after).more = true →
      -1 ≤ (fetch n after).cursor := by
    intro n after least _
    rw [page n after least]
    dsimp only
    omega
  have rest : ∀ n after, -1 ≤ after →
      behind items (fetch n after).cursor = (behind items after).drop (size n) := by
    intro n after least
    rw [page n after least]
    exact behind_taken items least (size n)
  have shrinks : ∀ n after, -1 ≤ after → (fetch n after).more = true →
      (behind items (fetch n after).cursor).length < (behind items after).length := by
    intro n after least full
    rw [page n after least, decide_eq_true_eq, List.length_take] at full
    have := nonempty n
    rw [rest n after least, List.length_drop]
    omega
  have splits : ∀ n after, -1 ≤ after → (fetch n after).more = true →
      behind items after = (fetch n after).rows ++ behind items (fetch n after).cursor := by
    intro n after least _
    rw [rest n after least, page n after least, List.take_append_drop]
  have closes : ∀ n after, -1 ≤ after → (fetch n after).more = false →
      behind items after = (fetch n after).rows := by
    intro n after least last
    rw [page n after least, decide_eq_false_iff_not, List.length_take] at last
    rw [page n after least, List.take_of_length_le (by omega)]
  obtain ⟨rows, read⟩ := readPages_ends (fun after => (behind items after).length) keeps shrinks
    (le_refl (-1 : ℤ)) 0
  rw [readPages_eq (behind items) keeps splits closes (le_refl (-1 : ℤ)) read] at read
  exact ⟨_, read⟩

/-- The pages of a response: the request number `n` is served from the tables at that time. -/
def itemPages (codec : ItemCodec I) (caps : ChainCaps) (tables : ℕ → Tables)
    (request : ℕ → ℤ → ResourceRequest) (n : ℕ) (after : ℤ) : Page Json ℤ :=
  answeredPage (dispatchResource codec caps (tables n) (request n after)).2.answer

/-- **The pages of `/input_items`**: whatever the page sizes, and whatever other requests are
served between the pages as long as the response is there, following the cursor from `-1` until
`has_more` is false returns the items of the response, each once and in order. -/
theorem inputItems_paged (codec : ItemCodec I) (caps : ChainCaps) (db : Tables)
    (req : ResourceRequest) (between : ℕ → List ResourceRequest) (limits : ℕ → ℤ)
    (request : ℕ → ℤ → ResourceRequest) (new : db req.freshId = .empty)
    (stored : ((create codec caps db req).1 req.freshId).response.isSome)
    (others : ∀ n, ∀ other ∈ between n, other.freshId ≠ req.freshId)
    (found : ∀ n, ((serve (dispatchResource codec caps) (create codec caps db req).1
      (between n)).getResponse req.freshId req.workspaceId).isSome)
    (positive : ∀ n, 0 < limits n)
    (asks : ∀ n after, AsksFor codec req.workspaceId req.freshId after (limits n)
      (request n after)) :
    ∃ fuel, readPages
      (itemPages codec caps
        (fun n => serve (dispatchResource codec caps) (create codec caps db req).1 (between n))
        request) fuel 0 (-1)
      = some (codec.parse (bodyField req.body "input" .null)) := by
  have nonempty : ∀ n, 1 ≤ (max 1 (min (limits n) 100)).toNat := by
    intro n
    omega
  refine readPages_behind nonempty fun n after least => ?_
  have stands : (serve (dispatchResource codec caps) (create codec caps db req).1 (between n)
      req.freshId).inputItems = numbered 0 (codec.parse (bodyField req.body "input" .null)) := by
    rw [← create_inputItems new stored]
    exact serve_sameInput (others n)
  exact answeredPage_dispatch (asks n after) least (positive n) (found n) stands

/-! ### Five items, two to a page -/

/-- A request that stores five items. -/
def fiveItems : ResourceRequest :=
  ⟨"1", "POST", "/v1/responses",
    [("input", .arr [.str "a", .str "b", .str "c", .str "d", .str "e"])], "resp_1", fun _ => 10⟩

/-- A request for two of them. -/
def twoOfThem (after : ℤ) : ResourceRequest :=
  ⟨"1", "GET", "/v1/responses/resp_1/input_items", [("after", .int after), ("limit", .int 2)], "",
    fun _ => 20⟩

theorem fiveItems_paged :
    ∃ fuel, readPages
      (itemPages plainCodec .default
        (fun n => serve (dispatchResource plainCodec .default)
          (create plainCodec .default (fun _ => .empty) fiveItems).1
          (if n = 1 then requestsOfTwo else []))
        (fun _ => twoOfThem)) fuel 0 (-1)
      = some [.str "a", .str "b", .str "c", .str "d", .str "e"] := by
  refine inputItems_paged plainCodec .default (fun _ => .empty) fiveItems
    (fun n => if n = 1 then requestsOfTwo else []) (fun _ => 2) (fun _ => twoOfThem) rfl
    (by decide) ?_ ?_ (fun _ => by decide) fun _ after => ?_
  · intro n other mem
    split at mem
    · exact (by decide : ∀ other ∈ requestsOfTwo, other.freshId ≠ "resp_1") other mem
    · cases mem
  · intro n
    split
    · decide +kernel
    · decide
  · have path : isResponsesPath "/v1/responses/resp_1/input_items" = true := by decide
    have endpoint : resolveResponsesEndpoint "GET" "/v1/responses/resp_1/input_items"
        = some (.inputItems "resp_1") := by decide +kernel
    refine ⟨rfl, path, endpoint, ?_, rfl, ?_, rfl⟩
    · simp [twoOfThem, bodyField, Fields.get]
    · simp [twoOfThem, bodyField, Fields.get, List.lookup]

end Zhongzhuan.Responses
