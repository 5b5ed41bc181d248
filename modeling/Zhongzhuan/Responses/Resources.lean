import Zhongzhuan.Kit.Noninterference
import Zhongzhuan.Responses.ChainResolver

/-!
# The resource endpoints, and the workspaces they serve

The model of `responses_v3/endpoints.py`, `responses_v3/handler.py` and the routing of
`responses_routes.py`: one request of one workspace after the other.

Some statements of the store filter by workspace and some take only a response id.  Every
endpoint asks for the response first, with the workspace, and goes on to the statements of the
other kind only under the id of a response it got: `dispatch_apart` is that argument for one
request, and `workspace_isolated` for every sequence of requests.
-/

namespace Zhongzhuan.Responses

open Kit Store Protocol

/-! ## Routing -/

/-- `ResponsesEndpoint` with the response id of the path. -/
inductive ResponsesEndpoint
  | create
  | retrieve (responseId : String)
  | delete (responseId : String)
  | cancel (responseId : String)
  | compact
  | inputItems (responseId : String)
deriving DecidableEq, Repr

/-- `_PREFIX`. -/
def responsesPrefix : String := "/v1/responses"

/-- `path.rstrip("/")`. -/
def rstripSlash (path : String) : String :=
  String.ofList (path.toList.reverse.dropWhile (· = '/')).reverse

/-- The segments of a path after the prefix that are not empty. -/
def segments (path : String) : List String :=
  (((path.toList.drop (responsesPrefix.length + 1)).splitOn '/').filter fun s => !s.isEmpty).map
    String.ofList

/-- `is_responses_path`. -/
def isResponsesPath (path : String) : Bool :=
  decide (rstripSlash path = responsesPrefix) || startsWith path (responsesPrefix ++ "/")

/-- `resolve_responses_endpoint`. -/
def resolveResponsesEndpoint (method path : String) : Option ResponsesEndpoint :=
  let method := method.toUpper
  if method ∉ ["GET", "POST", "DELETE"] then none
  else if path = "" ∨ rstripSlash path = responsesPrefix then
    if method = "POST" then some .create else none
  else if !startsWith path (responsesPrefix ++ "/") then none
  else
    match segments path with
    | ["compact"] => if method = "POST" then some .compact else none
    | [rid] =>
      if method = "GET" then some (.retrieve rid)
      else if method = "DELETE" then some (.delete rid)
      else none
    | [rid, "cancel"] => if method = "POST" then some (.cancel rid) else none
    | [rid, "input_items"] => if method = "GET" then some (.inputItems rid) else none
    | _ => none

/-! ## Answers -/

/-- `to_error_object`. -/
def toErrorObject (message code : String) (status : ℕ) (param : Option String) : ℕ × Json :=
  (status,
    .obj [("error", .obj ([("message", .str message), ("type", .str code),
      ("code", .str code)] ++ param.toList.map fun p => ("param", Json.str p)))])

/-- The 404 of every endpoint. -/
def notFound (responseId : String) : ℕ × Json :=
  toErrorObject ("Response " ++ responseId ++ " not found") "not_found" 404 none

/-- `x or None` for a text. -/
def textOrNull (text : String) : Json := if text = "" then .null else .str text

/-- The `incomplete_details` of a response object. -/
def incompleteDetailsOf (record : ResponseRecord) : Json :=
  let details := if record.incompleteDetails.truthy then record.incompleteDetails else .null
  if record.terminalReason = "" then details
  else
    match details with
    | .obj fields =>
      if (Fields.get fields "reason").isSome then .obj fields
      else .obj (fields ++ [("reason", .str record.terminalReason)])
    | .null => .obj [("reason", .str record.terminalReason)]
    | other => other

/-- `to_response_object`. -/
def toResponseObject (responseId : String) (record : ResponseRecord) : Json :=
  .obj
    [("id", .str responseId), ("object", .str "response"),
      ("created_at", .int record.createdAt), ("model", .str record.model),
      ("status", .str record.status.value), ("output", record.output),
      ("usage", record.usage), ("error", textOrNull record.error),
      ("incomplete_details", incompleteDetailsOf record),
      ("instructions", (requestField record "instructions").getD .null),
      ("metadata",
        match requestField record "metadata" with
        | some (.obj fields) => .obj fields
        | _ => .obj []),
      ("previous_response_id", textOrNull record.previousResponseId),
      ("background", .bool record.background),
      ("tools",
        match requestField record "tools" with
        | some (.arr items) => .arr items
        | _ => .arr []),
      ("tool_choice", .str "auto"), ("parallel_tool_calls", .bool true),
      ("temperature", .null), ("top_p", .null), ("max_output_tokens", .null), ("text", .null),
      ("truncation", .null), ("user", .null), ("store", .bool true), ("include", .arr []),
      ("stream", .bool false)]

/-- The `id` of an item. -/
def itemId : Option Json → Json
  | some (.obj fields) => (Fields.get fields "id").getD .null
  | _ => .null

/-- `to_input_items_list`. -/
def toInputItemsList (items : List Json) (limit : ℕ) (afterSeq : ℤ) (hasMore : Bool) : Json :=
  .obj
    [("object", .str "list"), ("data", .arr items), ("first_id", itemId items.head?),
      ("last_id", itemId items.getLast?), ("has_more", .bool hasMore), ("limit", .int limit),
      ("after", .int afterSeq)]

/-! ## The endpoints -/

/-- A request, with the id that `_new_response_id` would mint for it and what the clock shows
while it is served. -/
structure ResourceRequest where
  workspaceId : String
  method : String
  path : String
  body : Fields
  freshId : String
  clock : ℕ → ℕ

/-- What a request brings about outside the store: the answer, `none` when an exception leaves
the handler, and the job that the worker of this process is told to stop. -/
structure Served where
  answer : Option (ℕ × Json)
  stopped : Option String
deriving DecidableEq, Repr

/-- An answer and nothing else. -/
def Served.just (answer : ℕ × Json) : Served := ⟨some answer, none⟩

/-- `body.get(key, default)`. -/
def bodyField (body : Fields) (key : String) (default : Json) : Json :=
  (Fields.get body key).getD default

variable {I : Type} (codec : ItemCodec I) (caps : ChainCaps)

/-- `str(body.get("previous_response_id", "") or "")`. -/
def previousResponseId (body : Fields) : String :=
  let value := bodyField body "previous_response_id" (.str "")
  if value.truthy then codec.text value else ""

/-- The object that `create` answers. -/
def createdObject (req : ResourceRequest) : Json :=
  let body := req.body
  .obj
    [("id", .str req.freshId), ("object", .str "response"), ("created_at", .int (req.clock 0)),
      ("model", .str (codec.text (bodyField body "model" (.str "")))),
      ("status", .str "in_progress"), ("output", .arr []), ("usage", .obj []),
      ("error", .null), ("incomplete_details", .null),
      ("instructions", bodyField body "instructions" .null),
      ("metadata", bodyField body "metadata" (.obj [])),
      ("previous_response_id", textOrNull (previousResponseId codec body)),
      ("background", .bool (bodyField body "background" (.bool false)).truthy),
      ("tools", bodyField body "tools" (.arr [])),
      ("tool_choice", bodyField body "tool_choice" (.str "auto")),
      ("store", .bool (bodyField body "store" (.bool true)).truthy),
      ("stream", .bool (bodyField body "stream" (.bool false)).truthy)]

/-- The row that `create` inserts. -/
def createdRecord (req : ResourceRequest) : ResponseRecord :=
  let body := req.body
  { workspaceId := req.workspaceId
    status := .inProgress
    model := codec.text (bodyField body "model" (.str ""))
    createdAt := req.clock 1
    updatedAt := req.clock 1
    completedAt := 0
    previousResponseId := previousResponseId codec body
    background := (bodyField body "background" (.bool false)).truthy
    request := .obj
      (if (Fields.get body "input").isSome then
        Fields.put "input" (.arr (codec.parse (bodyField body "input" .null))) body
      else body)
    output := .arr []
    usage := .obj []
    error := ""
    incompleteDetails := .obj []
    terminalReason := ""
    cancelled := false }

/-- The writes of `create`; `none` when the `INSERT` raises. -/
def writeCreated (db : Tables) (req : ResourceRequest) (chainDepth : ℕ) : Option Tables :=
  let items := codec.parse (bodyField req.body "input" .null)
  let previous := previousResponseId codec req.body
  (db.createResponse req.freshId (createdRecord codec req)).map fun db =>
    let db := if items.isEmpty then db else db.saveInputItems req.freshId items
    if previous = "" then db
    else db.saveStateChain req.freshId ⟨req.workspaceId, previous, chainDepth + 1⟩

/-- `create`. -/
def create (db : Tables) (req : ResourceRequest) : Tables × Served :=
  let previous := previousResponseId codec req.body
  let resolution :=
    if previous = "" then none else some (resolveChain codec db caps previous req.workspaceId)
  match resolution.bind ChainResolution.error with
  | some (reason, message) => (db, .just (chainErrorResponse codec reason message))
  | none =>
    if (bodyField req.body "store" (.bool true)).truthy then
      match writeCreated codec db req ((resolution.map ChainResolution.depth).getD 0) with
      | some db => (db, .just (200, createdObject codec req))
      | none => (db, ⟨none, none⟩)
    else (db, .just (200, createdObject codec req))

/-- `retrieve`. -/
def retrieve (db : Tables) (ws rid : String) : Tables × Served :=
  match db.getResponse rid ws with
  | some record => (db, .just (200, toResponseObject rid record))
  | none => (db, .just (notFound rid))

/-- `delete`. -/
def delete (db : Tables) (ws rid : String) : Tables × Served :=
  let result := db.deleteResponse rid ws
  if result.2 then
    (result.1,
      .just (200,
        .obj [("id", .str rid), ("object", .str "response"), ("deleted", .bool true)]))
  else (result.1, .just (notFound rid))

/-- `cancel`. -/
def cancel (db : Tables) (req : ResourceRequest) (rid : String) : Tables × Served :=
  match db.getResponse rid req.workspaceId with
  | none => (db, .just (notFound rid))
  | some _ =>
    let db := db.requestCancel rid (req.clock 0)
    let db := db.setCancelled rid req.workspaceId (req.clock 1)
    match db.getResponse rid req.workspaceId with
    | none => (db, ⟨some (notFound rid), some rid⟩)
    | some record => (db, ⟨some (200, toResponseObject rid record), some rid⟩)

/-- `compact`. -/
def compact (db : Tables) : Tables × Served :=
  (db, .just (toErrorObject "compact is not implemented in the v3 skeleton (T24/T28)"
    "not_implemented" 501 none))

/-- `input_items`. -/
def inputItems (db : Tables) (ws rid : String) (after limit : ℤ) : Tables × Served :=
  match db.getResponse rid ws with
  | none => (db, .just (notFound rid))
  | some _ =>
    let limit := (max 1 (min limit 100)).toNat
    let items := db.listInputItems rid after limit
    (db, .just (200,
      toInputItemsList items limit (after + items.length) (decide (items.length = limit))))

/-- One parameter of `_parse_pagination`: its value, or the error. -/
def pageParameter (body : Fields) (name : String) (default least : ℤ) (tooSmall : String) :
    ℤ ⊕ (ℕ × Json) :=
  let raw := bodyField body name .null
  if raw = .null ∨ raw = .str "" then .inl default
  else
    match codec.int raw with
    | none =>
      .inr (toErrorObject
        ("invalid '" ++ name ++ "' value: " ++ codec.repr raw ++ "; expected an integer")
        "invalid_request_error" 400 (some name))
    | some n =>
      if n < least then .inr (toErrorObject tooSmall "invalid_request_error" 400 (some name))
      else .inl n

/-- `_parse_pagination`. -/
def parsePagination (body : Fields) : (ℤ × ℤ) ⊕ (ℕ × Json) :=
  match pageParameter codec body "after" (-1) (-1) "'after' must be -1 or a non-negative integer"
    with
  | .inr failed => .inr failed
  | .inl after =>
    match pageParameter codec body "limit" 20 1 "'limit' must be a positive integer" with
    | .inr failed => .inr failed
    | .inl limit => .inl (after, limit)

/-- `ResponsesV3Handler.dispatch`. -/
def dispatchResource (db : Tables) (req : ResourceRequest) : Tables × Served :=
  if !isResponsesPath req.path then
    (db, .just (toErrorObject ("not a Responses API path: " ++ req.path) "not_found" 404 none))
  else
    match resolveResponsesEndpoint req.method req.path with
    | none =>
      (db, .just (toErrorObject "method not allowed for this Responses endpoint"
        "method_not_allowed" 405 none))
    | some .create => create codec caps db req
    | some (.retrieve rid) => retrieve db req.workspaceId rid
    | some (.delete rid) => delete db req.workspaceId rid
    | some (.cancel rid) => cancel db req rid
    | some .compact => compact db
    | some (.inputItems rid) =>
      match parsePagination codec req.body with
      | .inr failed => (db, .just failed)
      | .inl (after, limit) => inputItems db req.workspaceId rid after limit

/-! ## Two stores that differ in one workspace -/

/-- A set of ids under which only `W` has responses, and a second store that agrees with the
first under all other ids and has no responses under these. -/
structure TablesApart (W : String) (ids : Set String) (db db' : Tables) : Prop where
  same : ∀ id ∉ ids, db id = db' id
  held : ∀ id ∈ ids, ∀ record, (db id).response = some record → record.workspaceId = W
  gone : ∀ id ∈ ids, (db' id).response = none

namespace TablesApart

variable {codec caps} {W ws : String} {ids : Set String} {db db' : Tables}

theorem not_mem_of_found (apart : TablesApart W ids db db') (other : ws ≠ W) {id : String}
    {record : ResponseRecord} (found : db.getResponse id ws = some record) : id ∉ ids := by
  intro mem
  obtain ⟨row, mine⟩ := Option.filter_eq_some_iff.mp found
  have workspace : record.workspaceId = ws := by simpa using mine
  exact other (workspace.symm.trans (apart.held id mem record row))

theorem getResponse_eq (apart : TablesApart W ids db db') (other : ws ≠ W) (id : String) :
    db.getResponse id ws = db'.getResponse id ws := by
  by_cases mem : id ∈ ids
  · have absent : db.getResponse id ws = none := by
      cases found : db.getResponse id ws with
      | none => rfl
      | some record => exact absurd mem (apart.not_mem_of_found other found)
    rw [absent, Tables.getResponse, apart.gone id mem]
    rfl
  · simp only [Tables.getResponse, apart.same id mem]

theorem sameFor (apart : TablesApart W ids db db') (other : ws ≠ W) : SameFor ws db db' := by
  refine ⟨apart.getResponse_eq other, fun id record found => ?_⟩
  have rows := apart.same id (apart.not_mem_of_found other found)
  constructor
  · funext after limit
    simp only [Tables.listInputItems, rows]
  · funext limit
    simp only [Tables.listOutputItems, rows]

theorem setRows (apart : TablesApart W ids db db') {id : String} (mem : id ∉ ids) (rows : IdRows) :
    TablesApart W ids (db.setRows id rows) (db'.setRows id rows) where
  same := by
    intro other notMem
    by_cases h : other = id
    · subst h
      simp [Tables.setRows]
    · simpa [Tables.setRows, h] using apart.same other notMem
  held := by
    intro other inside record row
    have different : other ≠ id := fun same => mem (same ▸ inside)
    exact apart.held other inside record (by simpa [Tables.setRows, different] using row)
  gone := by
    intro other inside
    have different : other ≠ id := fun same => mem (same ▸ inside)
    simpa [Tables.setRows, different] using apart.gone other inside

end TablesApart

/-- The two stores while a request is served: still apart, and nothing has changed under the
ids since the start. -/
structure TablesTrack (W : String) (ids : Set String) (start db db' : Tables) : Prop where
  apart : TablesApart W ids db db'
  frame : ∀ id ∈ ids, db id = start id

namespace TablesTrack

variable {W ws : String} {ids : Set String} {start db db' : Tables} {id : String}

theorem setRows (tracks : TablesTrack W ids start db db') (mem : id ∉ ids) (rows : IdRows) :
    TablesTrack W ids start (db.setRows id rows) (db'.setRows id rows) := by
  refine ⟨tracks.apart.setRows mem rows, fun other inside => ?_⟩
  have different : other ≠ id := fun same => mem (same ▸ inside)
  simpa [Tables.setRows, different] using tracks.frame other inside

theorem requestCancel (tracks : TablesTrack W ids start db db') (mem : id ∉ ids) (now : ℕ) :
    TablesTrack W ids start (db.requestCancel id now) (db'.requestCancel id now) := by
  simp only [Tables.requestCancel, ← tracks.apart.same id mem]
  exact tracks.setRows mem _

theorem saveInputItems (tracks : TablesTrack W ids start db db') (mem : id ∉ ids)
    (items : List Json) :
    TablesTrack W ids start (db.saveInputItems id items) (db'.saveInputItems id items) := by
  simp only [Tables.saveInputItems, ← tracks.apart.same id mem]
  exact tracks.setRows mem _

theorem saveStateChain (tracks : TablesTrack W ids start db db') (mem : id ∉ ids) (row : ChainRow) :
    TablesTrack W ids start (db.saveStateChain id row) (db'.saveStateChain id row) := by
  simp only [Tables.saveStateChain, ← tracks.apart.same id mem]
  exact tracks.setRows mem _

theorem setCancelled (tracks : TablesTrack W ids start db db') (other : ws ≠ W) (id : String)
    (now : ℕ) :
    TablesTrack W ids start (db.setCancelled id ws now) (db'.setCancelled id ws now) := by
  simp only [Tables.setCancelled, ← tracks.apart.getResponse_eq other id]
  cases found : db.getResponse id ws with
  | none => exact tracks
  | some record =>
      have mem := tracks.apart.not_mem_of_found other found
      simp only [← tracks.apart.same id mem]
      exact tracks.setRows mem _

theorem deleteResponse (tracks : TablesTrack W ids start db db') (other : ws ≠ W) (id : String) :
    (db.deleteResponse id ws).2 = (db'.deleteResponse id ws).2
      ∧ TablesTrack W ids start (db.deleteResponse id ws).1 (db'.deleteResponse id ws).1 := by
  simp only [Tables.deleteResponse, ← tracks.apart.getResponse_eq other id]
  cases found : db.getResponse id ws with
  | none => exact ⟨rfl, tracks⟩
  | some record =>
      have mem := tracks.apart.not_mem_of_found other found
      simp only [← tracks.apart.same id mem]
      exact ⟨trivial, tracks.setRows mem _⟩

end TablesTrack

/-- One request served from both stores: the same answer, and stores that track each other. -/
structure ServedAlike (W : String) (ids : Set String) (start : Tables)
    (one two : Tables × Served) : Prop where
  answer : one.2 = two.2
  tracks : TablesTrack W ids start one.1 two.1

section

variable {codec caps} {W ws : String} {ids : Set String} {start db db' : Tables}
  {req : ResourceRequest}

theorem retrieve_alike (tracks : TablesTrack W ids start db db') (other : ws ≠ W) (rid : String) :
    ServedAlike W ids start (retrieve db ws rid) (retrieve db' ws rid) := by
  simp only [retrieve, ← tracks.apart.getResponse_eq other rid]
  split
  · exact ⟨rfl, tracks⟩
  · exact ⟨rfl, tracks⟩

theorem delete_alike (tracks : TablesTrack W ids start db db') (other : ws ≠ W) (rid : String) :
    ServedAlike W ids start (delete db ws rid) (delete db' ws rid) := by
  obtain ⟨affected, deleted⟩ := tracks.deleteResponse other rid
  simp only [delete, ← affected]
  split
  · exact ⟨rfl, deleted⟩
  · exact ⟨rfl, deleted⟩

theorem cancel_alike (tracks : TablesTrack W ids start db db') (other : req.workspaceId ≠ W)
    (rid : String) : ServedAlike W ids start (cancel db req rid) (cancel db' req rid) := by
  simp only [cancel, ← tracks.apart.getResponse_eq other rid]
  cases found : db.getResponse rid req.workspaceId with
  | none => exact ⟨rfl, tracks⟩
  | some record =>
      have mem := tracks.apart.not_mem_of_found other found
      have cancelled := (tracks.requestCancel mem (req.clock 0)).setCancelled other rid
        (req.clock 1)
      simp only [← cancelled.apart.getResponse_eq other rid]
      split
      · exact ⟨rfl, cancelled⟩
      · exact ⟨rfl, cancelled⟩

theorem inputItems_alike (tracks : TablesTrack W ids start db db') (other : ws ≠ W) (rid : String)
    (after limit : ℤ) :
    ServedAlike W ids start (inputItems db ws rid after limit)
      (inputItems db' ws rid after limit) := by
  simp only [inputItems, ← tracks.apart.getResponse_eq other rid]
  cases found : db.getResponse rid ws with
  | none => exact ⟨rfl, tracks⟩
  | some record =>
      simp only [((tracks.apart.sameFor other).2 rid record found).1]
      exact ⟨rfl, tracks⟩

variable (codec) in
theorem writeCreated_alike (tracks : TablesTrack W ids start db db') (fresh : req.freshId ∉ ids)
    (chainDepth : ℕ) :
    (writeCreated codec db req chainDepth = none ∧ writeCreated codec db' req chainDepth = none)
      ∨ ∃ one two, writeCreated codec db req chainDepth = some one
          ∧ writeCreated codec db' req chainDepth = some two ∧ TablesTrack W ids start one two := by
  simp only [writeCreated, Tables.createResponse, ← tracks.apart.same req.freshId fresh]
  cases (db req.freshId).response with
  | some record => exact .inl ⟨rfl, rfl⟩
  | none =>
      refine .inr ⟨_, _, rfl, rfl, ?_⟩
      have inserted := tracks.setRows fresh
        { db req.freshId with response := some (createdRecord codec req) }
      have filled := inserted.saveInputItems fresh
        (codec.parse (bodyField req.body "input" .null))
      split <;> split
      · exact inserted
      · exact filled
      · exact inserted.saveStateChain fresh _
      · exact filled.saveStateChain fresh _

theorem create_alike (tracks : TablesTrack W ids start db db') (other : req.workspaceId ≠ W)
    (fresh : req.freshId ∉ ids) :
    ServedAlike W ids start (create codec caps db req) (create codec caps db' req) := by
  simp only [create, resolveChain_congr (tracks.apart.sameFor other)]
  generalize (if previousResponseId codec req.body = "" then none
    else some (resolveChain codec db' caps (previousResponseId codec req.body)
      req.workspaceId)) = resolution
  cases resolution.bind ChainResolution.error with
  | some failed => exact ⟨rfl, tracks⟩
  | none =>
      dsimp only
      split
      · rcases writeCreated_alike codec tracks fresh
          ((resolution.map ChainResolution.depth).getD 0)
          with ⟨one, two⟩ | ⟨one, two, first, second, written⟩
        · simp only [one, two]
          exact ⟨rfl, tracks⟩
        · simp only [first, second]
          exact ⟨rfl, written⟩
      · exact ⟨rfl, tracks⟩

/-- **One request of another workspace**: the same answer from both stores, which stay apart,
and no row under the ids changes. -/
theorem dispatch_alike (tracks : TablesTrack W ids start db db') (other : req.workspaceId ≠ W)
    (fresh : req.freshId ∉ ids) :
    ServedAlike W ids start (dispatchResource codec caps db req)
      (dispatchResource codec caps db' req) := by
  unfold dispatchResource
  split
  · exact ⟨rfl, tracks⟩
  · split
    · exact ⟨rfl, tracks⟩
    · exact create_alike tracks other fresh
    · exact retrieve_alike tracks other _
    · exact delete_alike tracks other _
    · exact cancel_alike tracks other _
    · exact ⟨rfl, tracks⟩
    · split
      · exact ⟨rfl, tracks⟩
      · exact inputItems_alike tracks other _ _ _

end

/-! ## Sequences of requests -/

/-- A request of another workspace than `W` whose fresh id is none of the ids. -/
def Outside (W : String) (ids : Set String) (req : ResourceRequest) : Prop :=
  req.workspaceId ≠ W ∧ req.freshId ∉ ids

theorem unwinding_dispatch {I : Type} (codec : ItemCodec I) (caps : ChainCaps) (W : String)
    (ids : Set String) (start : Tables) :
    Unwinding (dispatchResource codec caps) (fun _ => true) (fun _ => Outside W ids)
      (TablesTrack W ids start) where
  answer := by
    intro db db' req outside _ _ tracks
    exact (dispatch_alike tracks outside.1 outside.2).answer
  both := by
    intro db db' req outside _ _ tracks
    exact (dispatch_alike tracks outside.1 outside.2).tracks
  left := by simp

/-- The rows under an id are those of a workspace: its response with what belongs to it, or,
when the response has been deleted, a job or a chain row that names the workspace. -/
def Owns (db : Tables) (W id : String) : Prop :=
  match (db id).response with
  | some record => record.workspaceId = W
  | none => (db id).job.map OwnedJob.workspaceId = some W
      ∨ (db id).chain.map ChainRow.workspaceId = some W

instance (db : Tables) (W id : String) : Decidable (Owns db W id) := by
  unfold Owns
  split <;> infer_instance

/-- The store without the rows of a workspace. -/
def withoutWorkspace (db : Tables) (W : String) : Tables := fun id =>
  if Owns db W id then .empty else db id

theorem apart_without (db : Tables) (W : String) :
    TablesApart W { id | Owns db W id } db (withoutWorkspace db W) where
  same := by
    intro id notMem
    exact (if_neg notMem).symm
  held := by
    intro id mem record row
    simpa [Owns, row] using mem
  gone := by
    intro id mem
    have owned : Owns db W id := mem
    rw [withoutWorkspace, if_pos owned]
    rfl

/-- **Workspaces are isolated**: whatever the other workspaces request, under whatever ids,
they get the answers they would get if the rows of `W` did not exist, and the rows of `W` are
as they were. -/
theorem workspace_isolated {I : Type} (codec : ItemCodec I) (caps : ChainCaps) (db : Tables)
    (W : String) (requests : List ResourceRequest)
    (outside : ∀ req ∈ requests, Outside W { id | Owns db W id } req) :
    answersTo (dispatchResource codec caps) (fun _ => true) db requests
        = answersTo (dispatchResource codec caps) (fun _ => true) (withoutWorkspace db W) requests
      ∧ ∀ id, Owns db W id → serve (dispatchResource codec caps) db requests id = db id := by
  have unwinding := unwinding_dispatch codec caps W { id | Owns db W id } db
  have tracks : TablesTrack W { id | Owns db W id } db db (withoutWorkspace db W) :=
    ⟨apart_without db W, fun _ _ => rfl⟩
  have kind : ∀ db', Throughout (dispatchResource codec caps)
      (fun _ => Outside W { id | Owns db W id }) db' requests := throughout_of_forall outside
  have whole : requests.filter (fun _ => true) = requests := by simp
  constructor
  · simpa using unwinding.answersTo_eq tracks (kind _) (by rw [whole]; exact kind _)
  · exact (unwinding.serve_rel tracks (kind _) (by rw [whole]; exact kind _)).frame

/-! ### Two workspaces -/

/-- A codec for items that are kept as they are. -/
def plainCodec : ItemCodec Json where
  parse := listOf
  history := id
  tokens := fun _ => 1
  reseq := fun item _ => item
  text := fun value =>
    match value with
    | .str text => text
    | _ => ""
  repr := dumps
  int := fun value =>
    match value with
    | .int n => some n
    | _ => none
  sanitize := id

/-- A store in which workspace `1` has a response with a background job. -/
def storeOfOne : Tables := fun id =>
  if id = "resp_1" then
    { response := some
        { workspaceId := "1"
          status := .inProgress
          model := "m"
          createdAt := 10
          updatedAt := 10
          completedAt := 0
          previousResponseId := ""
          background := true
          request := .obj []
          output := .arr []
          usage := .obj []
          error := ""
          incompleteDetails := .obj []
          terminalReason := ""
          cancelled := false }
      inputItems := [(0, .obj [("type", .str "message")])]
      outputItems := []
      chain := none
      job := some ⟨"1", .createJob 10 0⟩ }
  else .empty

/-- Workspace `2` continues the response of workspace `1`, cancels it and deletes it. -/
def requestsOfTwo : List ResourceRequest :=
  [⟨"2", "POST", "/v1/responses", [("previous_response_id", .str "resp_1")], "resp_2",
      fun _ => 20⟩,
    ⟨"2", "POST", "/v1/responses/resp_1/cancel", [], "resp_3", fun _ => 30⟩,
    ⟨"2", "DELETE", "/v1/responses/resp_1", [], "resp_4", fun _ => 40⟩]

theorem one_isolated_from_two :
    answersTo (dispatchResource plainCodec .default) (fun _ => true) storeOfOne requestsOfTwo
        = answersTo (dispatchResource plainCodec .default) (fun _ => true)
            (withoutWorkspace storeOfOne "1") requestsOfTwo
      ∧ ∀ id, Owns storeOfOne "1" id →
          serve (dispatchResource plainCodec .default) storeOfOne requestsOfTwo id
            = storeOfOne id := by
  refine workspace_isolated plainCodec .default storeOfOne "1" requestsOfTwo fun req mem => ?_
  simp only [requestsOfTwo, List.mem_cons, List.not_mem_nil, or_false] at mem
  rcases mem with rfl | rfl | rfl
  · exact ⟨by decide, show ¬ Owns storeOfOne "1" "resp_2" by decide⟩
  · exact ⟨by decide, show ¬ Owns storeOfOne "1" "resp_3" by decide⟩
  · exact ⟨by decide, show ¬ Owns storeOfOne "1" "resp_4" by decide⟩

end Zhongzhuan.Responses
