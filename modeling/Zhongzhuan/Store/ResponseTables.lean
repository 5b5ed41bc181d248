import Zhongzhuan.Kit.Json
import Zhongzhuan.Store.BackgroundJobs

/-!
# `ResponseStore`: the tables of the resource endpoints

The accessors of `store/response_store.py` that the resource endpoints call.  Every statement
among them names one response id (a background job has the id of its response), so the tables
are kept together by id: `IdRows` are the rows of all of them under one id, `Tables` the whole.

Some of the statements ask for the workspace as well (`getResponse`, `deleteResponse`,
`setCancelled`) and some do not (`listInputItems`, `listOutputItems`, `saveInputItems`,
`saveStateChain`, `requestCancel`).
-/

namespace Zhongzhuan.Store

open Kit

/-- `ResponseRecord`, a row of `responses`, without its primary key. -/
structure ResponseRecord where
  workspaceId : String
  status : RunStatus
  model : String
  createdAt : ℕ
  updatedAt : ℕ
  completedAt : ℕ
  previousResponseId : String
  background : Bool
  request : Json
  output : Json
  usage : Json
  error : String
  incompleteDetails : Json
  terminalReason : String
  cancelled : Bool
deriving DecidableEq, Repr

/-- A row of `response_state_chain`. -/
structure ChainRow where
  workspaceId : String
  previousResponseId : String
  depth : ℕ
deriving DecidableEq, Repr

/-- A row of `background_jobs` with its workspace. -/
structure OwnedJob where
  workspaceId : String
  job : JobRow
deriving DecidableEq, Repr

/-- The rows under one response id.  The items are kept with their `seq`. -/
structure IdRows where
  response : Option ResponseRecord
  inputItems : List (ℕ × Json)
  outputItems : List (ℕ × Json)
  chain : Option ChainRow
  job : Option OwnedJob
deriving DecidableEq, Repr

/-- No rows. -/
def IdRows.empty : IdRows := ⟨none, [], [], none, none⟩

/-- The tables, by response id. -/
abbrev Tables := String → IdRows

namespace Tables

variable (db : Tables) (responseId workspaceId : String)

/-- The rows under one id are others. -/
def setRows (rows : IdRows) : Tables := Function.update db responseId rows

/-- `create_response`; `none` when the id is taken, which raises. -/
def createResponse (record : ResponseRecord) : Option Tables :=
  match (db responseId).response with
  | some _ => none
  | none => some (db.setRows responseId { db responseId with response := some record })

/-- `get_response`. -/
def getResponse : Option ResponseRecord :=
  (db responseId).response.filter fun record => record.workspaceId = workspaceId

/-- `delete_response`, and whether a row was deleted. -/
def deleteResponse : Tables × Bool :=
  match db.getResponse responseId workspaceId with
  | some _ => (db.setRows responseId { db responseId with response := none }, true)
  | none => (db, false)

/-- `set_cancelled`. -/
def setCancelled (now : ℕ) : Tables :=
  match db.getResponse responseId workspaceId with
  | some record =>
    db.setRows responseId
      { db responseId with
        response := some
          { record with
            cancelled := true
            status := .cancelled
            updatedAt := now } }
  | none => db

/-- One statement of `save_input_items`: `seq` is part of the key. -/
def upsertItem (rows : List (ℕ × Json)) (item : ℕ × Json) : List (ℕ × Json) :=
  rows.filter (fun row => row.1 ≠ item.1) ++ [item]

/-- `save_input_items`. -/
def saveInputItems (items : List Json) : Tables :=
  db.setRows responseId
    { db responseId with
      inputItems := (items.zipIdx.map fun item => (item.2, item.1)).foldl upsertItem
        (db responseId).inputItems }

/-- The payloads of the rows after `after`, in order and at most `limit` of them. -/
def page (rows : List (ℕ × Json)) (after : ℤ) (limit : ℕ) : List Json :=
  (((rows.filter fun row => after < (row.1 : ℤ)).mergeSort
    fun a b => decide (a.1 ≤ b.1)).take limit).map Prod.snd

theorem page_eq_take {rows : List (ℕ × Json)} {all : ℕ} (enough : rows.length ≤ all)
    (after : ℤ) (limit : ℕ) : page rows after limit = (page rows after all).take limit := by
  unfold page
  have short : ((rows.filter fun row => after < (row.1 : ℤ)).mergeSort
      fun a b => decide (a.1 ≤ b.1)).length ≤ all := by
    rw [List.length_mergeSort]
    exact le_trans (List.length_filter_le _ _) enough
  rw [List.take_of_length_le short, List.map_take]

theorem page_of_sorted {rows : List (ℕ × Json)} (sorted : rows.Pairwise fun a b => a.1 ≤ b.1)
    (limit : ℕ) : page rows (-1) limit = (rows.map Prod.snd).take limit := by
  have all : (rows.filter fun row => decide ((-1 : ℤ) < (row.1 : ℤ))) = rows := by
    apply List.filter_eq_self.mpr
    intro row _
    exact decide_eq_true (by omega)
  unfold page
  rw [all, List.mergeSort_of_pairwise (by simpa using sorted), List.map_take]

/-- `list_input_items`. -/
def listInputItems (after : ℤ) (limit : ℕ) : List Json :=
  page (db responseId).inputItems after limit

/-- `list_output_items`. -/
def listOutputItems (limit : ℕ) : List Json := page (db responseId).outputItems (-1) limit

/-- `save_state_chain`. -/
def saveStateChain (row : ChainRow) : Tables :=
  db.setRows responseId { db responseId with chain := some row }

/-- `BackgroundJobStore.request_cancel`. -/
def requestCancel (now : ℕ) : Tables :=
  db.setRows responseId
    { db responseId with
      job := (db responseId).job.map fun owned =>
        { owned with job := owned.job.requestCancel now } }

end Tables

end Zhongzhuan.Store
