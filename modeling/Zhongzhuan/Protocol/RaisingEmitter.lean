import Zhongzhuan.Kit.Attempts
import Zhongzhuan.Protocol.EmitterLaw

/-!
# Emitter calls that raise

`_frame` ends in `json.dumps` and `encode("utf-8")`.  They raise for a value JSON does not have,
for an integer with too many digits and for text with a lone surrogate, and by then the method
has changed the emitter: an item that `close_item` could not write counts as done.

* `WriterEnv` has the exception of `_frame`, if any, as a parameter; the methods of
  `ResponsesEmitter` are given again with it, and agree with those when nothing raises.
* `Tracked` is what the methods before the end keep, whether they raise or not.
* `closeReported` and `terminateOrRaise` take items from the open ones (`Takes`), and return
  exactly when each item they have to write can be written.
-/

namespace Zhongzhuan.Protocol

open Kit

/-- What a call raises. -/
inductive Raised
  /-- An `Exception`, with its `repr`. -/
  | exception (text : String)
  /-- A `BaseException` that is none, such as a cancellation. -/
  | base
deriving DecidableEq, Repr

/-- What the emitter calls outside itself, with the `repr` of what `json.dumps` or `encode`
raises on the data of a frame.  The sequence number is put in first and does not matter. -/
structure WriterEnv extends EmitterEnv where
  writeError : Fields → Option String

namespace Emitter

variable (env : WriterEnv)

/-- `_frame`; the number is spent also when it raises. -/
def frameOrRaise (e : Emitter) (event : String) (data : Fields) :
    Emitter × Except Raised (List WireEvent) :=
  let (e, frame) := e.frame event data
  match env.writeError data with
  | some text => (e, .error (.exception text))
  | none => (e, .ok [frame])

/-- The data of a change of the response. -/
def responseData (event : String) (response : Fields) : Fields :=
  [("type", .str event), ("response", .obj response)]

/-- The data of a change of an item. -/
def itemData (event : String) (outputIndex : ℕ) (item : Fields) : Fields :=
  [("type", .str event), ("output_index", .int outputIndex), ("item", .obj item)]

/-- `start`. -/
def startOrRaise (e : Emitter) : Emitter × Except Raised (List WireEvent) :=
  if e.state ≠ .init then (e, .ok [])
  else
    let e := e.transition .created
    match e.frameOrRaise env "response.created"
        (responseData "response.created" (e.responseObject "in_progress")) with
    | (e, .error raised) => (e, .error raised)
    | (e, .ok created) =>
      let e := e.transition .inProgress
      match e.frameOrRaise env "response.in_progress"
          (responseData "response.in_progress" (e.responseObject "in_progress")) with
      | (e, .error raised) => (e, .error raised)
      | (e, .ok inProgress) => (e, .ok (created ++ inProgress))

/-- `open_item`. -/
def openItemOrRaise (e : Emitter) (item : OutputItem) : Emitter × Except Raised (List WireEvent) :=
  if item.id ∈ e.openItems ∨ item.id ∈ e.doneItems then
    (e.refuse ("duplicate_added:" ++ item.id), .ok [])
  else
    let e := e.transition .streaming
    let e :=
      { e with
        openItems := e.openItems ++ [item.id]
        announcedItems := e.announcedItems.set item.id item }
    e.frameOrRaise env "response.output_item.added"
      (itemData "response.output_item.added" item.outputIndex (itemWire item "in_progress"))

/-- The frame of an item that is done. -/
def doneOrRaise (e : Emitter) (outputIndex : ℕ) (item : Fields) :
    Emitter × Except Raised (List WireEvent) :=
  e.frameOrRaise env "response.output_item.done"
    (itemData "response.output_item.done" outputIndex item)

/-- `close_item`. -/
def closeItemOrRaise (e : Emitter) (item : OutputItem) (status : String) :
    Emitter × Except Raised (List WireEvent) :=
  if item.id ∈ e.doneItems then (e, .ok [])
  else if item.id ∉ e.openItems then (e.refuse ("close_without_open:" ++ item.id), .ok [])
  else (e.settle item.id).doneOrRaise env item.outputIndex (itemWire item status)

/-- `delta`. -/
def deltaOrRaise (e : Emitter) (event : String) (data : Fields) :
    Emitter × Except Raised (List WireEvent) :=
  if e.state ∈ EmitterState.terminal then (e.refuse ("delta_after_terminal:" ++ event), .ok [])
  else (e.transition .streaming).frameOrRaise env event (Fields.put "type" (.str event) data)

/-- `_close_open_item`. -/
def closeOpenItemOrRaise (e : Emitter) (id : String) : Emitter × Except Raised (List WireEvent) :=
  match e.announcedItems.get? id with
  | some item => (e.settle id).doneOrRaise env item.outputIndex (itemWire item "incomplete")
  | none => (e.settle id).doneOrRaise env 0 [("id", .str id), ("status", .str "incomplete")]

/-- `terminate`; the latch is set after the terminal frame. -/
def terminateOrRaise (e : Emitter) (status : ResponseStatus) (terminalReason : String)
    (incompleteDetails error : Fields) : Emitter × Except Raised (List WireEvent) :=
  if e.completedEmitted then (e, .ok [])
  else
    let e := e.transition .completing
    match forEach (closeOpenItemOrRaise env) e (env.setOrder.order e.openItems) with
    | (e, .error raised) => (e, .error raised)
    | (e, .ok dones) =>
      let event := "response." ++ status.value
      match e.frameOrRaise env event (responseData event
          (e.terminalObject env.toEmitterEnv status terminalReason incompleteDetails error)) with
      | (e, .error raised) => (e, .error raised)
      | (e, .ok final) =>
        (({ e with completedEmitted := true }).transition status.emitterState,
          .ok (dones ++ final))

/-! ## Nothing raises -/

section

variable {env} (writes : ∀ data, env.writeError data = none) (e : Emitter)

include writes

end

end Emitter

/-! ## The methods before the end -/

/-- A call of a method other than `terminate`. -/
inductive EarlyCall
  | start
  | openItem (item : OutputItem)
  | closeItem (item : OutputItem) (status : String)
  | delta (event : String) (data : Fields)
deriving DecidableEq, Repr

/-- The emitter after the call, whether it raises or not. -/
def Emitter.early (env : WriterEnv) (e : Emitter) : EarlyCall → Emitter
  | .start => (e.startOrRaise env).1
  | .openItem item => (e.openItemOrRaise env item).1
  | .closeItem item status => (e.closeItemOrRaise env item status).1
  | .delta event data => (e.deltaOrRaise env event data).1

/-- The same call of the emitter that writes everything. -/
def EarlyCall.emitterCall : EarlyCall → EmitterCall
  | .start => .start
  | .openItem item => .openItem item
  | .closeItem item status => .closeItem item status
  | .delta event data => .delta event data

/-- The emitter after such calls. -/
def Emitter.reached (env : WriterEnv) (responseId model : String) (createdAt : ℤ)
    (calls : List EarlyCall) : Emitter :=
  runSchedule (Emitter.early env) (.fresh responseId model createdAt) calls

/-- What an emitter knows about its open items. -/
structure Tracked (e : Emitter) : Prop where
  apart : ∀ id ∈ e.openItems, id ∉ e.doneItems
  nodup : e.openItems.Nodup
  announced : ∀ id ∈ e.openItems, ∃ item, e.announcedItems.get? id = some item ∧ item.id = id

/-- An emitter whose response has not ended. -/
structure Going (e : Emitter) : Prop where
  tracked : Tracked e
  unended : e.completedEmitted = false

section

variable {env : WriterEnv} {e e' : Emitter}

theorem Tracked.congr (tracked : Tracked e) (opens : e'.openItems = e.openItems)
    (dones : e'.doneItems = e.doneItems) (same : e'.announcedItems = e.announcedItems) :
    Tracked e' where
  apart := by
    rw [opens, dones]
    exact tracked.apart
  nodup := by
    rw [opens]
    exact tracked.nodup
  announced := by
    rw [opens, same]
    exact tracked.announced

theorem transition_openItems (e : Emitter) (dst : EmitterState) :
    (e.transition dst).openItems = e.openItems := by
  unfold Emitter.transition
  split <;> rfl

theorem transition_doneItems (e : Emitter) (dst : EmitterState) :
    (e.transition dst).doneItems = e.doneItems := by
  unfold Emitter.transition
  split <;> rfl

theorem transition_announcedItems (e : Emitter) (dst : EmitterState) :
    (e.transition dst).announcedItems = e.announcedItems := by
  unfold Emitter.transition
  split <;> rfl

theorem transition_completedEmitted (e : Emitter) (dst : EmitterState) :
    (e.transition dst).completedEmitted = e.completedEmitted := by
  unfold Emitter.transition
  split <;> rfl

theorem Going.transition (going : Going e) (dst : EmitterState) : Going (e.transition dst) where
  tracked := going.tracked.congr (transition_openItems e dst) (transition_doneItems e dst)
    (transition_announcedItems e dst)
  unended := (transition_completedEmitted e dst).trans going.unended

theorem frameOrRaise_fst (e : Emitter) (event : String) (data : Fields) :
    (e.frameOrRaise env event data).1 = { e with seq := e.seq + 1 } := by
  unfold Emitter.frameOrRaise
  dsimp only [Emitter.frame]
  split <;> rfl

theorem Tracked.frame (tracked : Tracked e) (event : String) (data : Fields) :
    Tracked (e.frameOrRaise env event data).1 := by
  rw [frameOrRaise_fst]
  exact tracked.congr rfl rfl rfl

theorem Going.frame (going : Going e) (event : String) (data : Fields) :
    Going (e.frameOrRaise env event data).1 := by
  rw [frameOrRaise_fst]
  exact ⟨going.tracked.congr rfl rfl rfl, going.unended⟩

theorem Tracked.settle (tracked : Tracked e) (id : String) : Tracked (e.settle id) where
  apart j mem := by
    obtain ⟨wasOpen, other⟩ := List.mem_filter.mp mem
    have notDone := tracked.apart j wasOpen
    simp only [Emitter.settle, List.mem_append, List.mem_singleton, not_or]
    exact ⟨notDone, of_decide_eq_true other⟩
  nodup := tracked.nodup.filter _
  announced j mem := by
    obtain ⟨wasOpen, other⟩ := List.mem_filter.mp mem
    obtain ⟨item, found, own⟩ := tracked.announced j wasOpen
    refine ⟨item, ?_, own⟩
    change (e.announcedItems.erase id).get? j = some item
    rwa [Dict.get?_erase_of_ne _ (of_decide_eq_true other)]

theorem Going.start (going : Going e) : Going (e.startOrRaise env).1 := by
  unfold Emitter.startOrRaise
  split
  · exact going
  · have created : Going ((e.transition .created).frameOrRaise env "response.created"
        (Emitter.responseData "response.created"
          ((e.transition .created).responseObject "in_progress"))).1 :=
      (going.transition .created).frame _ _
    dsimp only
    split
    case h_1 next raised isRaised =>
      rw [isRaised] at created
      exact created
    case h_2 next frames isCreated =>
      rw [isCreated] at created
      have begun : Going ((next.transition .inProgress).frameOrRaise env "response.in_progress"
          (Emitter.responseData "response.in_progress"
            ((next.transition .inProgress).responseObject "in_progress"))).1 :=
        (created.transition .inProgress).frame _ _
      split
      case h_1 last raised isRaised =>
        rw [isRaised] at begun
        exact begun
      case h_2 last more isBegun =>
        rw [isBegun] at begun
        exact begun

theorem Going.openItem (going : Going e) (item : OutputItem) :
    Going (e.openItemOrRaise env item).1 := by
  unfold Emitter.openItemOrRaise
  split
  · exact ⟨going.tracked.congr rfl rfl rfl, going.unended⟩
  case isFalse fresh =>
    obtain ⟨notOpen, notDone⟩ := not_or.mp fresh
    have moved := going.transition .streaming
    dsimp only
    refine Going.frame ?_ _ _
    refine ⟨⟨?_, ?_, ?_⟩, moved.unended⟩
    · intro id mem
      rcases List.mem_append.mp mem with old | new
      · exact moved.tracked.apart id old
      · rw [List.mem_singleton.mp new, transition_doneItems]
        exact notDone
    · rw [transition_openItems]
      refine List.nodup_append.mpr ⟨going.tracked.nodup, List.nodup_singleton _, ?_⟩
      intro id old other new
      rw [List.mem_singleton.mp new]
      exact ne_of_mem_of_not_mem old notOpen
    · intro id mem
      by_cases same : id = item.id
      · exact ⟨item, by rw [same, Dict.get?_set_self], same.symm⟩
      · rcases List.mem_append.mp mem with old | new
        · obtain ⟨other, found, own⟩ := moved.tracked.announced id old
          exact ⟨other, by rw [Dict.get?_set_of_ne _ _ same, found], own⟩
        · exact absurd (List.mem_singleton.mp new) same

theorem Going.closeItem (going : Going e) (item : OutputItem) (status : String) :
    Going (e.closeItemOrRaise env item status).1 := by
  unfold Emitter.closeItemOrRaise
  split
  · exact going
  · split
    · exact ⟨going.tracked.congr rfl rfl rfl, going.unended⟩
    · have settled : Going (e.settle item.id) := ⟨going.tracked.settle item.id, going.unended⟩
      exact settled.frame _ _

theorem Going.delta (going : Going e) (event : String) (data : Fields) :
    Going (e.deltaOrRaise env event data).1 := by
  unfold Emitter.deltaOrRaise
  split
  · exact ⟨going.tracked.congr rfl rfl rfl, going.unended⟩
  · exact (going.transition .streaming).frame _ _

theorem Going.early (going : Going e) (call : EarlyCall) : Going (e.early env call) := by
  cases call with
  | start => exact going.start
  | openItem item => exact going.openItem item
  | closeItem item status => exact going.closeItem item status
  | delta event data => exact going.delta event data

theorem going_reached (env : WriterEnv) (responseId model : String) (createdAt : ℤ)
    (calls : List EarlyCall) : Going (Emitter.reached env responseId model createdAt calls) := by
  refine runSchedule_invariant Going (fun e call going => going.early call) ?_ calls
  refine ⟨⟨?_, List.nodup_nil, ?_⟩, rfl⟩
  · exact List.forall_mem_nil _
  · exact List.forall_mem_nil _

end

/-! ## Items taken from the open ones -/

/-- The frame that says that an item with this id is done. -/
def DoneOf (id : String) (w : WireEvent) : Prop :=
  w.event = "response.output_item.done"
    ∧ ∃ (item : OutputItem) (status : String),
      item.id = id ∧ w.data.get "item" = some (.obj (Emitter.itemWire item status))

/-- The frame in which an item would be done can be written. -/
def WriterEnv.Writable (env : WriterEnv) (item : OutputItem) : Prop :=
  env.writeError (Emitter.itemData "response.output_item.done" item.outputIndex
    (Emitter.itemWire item "incomplete")) = none

section

variable {env : WriterEnv} {e : Emitter}

theorem perm_settle (tracked : Tracked e) {id : String} (here : id ∈ e.openItems) :
    e.openItems.Perm (id :: (e.settle id).openItems) := by
  have erased : (e.settle id).openItems = e.openItems.erase id := by
    rw [tracked.nodup.erase_eq_filter]
    exact List.filter_congr fun j _ => Bool.eq_iff_iff.mpr (by simp)
  rw [erased]
  exact List.perm_cons_erase here

theorem doneOrRaise_takes (tracked : Tracked e) {item : OutputItem} (status : String)
    (here : item.id ∈ e.openItems) :
    Takes Emitter.openItems DoneOf e
      ((e.settle item.id).doneOrRaise env item.outputIndex (Emitter.itemWire item status)) := by
  have taken : e.openItems.Perm (item.id ::
      ({ e.settle item.id with seq := e.seq + 1 } : Emitter).openItems) :=
    perm_settle tracked here
  unfold Emitter.doneOrRaise Emitter.frameOrRaise
  dsimp only [Emitter.frame]
  split
  · exact Takes.lost taken _
  · refine Takes.one taken ⟨rfl, item, status, rfl, ?_⟩
    rw [Fields.get_put_of_ne (by decide)]
    rfl

theorem closeItemOrRaise_takes (tracked : Tracked e) (item : OutputItem) (status : String) :
    Takes Emitter.openItems DoneOf e (e.closeItemOrRaise env item status) := by
  unfold Emitter.closeItemOrRaise
  split
  · exact .nothing rfl
  · split
    · exact .nothing rfl
    case isFalse isOpen => exact doneOrRaise_takes tracked status (not_not.mp isOpen)

/-- What a done item leaves as it was. -/
structure Beside (ids : List String) (e e' : Emitter) : Prop where
  unended : e'.completedEmitted = e.completedEmitted
  response : ∀ status, e'.responseObject status = e.responseObject status
  opens : ∀ id, id ∈ e'.openItems ↔ id ∈ e.openItems ∧ id ∉ ids
  announced : ∀ id, id ∉ ids → e'.announcedItems.get? id = e.announcedItems.get? id

theorem Beside.refl (e : Emitter) : Beside [] e e :=
  ⟨rfl, fun _ => rfl, fun _ => ⟨fun mem => ⟨mem, List.not_mem_nil⟩, And.left⟩, fun _ _ => rfl⟩

theorem Beside.trans {ids more : List String} {e' e'' : Emitter} (first : Beside ids e e')
    (second : Beside more e' e'') : Beside (ids ++ more) e e'' where
  unended := second.unended.trans first.unended
  response status := (second.response status).trans (first.response status)
  opens id := by
    rw [second.opens, first.opens, List.mem_append, not_or, and_assoc]
  announced id fresh := by
    rw [List.mem_append, not_or] at fresh
    rw [second.announced id fresh.2, first.announced id fresh.1]

theorem beside_done (env : WriterEnv) (e : Emitter) (id event : String) (data : Fields) :
    Beside [id] e ((e.settle id).frameOrRaise env event data).1 := by
  rw [frameOrRaise_fst]
  refine ⟨rfl, fun _ => rfl, fun j => ?_, fun j fresh => ?_⟩
  · rw [List.mem_singleton]
    exact List.mem_filter.trans (and_congr_right' decide_eq_true_iff)
  · change (e.announcedItems.erase id).get? j = e.announcedItems.get? j
    exact Dict.get?_erase_of_ne _ fun same => fresh (List.mem_singleton.mpr same)

theorem doneOrRaise_ok {item : OutputItem} (writable : env.Writable item) (e : Emitter) :
    ∃ e' w, e.doneOrRaise env item.outputIndex (Emitter.itemWire item "incomplete") = (e', .ok [w])
      ∧ DoneOf item.id w := by
  unfold WriterEnv.Writable at writable
  unfold Emitter.doneOrRaise Emitter.frameOrRaise
  rw [writable]
  refine ⟨_, _, rfl, rfl, item, "incomplete", rfl, ?_⟩
  change (Fields.put "sequence_number" _ _).get "item" = _
  rw [Fields.get_put_of_ne (by decide)]
  rfl

theorem doneOrRaise_error {item : OutputItem} (stuck : ¬ env.Writable item) (e : Emitter) :
    ∃ e' text, e.doneOrRaise env item.outputIndex (Emitter.itemWire item "incomplete")
      = (e', .error (.exception text)) := by
  obtain ⟨text, raised⟩ := Option.ne_none_iff_exists'.mp stuck
  unfold Emitter.doneOrRaise Emitter.frameOrRaise
  rw [raised]
  exact ⟨_, _, rfl⟩

/-! ### A list of reported items -/

/-- The first report of an item. -/
def firstReport (items : List OutputItem) (id : String) : Option OutputItem :=
  items.find? fun item => item.id = id

/-- `close_item` on each item of a list. -/
def Emitter.closeReported (env : WriterEnv) (e : Emitter) (items : List OutputItem) :
    Emitter × Except Raised (List WireEvent) :=
  forEach (fun e item => e.closeItemOrRaise env item "incomplete") e items

theorem Tracked.closeItem (tracked : Tracked e) (item : OutputItem) (status : String) :
    Tracked (e.closeItemOrRaise env item status).1 := by
  unfold Emitter.closeItemOrRaise
  split
  · exact tracked
  · split
    · exact tracked.congr rfl rfl rfl
    · exact (tracked.settle item.id).frame _ _

theorem closeReported_takes (env : WriterEnv) (tracked : Tracked e) (items : List OutputItem) :
    Takes Emitter.openItems DoneOf e (e.closeReported env items) :=
  forEach_takes Tracked (fun _ item held => held.closeItem item "incomplete")
    (fun _ item held => closeItemOrRaise_takes held item "incomplete") tracked items

theorem firstReport_cons_self (item : OutputItem) (rest : List OutputItem) :
    firstReport (item :: rest) item.id = some item :=
  List.find?_cons_of_pos (decide_eq_true rfl)

theorem firstReport_cons_of_ne {item : OutputItem} {id : String} (other : item.id ≠ id)
    (rest : List OutputItem) : firstReport (item :: rest) id = firstReport rest id :=
  List.find?_cons_of_neg (by simpa using other)

theorem closeItemOrRaise_of_not_open (env : WriterEnv) {item : OutputItem}
    (absent : item.id ∉ e.openItems) (status : String) :
    ∃ e', e.closeItemOrRaise env item status = (e', .ok []) ∧ Beside [] e e' := by
  unfold Emitter.closeItemOrRaise
  split
  · exact ⟨e, rfl, .refl e⟩
  · refine ⟨_, rfl, ⟨rfl, fun _ => rfl, fun id => ?_, fun _ _ => rfl⟩⟩
    exact ⟨fun mem => ⟨mem, List.not_mem_nil⟩, And.left⟩

theorem closeItemOrRaise_of_open (tracked : Tracked e) {item : OutputItem}
    (here : item.id ∈ e.openItems) (status : String) :
    e.closeItemOrRaise env item status
      = (e.settle item.id).doneOrRaise env item.outputIndex (Emitter.itemWire item status) := by
  unfold Emitter.closeItemOrRaise
  rw [if_neg (tracked.apart item.id here), if_neg (not_not.mpr here)]

theorem closeItemOrRaise_ok (tracked : Tracked e) {item : OutputItem}
    (writable : item.id ∈ e.openItems → env.Writable item) :
    ∃ e' frames ids, e.closeItemOrRaise env item "incomplete" = (e', .ok frames)
      ∧ Tracked e' ∧ Beside ids e e' ∧ ∀ id ∈ e.openItems, id ∈ ids ↔ id = item.id := by
  have kept : Tracked (e.closeItemOrRaise env item "incomplete").1 := tracked.closeItem item _
  by_cases here : item.id ∈ e.openItems
  · obtain ⟨e', w, written, -⟩ := doneOrRaise_ok (writable here) (e.settle item.id)
    have beside := beside_done env e item.id "response.output_item.done"
      (Emitter.itemData "response.output_item.done" item.outputIndex
        (Emitter.itemWire item "incomplete"))
    rw [closeItemOrRaise_of_open tracked here, written] at kept ⊢
    refine ⟨e', [w], [item.id], rfl, kept, ?_, fun _ _ => List.mem_singleton⟩
    unfold Emitter.doneOrRaise at written
    rwa [written] at beside
  · obtain ⟨e', returned, beside⟩ := closeItemOrRaise_of_not_open env here "incomplete"
    rw [returned] at kept
    refine ⟨e', [], [], returned, kept, beside, fun id isOpen => ?_⟩
    exact iff_of_false List.not_mem_nil (ne_of_mem_of_not_mem isOpen here)

theorem closeReported_ok (tracked : Tracked e) {items : List OutputItem}
    (writable : ∀ id ∈ e.openItems, ∀ item, firstReport items id = some item →
      env.Writable item) :
    ∃ e' frames ids, e.closeReported env items = (e', .ok frames) ∧ Beside ids e e'
      ∧ ∀ id ∈ e.openItems, id ∈ ids ↔ (firstReport items id).isSome := by
  induction items generalizing e with
  | nil =>
      refine ⟨e, [], [], rfl, .refl e, fun id _ => ?_⟩
      exact iff_of_false List.not_mem_nil Bool.false_ne_true
  | cons item rest ih =>
      obtain ⟨e₁, first, ids, called, tracked₁, beside, closed⟩ :=
        closeItemOrRaise_ok tracked fun here =>
          writable item.id here item (firstReport_cons_self item rest)
      have others : ∀ id ∈ e.openItems, id ≠ item.id →
          firstReport (item :: rest) id = firstReport rest id := fun id _ other =>
        firstReport_cons_of_ne other.symm rest
      obtain ⟨e', frames, more, run, beside', closed'⟩ := ih tracked₁ fun id isOpen report => by
        obtain ⟨wasOpen, fresh⟩ := (beside.opens id).mp isOpen
        rw [closed id wasOpen] at fresh
        rw [← others id wasOpen fresh]
        exact writable id wasOpen report
      unfold Emitter.closeReported at run ⊢
      refine ⟨e', first ++ frames, ids ++ more, ?_, beside.trans beside', fun id isOpen => ?_⟩
      · rw [forEach_cons_ok called, run]
        rfl
      · rw [List.mem_append, closed id isOpen]
        by_cases same : id = item.id
        · rw [same, firstReport_cons_self]
          exact iff_of_true (.inl rfl) rfl
        · have still : id ∈ e₁.openItems := by
            rw [beside.opens, closed id isOpen]
            exact ⟨isOpen, same⟩
          rw [others id isOpen same, or_iff_right same, closed' id still]

theorem closeReported_error (tracked : Tracked e) {items : List OutputItem} {id : String}
    {item : OutputItem} (here : id ∈ e.openItems) (reported : firstReport items id = some item)
    (stuck : ¬ env.Writable item) :
    ∃ e' text, e.closeReported env items = (e', .error (.exception text)) := by
  induction items generalizing e with
  | nil => cases reported
  | cons first rest ih =>
      unfold Emitter.closeReported
      by_cases writable : first.id ∈ e.openItems → env.Writable first
      · have other : first.id ≠ id := by
          rintro rfl
          rw [firstReport_cons_self] at reported
          cases reported
          exact stuck (writable here)
        rw [firstReport_cons_of_ne other] at reported
        obtain ⟨e₁, frames, ids, called, tracked₁, beside, closed⟩ :=
          closeItemOrRaise_ok tracked writable
        have still : id ∈ e₁.openItems := by
          rw [beside.opens, closed id here]
          exact ⟨here, other.symm⟩
        obtain ⟨e', text, run⟩ := ih tracked₁ still reported
        unfold Emitter.closeReported at run
        rw [forEach_cons_ok called, run]
        exact ⟨e', text, rfl⟩
      · obtain ⟨firstOpen, firstStuck⟩ := Classical.not_imp.mp writable
        obtain ⟨e', text, raised⟩ := doneOrRaise_error firstStuck (e.settle first.id)
        rw [← closeItemOrRaise_of_open tracked firstOpen] at raised
        exact ⟨e', text, forEach_cons_error raised rest⟩

/-! ### The end of a response -/

theorem closeOpenItemOrRaise_of_announced {id : String} {item : OutputItem}
    (found : e.announcedItems.get? id = some item) :
    e.closeOpenItemOrRaise env id
      = (e.settle id).doneOrRaise env item.outputIndex (Emitter.itemWire item "incomplete") := by
  rw [Emitter.closeOpenItemOrRaise, found]

theorem closeOpenItems_ok {ids : List String} (nodup : ids.Nodup)
    (announced : ∀ id ∈ ids, ∃ item, e.announcedItems.get? id = some item ∧ item.id = id
      ∧ env.Writable item) :
    ∃ e' frames, forEach (Emitter.closeOpenItemOrRaise env) e ids = (e', .ok frames)
      ∧ Beside ids e e' ∧ List.Forall₂ DoneOf ids frames := by
  induction ids generalizing e with
  | nil => exact ⟨e, [], rfl, .refl e, .nil⟩
  | cons id ids ih =>
      obtain ⟨fresh, distinct⟩ := List.nodup_cons.mp nodup
      obtain ⟨item, found, rfl, writable⟩ := announced id List.mem_cons_self
      obtain ⟨e₁, w, written, isDone⟩ := doneOrRaise_ok writable (e.settle item.id)
      have beside := beside_done env e item.id "response.output_item.done"
        (Emitter.itemData "response.output_item.done" item.outputIndex
          (Emitter.itemWire item "incomplete"))
      have called := (closeOpenItemOrRaise_of_announced found).trans written
      unfold Emitter.doneOrRaise at written
      rw [written] at beside
      obtain ⟨e', frames, run, beside', done⟩ := ih distinct fun id mem => by
        have other : id ∉ [item.id] := by
          rw [List.mem_singleton]
          exact ne_of_mem_of_not_mem mem fresh
        rw [beside.announced id other]
        exact announced id (List.mem_cons_of_mem _ mem)
      refine ⟨e', [w] ++ frames, ?_, beside.trans beside', .cons isDone done⟩
      rw [forEach_cons_ok called, run]
      rfl

theorem closeOpenItems_error {ids : List String} (nodup : ids.Nodup)
    (announced : ∀ id ∈ ids, ∃ item, e.announcedItems.get? id = some item ∧ item.id = id)
    {id : String} {item : OutputItem} (here : id ∈ ids)
    (found : e.announcedItems.get? id = some item) (stuck : ¬ env.Writable item) :
    ∃ e' text, forEach (Emitter.closeOpenItemOrRaise env) e ids
      = (e', .error (.exception text)) := by
  induction ids generalizing e with
  | nil => cases here
  | cons first ids ih =>
      obtain ⟨fresh, distinct⟩ := List.nodup_cons.mp nodup
      obtain ⟨own, isOwn, rfl⟩ := announced first List.mem_cons_self
      by_cases writable : env.Writable own
      · obtain ⟨e₁, w, written, -⟩ := doneOrRaise_ok writable (e.settle own.id)
        have beside := beside_done env e own.id "response.output_item.done"
          (Emitter.itemData "response.output_item.done" own.outputIndex
            (Emitter.itemWire own "incomplete"))
        have called := (closeOpenItemOrRaise_of_announced isOwn).trans written
        unfold Emitter.doneOrRaise at written
        rw [written] at beside
        have others : ∀ id ∈ ids, e₁.announcedItems.get? id = e.announcedItems.get? id := by
          intro id mem
          refine beside.announced id ?_
          rw [List.mem_singleton]
          exact ne_of_mem_of_not_mem mem fresh
        have later : id ∈ ids := by
          refine (List.mem_cons.mp here).resolve_left ?_
          rintro rfl
          rw [isOwn] at found
          cases found
          exact stuck writable
        obtain ⟨e', text, run⟩ := ih distinct
          (fun id mem => by
            rw [others id mem]
            exact announced id (List.mem_cons_of_mem _ mem))
          later ((others id later).trans found)
        rw [forEach_cons_ok called, run]
        exact ⟨e', text, rfl⟩
      · obtain ⟨e', text, raised⟩ := doneOrRaise_error writable (e.settle own.id)
        rw [← closeOpenItemOrRaise_of_announced isOwn] at raised
        exact ⟨e', text, forEach_cons_error raised ids⟩

theorem terminateOrRaise_of_ended (ended : e.completedEmitted = true) (status : ResponseStatus)
    (terminalReason : String) (incompleteDetails error : Fields) :
    e.terminateOrRaise env status terminalReason incompleteDetails error = (e, .ok []) :=
  if_pos ended

theorem terminalObject_congr {e' : Emitter}
    (same : ∀ status, e'.responseObject status = e.responseObject status)
    (status : ResponseStatus) (terminalReason : String) (incompleteDetails error : Fields) :
    e'.terminalObject env.toEmitterEnv status terminalReason incompleteDetails error
      = e.terminalObject env.toEmitterEnv status terminalReason incompleteDetails error := by
  unfold Emitter.terminalObject
  rw [same]

theorem beside_transition (e : Emitter) (dst : EmitterState) : Beside [] e (e.transition dst) := by
  refine ⟨transition_completedEmitted e dst, fun _ => ?_, fun id => ?_, fun id _ => ?_⟩
  · unfold Emitter.transition
    split <;> rfl
  · rw [transition_openItems]
    exact ⟨fun mem => ⟨mem, List.not_mem_nil⟩, And.left⟩
  · rw [transition_announcedItems]

/-- The data of the terminal event. -/
def Emitter.terminalData (env : WriterEnv) (e : Emitter) (status : ResponseStatus)
    (terminalReason : String) (incompleteDetails error : Fields) : Fields :=
  responseData ("response." ++ status.value)
    (e.terminalObject env.toEmitterEnv status terminalReason incompleteDetails error)

theorem closing_ok (going : Going e)
    (writable : ∀ id ∈ e.openItems, ∀ item, e.announcedItems.get? id = some item →
      env.Writable item) :
    ∃ e' dones,
      forEach (Emitter.closeOpenItemOrRaise env) (e.transition .completing)
          (env.setOrder.order (e.transition .completing).openItems) = (e', .ok dones)
        ∧ List.Forall₂ DoneOf (env.setOrder.order (e.transition .completing).openItems) dones
        ∧ e'.openItems = []
        ∧ ∀ status reason details error, e'.terminalData env status reason details error
            = e.terminalData env status reason details error := by
  have moved := going.transition .completing
  have perm := env.setOrder.perm (e.transition .completing).openItems
  have beside := beside_transition e .completing
  obtain ⟨e', dones, run, closed, done⟩ :=
    closeOpenItems_ok (perm.nodup_iff.mpr moved.tracked.nodup) fun id mem => by
      have isOpen := perm.mem_iff.mp mem
      obtain ⟨item, found, own⟩ := moved.tracked.announced id isOpen
      have before := (beside.announced id List.not_mem_nil).symm.trans found
      exact ⟨item, found, own, writable id ((beside.opens id).mp isOpen).1 item before⟩
  refine ⟨e', dones, run, done, ?_, fun status reason details error => ?_⟩
  · refine List.eq_nil_iff_forall_not_mem.mpr fun id mem => ?_
    obtain ⟨wasOpen, fresh⟩ := (closed.opens id).mp mem
    exact fresh (perm.mem_iff.mpr wasOpen)
  · unfold Emitter.terminalData
    rw [terminalObject_congr (beside.trans closed).response]

theorem terminateOrRaise_ok (going : Going e) {status : ResponseStatus} {terminalReason : String}
    {incompleteDetails error : Fields}
    (writable : ∀ id ∈ e.openItems, ∀ item, e.announcedItems.get? id = some item →
      env.Writable item)
    (final : env.writeError (e.terminalData env status terminalReason incompleteDetails error)
      = none) :
    ∃ e' ids dones w,
      e.terminateOrRaise env status terminalReason incompleteDetails error
          = (e', .ok (dones ++ [w]))
        ∧ ids.Perm e.openItems ∧ List.Forall₂ DoneOf ids dones
        ∧ w.event = "response." ++ status.value
        ∧ e'.openItems = [] ∧ e'.completedEmitted = true := by
  obtain ⟨e₁, dones, run, done, closed, sameData⟩ := closing_ok going writable
  rw [← sameData] at final
  unfold Emitter.terminalData at final
  unfold Emitter.terminateOrRaise
  rw [if_neg (by rw [going.unended]; exact Bool.false_ne_true)]
  dsimp only
  rw [run]
  dsimp only
  rw [Emitter.frameOrRaise, final]
  refine ⟨_, _, dones, _, rfl, ?_, done, rfl, ?_, ?_⟩
  · rw [← transition_openItems e .completing]
    exact env.setOrder.perm _
  · rw [transition_openItems]
    exact closed
  · rw [transition_completedEmitted]

theorem terminateOrRaise_error (going : Going e) {status : ResponseStatus}
    {terminalReason : String} {incompleteDetails error : Fields}
    (stuck : (∃ id ∈ e.openItems, ∃ item, e.announcedItems.get? id = some item
        ∧ ¬ env.Writable item)
      ∨ env.writeError (e.terminalData env status terminalReason incompleteDetails error)
        ≠ none) :
    ∃ e' text, e.terminateOrRaise env status terminalReason incompleteDetails error
      = (e', .error (.exception text)) := by
  unfold Emitter.terminateOrRaise
  rw [if_neg (by rw [going.unended]; exact Bool.false_ne_true)]
  dsimp only
  by_cases items : ∃ id ∈ e.openItems, ∃ item, e.announcedItems.get? id = some item
      ∧ ¬ env.Writable item
  · obtain ⟨id, isOpen, item, found, unwritable⟩ := items
    have moved := going.transition .completing
    have perm := env.setOrder.perm (e.transition .completing).openItems
    have beside := beside_transition e .completing
    have here : id ∈ env.setOrder.order (e.transition .completing).openItems :=
      perm.mem_iff.mpr ((beside.opens id).mpr ⟨isOpen, List.not_mem_nil⟩)
    obtain ⟨e', text, run⟩ := closeOpenItems_error (perm.nodup_iff.mpr moved.tracked.nodup)
      (fun id mem => moved.tracked.announced id (perm.mem_iff.mp mem)) here
      ((beside.announced id List.not_mem_nil).trans found) unwritable
    rw [run]
    exact ⟨e', text, rfl⟩
  · obtain ⟨text, raised⟩ := Option.ne_none_iff_exists'.mp (stuck.resolve_left items)
    push Not at items
    obtain ⟨e₁, dones, run, -, -, sameData⟩ := closing_ok going items
    rw [← sameData] at raised
    unfold Emitter.terminalData at raised
    rw [run]
    dsimp only
    rw [Emitter.frameOrRaise, raised]
    exact ⟨_, text, rfl⟩

end

end Zhongzhuan.Protocol
