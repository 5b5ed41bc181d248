import Zhongzhuan.Protocol.ResponsesEmitter

/-!
# The law of the emitter's output

`WellFormedOutput` is the law that the docstring of the emitter announces: events are numbered
from one, `response.created` comes first, items are added and done once and in that order, and
nothing but heartbeats follows the terminal event, which finds every item done.

The transition table does not enforce it.  `open_item`, `delta` and `terminate` write their
frames also when the transition is refused: before `start`, and `open_item` even after
`terminate` (`openedLate_unlawful`).  `Proper` says for one call where the emitter is used as the
table has it; a run of proper calls is lawful (`wellFormed_of_proper`).
-/

namespace Zhongzhuan.Protocol

open Kit Kit.ItemStream

/-! ## The law -/

/-- The events among what is written. -/
def eventsOf (written : List Written) : List WireEvent :=
  written.filterMap fun w =>
    match w with
    | .event e => some e
    | .heartbeat => none

/-- The id of the item an event carries. -/
def WireEvent.itemId (e : WireEvent) : Json :=
  match e.data.get "item" with
  | some (.obj item) => (Fields.get item "id").getD .null
  | _ => .null

/-- The events that end a response. -/
def terminalEvents : List String :=
  ["response.completed", "response.failed", "response.incomplete", "response.cancelled"]

/-- The events of which the emitter writes each at most once for an item or for the response. -/
def lifecycleEvents : List String :=
  ["response.output_item.added", "response.output_item.done"] ++ terminalEvents

/-- What an event does to the items and to the response. -/
def WireEvent.lifecycle (e : WireEvent) : Act Json Char :=
  if e.event = "response.output_item.added" then .opens e.itemId
  else if e.event = "response.output_item.done" then .closes e.itemId
  else if e.event ∈ terminalEvents then .ends
  else .plain

/-- The numbers from one on. -/
def sequenceNumbers (n : ℕ) : List (Option Json) :=
  (List.range n).map fun i => some (.int (i + 1 : ℕ))

/-- The law of what an emitter writes. -/
structure WellFormedOutput (written : List Written) : Prop where
  numbered : (eventsOf written).map (fun e => e.data.get "sequence_number")
    = sequenceNumbers (eventsOf written).length
  created_first : ∀ e ∈ (eventsOf written).head?, e.event = "response.created"
  lawful : Lawful ((eventsOf written).map WireEvent.lifecycle)

/-! ## Runs -/

/-- An emitter and what it has written. -/
structure EmitterRun where
  emitter : Emitter
  written : List Written

/-- One more call. -/
def EmitterRun.step (env : EmitterEnv) (r : EmitterRun) (call : EmitterCall) : EmitterRun :=
  let out := r.emitter.emit env call
  ⟨out.1, r.written ++ out.2⟩

/-- A call that does not make the emitter write what its transition table forbids. -/
def Proper (e : Emitter) : EmitterCall → Prop
  | .start | .heartbeat => True
  | .openItem item => item.id ∉ e.openItems → item.id ∉ e.doneItems →
      e.state ≠ .init ∧ e.completedEmitted = false ∧ item.extra.get "id" = none
  | .closeItem item _ => item.id ∈ e.openItems → item.extra.get "id" = none
  | .delta event _ => e.state ∉ EmitterState.terminal →
      e.state ≠ .init ∧ event ∉ lifecycleEvents
  | .terminate .. => e.completedEmitted = false → e.state ≠ .init

/-! ## Fields of the frames -/

theorem get_updateFields {key : String} {fields other : Fields} (absent : other.get key = none) :
    (Emitter.updateFields fields other).get key = fields.get key := by
  unfold Emitter.updateFields
  induction other generalizing fields with
  | nil => rfl
  | cons field rest ih =>
      obtain ⟨k, v⟩ := field
      unfold Fields.get at absent
      rw [List.lookup_cons] at absent
      cases same : key == k with
      | true => simp [same] at absent
      | false =>
          rw [same] at absent
          rw [List.foldl_cons, ih absent, Fields.get_put_of_ne (by simpa using same)]

theorem get_id_itemWire {item : OutputItem} (own : item.extra.get "id" = none)
    (status : String) : (Emitter.itemWire item status).get "id" = some (.str item.id) := by
  unfold Emitter.itemWire
  rw [get_updateFields own]
  rfl

variable {e : Emitter} {events : List WireEvent}

/-- An emitter and the events it has written. -/
structure Ledger (e : Emitter) (events : List WireEvent) : Prop where
  numbered : events.map (fun e => e.data.get "sequence_number") = sequenceNumbers e.seq
  count : events.length = e.seq
  lawful : Lawful (events.map WireEvent.lifecycle)
  opened : ∀ k, .opens k ∈ events.map WireEvent.lifecycle
    ↔ ∃ id, k = .str id ∧ (id ∈ e.openItems ∨ id ∈ e.doneItems)
  closed : ∀ k, .closes k ∈ events.map WireEvent.lifecycle
    ↔ ∃ id, k = .str id ∧ id ∈ e.doneItems
  apart : ∀ id ∈ e.openItems, id ∉ e.doneItems
  nodup : e.openItems.Nodup
  announced : ∀ id ∈ e.openItems, ∃ item, e.announcedItems.get? id = some item
    ∧ item.id = id ∧ item.extra.get "id" = none

theorem sequenceNumbers_succ (n : ℕ) :
    sequenceNumbers (n + 1) = sequenceNumbers n ++ [some (.int (n + 1 : ℕ))] := by
  simp [sequenceNumbers, List.range_succ]

theorem Ledger.live_iff (ledger : Ledger e events) (id : String) :
    Live (events.map WireEvent.lifecycle) (.str id) ↔ id ∈ e.openItems := by
  unfold Live
  rw [ledger.opened, ledger.closed]
  constructor
  · rintro ⟨⟨_, same, opened⟩, notClosed⟩
    cases same
    rcases opened with here | done
    · exact here
    · exact absurd ⟨id, rfl, done⟩ notClosed
  · intro here
    refine ⟨⟨id, rfl, .inl here⟩, ?_⟩
    rintro ⟨_, same, done⟩
    cases same
    exact ledger.apart id here done

section Frames

variable (event : String) (data : Fields)

theorem numbered_frame (ledger : Ledger e events) :
    (events ++ [(e.frame event data).2]).map (fun e => e.data.get "sequence_number")
      = sequenceNumbers (e.frame event data).1.seq := by
  rw [List.map_append, ledger.numbered]
  show _ = sequenceNumbers (e.seq + 1)
  rw [sequenceNumbers_succ, List.map_singleton]
  exact congrArg (fun v => sequenceNumbers e.seq ++ [v]) (Fields.get_put_self _ _ _)

theorem count_frame (ledger : Ledger e events) :
    (events ++ [(e.frame event data).2]).length = (e.frame event data).1.seq := by
  rw [List.length_append, ledger.count]
  rfl

theorem Ledger.plain (ledger : Ledger e events) (going : .ends ∉ events.map WireEvent.lifecycle)
    (other : event ∉ lifecycleEvents) :
    Ledger (e.frame event data).1 (events ++ [(e.frame event data).2]) := by
  have plain : (e.frame event data).2.lifecycle = .plain := by
    have names : event ≠ "response.output_item.added" ∧ event ≠ "response.output_item.done"
        ∧ event ∉ terminalEvents := by
      simpa [lifecycleEvents] using other
    unfold WireEvent.lifecycle Emitter.frame
    dsimp only
    rw [if_neg names.1, if_neg names.2.1, if_neg names.2.2]
  refine ⟨numbered_frame _ _ ledger, count_frame _ _ ledger, ?_, ?_, ?_, ledger.apart, ledger.nodup,
    ledger.announced⟩
  · rw [List.map_append, List.map_singleton, plain, lawful_snoc]
    exact ⟨ledger.lawful, going, by simp, by simp [Act.needed?], by simp, by simp⟩
  · intro k
    rw [List.map_append, List.map_singleton, plain]
    have before : .opens k ∈ events.map WireEvent.lifecycle ++ [Act.plain]
        ↔ .opens k ∈ events.map WireEvent.lifecycle := by simp
    exact before.trans (ledger.opened k)
  · intro k
    rw [List.map_append, List.map_singleton, plain]
    have before : .closes k ∈ events.map WireEvent.lifecycle ++ [Act.plain]
        ↔ .closes k ∈ events.map WireEvent.lifecycle := by simp
    exact before.trans (ledger.closed k)

theorem Ledger.added (ledger : Ledger e events) (going : .ends ∉ events.map WireEvent.lifecycle)
    {item : OutputItem} (notOpen : item.id ∉ e.openItems) (notDone : item.id ∉ e.doneItems)
    (own : item.extra.get "id" = none) (e' : Emitter) (seq : e'.seq = e.seq)
    (opens : e'.openItems = e.openItems ++ [item.id]) (dones : e'.doneItems = e.doneItems)
    (announced : e'.announcedItems = e.announcedItems.set item.id item) (status : String) :
    Ledger (e'.itemFrame "response.output_item.added" item.outputIndex
        (Emitter.itemWire item status)).1
      (events ++ [(e'.itemFrame "response.output_item.added" item.outputIndex
        (Emitter.itemWire item status)).2]) := by
  have adds : (e'.itemFrame "response.output_item.added" item.outputIndex
      (Emitter.itemWire item status)).2.lifecycle = .opens (.str item.id) := by
    have id : (e'.itemFrame "response.output_item.added" item.outputIndex
        (Emitter.itemWire item status)).2.itemId = .str item.id := by
      show ((Emitter.itemWire item status).get "id").getD .null = _
      rw [get_id_itemWire own]
      rfl
    rw [← id]
    rfl
  refine ⟨?_, ?_, ?_, ?_, ?_, ?_, ?_, ?_⟩
  · rw [List.map_append, ledger.numbered, ← seq, List.map_singleton]
    exact (sequenceNumbers_succ _).symm
  · rw [List.length_append, ledger.count, ← seq]
    rfl
  · rw [List.map_append, List.map_singleton, adds, lawful_snoc]
    refine ⟨ledger.lawful, going, ?_, by simp [Act.needed?], by simp, by simp⟩
    rintro k same opened
    obtain rfl : Json.str item.id = k := Act.opens.inj same
    obtain ⟨_, same, here⟩ := (ledger.opened _).mp opened
    cases same
    exact here.elim notOpen notDone
  · intro k
    rw [List.map_append, List.map_singleton, adds, List.mem_append, ledger.opened]
    show _ ↔ ∃ id, k = .str id ∧ (id ∈ e'.openItems ∨ id ∈ e'.doneItems)
    rw [opens, dones]
    constructor
    · rintro (⟨id, same, here⟩ | now)
      · exact ⟨id, same, here.imp_left (List.mem_append_left _)⟩
      · exact ⟨item.id, by simpa using now, .inl (by simp)⟩
    · rintro ⟨id, rfl, here⟩
      rw [List.mem_append, List.mem_singleton, or_assoc, or_comm (a := id = item.id),
        ← or_assoc] at here
      rcases here with before | rfl
      · exact .inl ⟨id, rfl, before⟩
      · exact .inr List.mem_cons_self
  · intro k
    rw [List.map_append, List.map_singleton, adds]
    show _ ↔ ∃ id, k = .str id ∧ id ∈ e'.doneItems
    rw [dones, ← ledger.closed k]
    simp
  · show ∀ id ∈ e'.openItems, id ∉ e'.doneItems
    rw [opens, dones]
    intro id here
    rcases List.mem_append.mp here with before | now
    · exact ledger.apart id before
    · rw [List.mem_singleton.mp now]
      exact notDone
  · show e'.openItems.Nodup
    rw [opens]
    refine List.nodup_append.mpr ⟨ledger.nodup, List.nodup_singleton _, ?_⟩
    rintro id here _ now rfl
    exact notOpen (List.mem_singleton.mp now ▸ here)
  · show ∀ id ∈ e'.openItems, ∃ item, e'.announcedItems.get? id = some item
      ∧ item.id = id ∧ item.extra.get "id" = none
    rw [opens, announced]
    intro id here
    by_cases same : id = item.id
    · subst same
      exact ⟨item, Dict.get?_set_self _ _ _, rfl, own⟩
    · have before : id ∈ e.openItems := by simpa [same] using here
      obtain ⟨known, found, facts⟩ := ledger.announced id before
      exact ⟨known, by rw [Dict.get?_set_of_ne _ _ same, found], facts⟩

theorem Ledger.done (ledger : Ledger e events) (going : .ends ∉ events.map WireEvent.lifecycle)
    {id : String} (here : id ∈ e.openItems) {outputIndex : ℕ} {wire : Fields}
    (own : wire.get "id" = some (.str id)) :
    Ledger ((e.settle id).itemFrame "response.output_item.done" outputIndex wire).1
      (events ++ [((e.settle id).itemFrame "response.output_item.done" outputIndex wire).2]) := by
  have closes : ((e.settle id).itemFrame "response.output_item.done" outputIndex wire).2.lifecycle
      = .closes (.str id) := by
    have itemId : ((e.settle id).itemFrame "response.output_item.done" outputIndex wire).2.itemId
        = .str id := by
      show (wire.get "id").getD .null = _
      rw [own]
      rfl
    rw [← itemId]
    rfl
  refine ⟨?_, ?_, ?_, ?_, ?_, ?_, ?_, ?_⟩
  · rw [List.map_append, ledger.numbered, List.map_singleton]
    exact (sequenceNumbers_succ _).symm
  · rw [List.length_append, ledger.count]
    rfl
  · rw [List.map_append, List.map_singleton, closes, lawful_snoc]
    refine ⟨ledger.lawful, going, by simp, ?_, by simp, by simp⟩
    intro k needs
    obtain rfl : Json.str id = k := Option.some.inj needs
    exact (ledger.live_iff id).mpr here
  · intro k
    rw [List.map_append, List.map_singleton, closes]
    have before : .opens k ∈ events.map WireEvent.lifecycle ++ [Act.closes (Json.str id)]
        ↔ .opens k ∈ events.map WireEvent.lifecycle := by simp
    rw [before, ledger.opened]
    show _ ↔ ∃ j, k = .str j ∧ (j ∈ e.openItems.filter (· ≠ id) ∨ j ∈ e.doneItems ++ [id])
    constructor
    · rintro ⟨j, same, inside⟩
      refine ⟨j, same, ?_⟩
      by_cases it : j = id
      · exact .inr (by simp [it])
      · exact inside.imp (fun mem => List.mem_filter.mpr ⟨mem, by simpa using it⟩)
          (List.mem_append_left _)
    · rintro ⟨j, same, inside⟩
      refine ⟨j, same, ?_⟩
      rcases inside with mem | mem
      · exact .inl (List.mem_of_mem_filter mem)
      · rcases List.mem_append.mp mem with old | now
        · exact .inr old
        · exact .inl (List.mem_singleton.mp now ▸ here)
  · intro k
    rw [List.map_append, List.map_singleton, closes, List.mem_append, ledger.closed]
    show _ ↔ ∃ j, k = .str j ∧ j ∈ e.doneItems ++ [id]
    constructor
    · rintro (⟨j, same, old⟩ | now)
      · exact ⟨j, same, List.mem_append_left _ old⟩
      · exact ⟨id, by simpa using now, by simp⟩
    · rintro ⟨j, rfl, inside⟩
      rcases List.mem_append.mp inside with old | now
      · exact .inl ⟨j, rfl, old⟩
      · exact .inr (by simp [List.mem_singleton.mp now])
  · show ∀ j ∈ e.openItems.filter (· ≠ id), j ∉ e.doneItems ++ [id]
    intro j inside again
    obtain ⟨before, other⟩ := List.mem_filter.mp inside
    rcases List.mem_append.mp again with old | now
    · exact ledger.apart j before old
    · exact of_decide_eq_true other (List.mem_singleton.mp now)
  · exact ledger.nodup.filter _
  · show ∀ j ∈ e.openItems.filter (· ≠ id), ∃ item, (e.announcedItems.erase id).get? j = some item
      ∧ item.id = j ∧ item.extra.get "id" = none
    intro j inside
    obtain ⟨before, other⟩ := List.mem_filter.mp inside
    rw [Dict.get?_erase_of_ne _ (of_decide_eq_true other)]
    exact ledger.announced j before

end Frames

/-! ## Runs of proper calls -/

/-- The states of an emitter that has not ended the response. -/
def EmitterState.active : List EmitterState := [.inProgress, .streaming]

/-- An emitter that is used as its transition table has it, between two calls. -/
structure Sound (e : Emitter) (events : List WireEvent) : Prop where
  ledger : Ledger e events
  /-- Nothing is written before `start`, which writes `response.created`. -/
  created : if e.state = .init then events = []
    else ∃ first, events.head? = some first ∧ first.event = "response.created"
  going : e.completedEmitted = false →
    .ends ∉ events.map WireEvent.lifecycle
      ∧ (e.state = .init ∨ e.state ∈ EmitterState.active)
  ended : e.completedEmitted = true → e.state ∈ EmitterState.terminal ∧ e.openItems = []

theorem head?_append_of_some {first : WireEvent} {more : List WireEvent}
    (head : events.head? = some first) : (events ++ more).head? = some first := by
  rw [List.head?_append, head]
  rfl

theorem Ledger.congr (ledger : Ledger e events) (e' : Emitter) (seq : e'.seq = e.seq)
    (opens : e'.openItems = e.openItems) (dones : e'.doneItems = e.doneItems)
    (announced : e'.announcedItems = e.announcedItems) : Ledger e' events where
  numbered := by rw [seq, ledger.numbered]
  count := by rw [seq, ledger.count]
  lawful := ledger.lawful
  opened := by rw [opens, dones]; exact ledger.opened
  closed := by rw [dones]; exact ledger.closed
  apart := by rw [opens, dones]; exact ledger.apart
  nodup := by rw [opens]; exact ledger.nodup
  announced := by rw [opens, announced]; exact ledger.announced

theorem Sound.refuse (sound : Sound e events) (label : String) : Sound (e.refuse label) events :=
  ⟨sound.ledger.congr _ rfl rfl rfl rfl, sound.created, sound.going, sound.ended⟩

theorem streaming_active : EmitterState.streaming ∈ EmitterState.active := by decide

theorem transition_of_legal {dst : EmitterState} (legal : e.state.isLegalTransition dst = true) :
    e.transition dst = { e with state := dst } := by
  rw [Emitter.transition, if_pos legal]

theorem legal_of_active {state dst : EmitterState} (active : state ∈ EmitterState.active)
    (dsts : dst ∈ [.streaming, .completing]) : state.isLegalTransition dst = true :=
  (by decide : ∀ state ∈ EmitterState.active, ∀ dst ∈ [EmitterState.streaming, .completing],
    state.isLegalTransition dst = true) state active dst dsts

theorem Sound.of_frame (sound : Sound e events) (going : e.completedEmitted = false)
    (begun : e.state ≠ .init) {e' : Emitter} {more : List WireEvent}
    (ledger : Ledger e' (events ++ more))
    (unended : .ends ∉ (events ++ more).map WireEvent.lifecycle)
    (state : e'.state ∈ EmitterState.active) (completed : e'.completedEmitted = false) :
    Sound e' (events ++ more) where
  ledger := ledger
  created := by
    have first := sound.created
    rw [if_neg begun] at first
    obtain ⟨first, head, name⟩ := first
    rw [if_neg fun init => by rw [init] at state; exact absurd state (by decide)]
    exact ⟨first, head?_append_of_some head, name⟩
  going _ := ⟨unended, .inr state⟩
  ended ends := by rw [completed] at ends; cases ends

theorem ends_snoc {w : WireEvent} (before : .ends ∉ events.map WireEvent.lifecycle)
    (other : w.lifecycle ≠ .ends) : .ends ∉ (events ++ [w]).map WireEvent.lifecycle := by
  rw [List.map_append, List.map_singleton, List.mem_append, List.mem_singleton]
  rintro (old | now)
  · exact before old
  · exact other now.symm

theorem lifecycle_ne_ends {w : WireEvent} (other : w.event ∉ terminalEvents) :
    w.lifecycle ≠ .ends := by
  unfold WireEvent.lifecycle
  split
  · simp
  split
  · simp
  · simp

theorem ends_frame (events : List WireEvent) (e : Emitter) (event : String) (data : Fields)
    (before : .ends ∉ events.map WireEvent.lifecycle) (other : event ∉ terminalEvents) :
    .ends ∉ (events ++ [(e.frame event data).2]).map WireEvent.lifecycle :=
  ends_snoc before (lifecycle_ne_ends other)

theorem Sound.start (sound : Sound e events) : Sound e.start.1 (events ++ e.start.2) := by
  unfold Emitter.start
  split
  case isTrue _ => simpa using sound
  case isFalse init =>
    have init : e.state = .init := not_not.mp init
    have nothing : events = [] := by simpa [init] using sound.created
    have going : e.completedEmitted = false := by
      by_contra ended
      have terminal := (sound.ended (by simpa using ended)).1
      rw [init] at terminal
      exact absurd terminal (by decide)
    subst nothing
    rw [transition_of_legal (by rw [init]; rfl)]
    have first := Ledger.plain "response.created"
      [("type", .str "response.created"), ("response", .obj (e.responseObject "in_progress"))]
      (sound.ledger.congr { e with state := .created } rfl rfl rfl rfl)
      List.not_mem_nil (by decide)
    have unended := ends_frame [] { e with state := .created } "response.created"
      [("type", .str "response.created"), ("response", .obj (e.responseObject "in_progress"))]
      List.not_mem_nil (by decide)
    have second := Ledger.plain "response.in_progress"
      [("type", .str "response.in_progress"), ("response", .obj (e.responseObject "in_progress"))]
      (first.congr { e with state := .inProgress, seq := e.seq + 1 } rfl rfl rfl rfl)
      unended (by decide)
    exact ⟨second, ⟨_, rfl, rfl⟩,
      fun _ => ⟨ends_frame _ { e with state := .inProgress, seq := e.seq + 1 } _ _ unended
        (by decide), .inr List.mem_cons_self⟩,
      fun ended => absurd (ended.symm.trans going) (by decide)⟩

theorem Sound.openItem (sound : Sound e events) {item : OutputItem}
    (proper : Proper e (.openItem item)) :
    Sound (e.openItem item).1 (events ++ (e.openItem item).2) := by
  unfold Emitter.openItem
  split
  case isTrue _ => simpa using sound.refuse _
  case isFalse known =>
    obtain ⟨notOpen, notDone⟩ := not_or.mp known
    obtain ⟨begun, going, own⟩ := proper notOpen notDone
    obtain ⟨unended, active⟩ := sound.going going
    have active := active.resolve_left begun
    rw [transition_of_legal (legal_of_active active (by decide))]
    exact sound.of_frame going begun
      (sound.ledger.added unended notOpen notDone own
        { e with
          state := .streaming
          openItems := e.openItems ++ [item.id]
          announcedItems := e.announcedItems.set item.id item } rfl rfl rfl rfl "in_progress")
      (ends_frame _ _ _ _ unended (by decide)) streaming_active going

theorem Sound.closeItem (sound : Sound e events) {item : OutputItem} {status : String}
    (proper : Proper e (.closeItem item status)) :
    Sound (e.closeItem item status).1 (events ++ (e.closeItem item status).2) := by
  unfold Emitter.closeItem
  split
  case isTrue _ => simpa using sound
  case isFalse notDone =>
    split
    case isTrue _ => simpa using sound.refuse _
    case isFalse isOpen =>
      have isOpen : item.id ∈ e.openItems := not_not.mp isOpen
      have going : e.completedEmitted = false := by
        by_contra ended
        rw [(sound.ended (by simpa using ended)).2] at isOpen
        exact absurd isOpen List.not_mem_nil
      obtain ⟨unended, active⟩ := sound.going going
      have begun : e.state ≠ .init := by
        intro init
        have nothing : events = [] := by simpa [init] using sound.created
        have live := (sound.ledger.opened (.str item.id)).mpr ⟨_, rfl, .inl isOpen⟩
        rw [nothing] at live
        exact absurd live List.not_mem_nil
      exact sound.of_frame going begun
        (sound.ledger.done unended isOpen (get_id_itemWire (proper isOpen) status))
        (ends_frame _ _ _ _ unended (by decide)) (active.resolve_left begun) going

theorem Sound.delta (sound : Sound e events) {event : String} {data : Fields}
    (proper : Proper e (.delta event data)) :
    Sound (e.delta event data).1 (events ++ (e.delta event data).2) := by
  unfold Emitter.delta
  split
  case isTrue _ => simpa using sound.refuse _
  case isFalse running =>
    obtain ⟨begun, other⟩ := proper running
    have going : e.completedEmitted = false := by
      by_contra ended
      exact running (sound.ended (by simpa using ended)).1
    obtain ⟨unended, active⟩ := sound.going going
    have active := active.resolve_left begun
    rw [transition_of_legal (legal_of_active active (by decide))]
    have notTerminal : event ∉ terminalEvents := fun mem =>
      other (List.mem_append_right _ mem)
    exact sound.of_frame going begun
      (Ledger.plain event _ (sound.ledger.congr _ rfl rfl rfl rfl) unended other)
      (ends_frame _ _ _ _ unended notTerminal) streaming_active going

/-! ### The end of a response -/

theorem closeOpenItem_eq (ledger : Ledger e events) {id : String} (here : id ∈ e.openItems) :
    ∃ outputIndex wire, Fields.get wire "id" = some (.str id)
      ∧ e.closeOpenItem id
        = (e.settle id).itemFrame "response.output_item.done" outputIndex wire := by
  obtain ⟨item, found, rfl, own⟩ := ledger.announced id here
  refine ⟨item.outputIndex, Emitter.itemWire item "incomplete", get_id_itemWire own _, ?_⟩
  rw [Emitter.closeOpenItem, found]

theorem Ledger.closeOpenItems {ids : List String} (ledger : Ledger e events)
    (nodup : ids.Nodup) (inside : ∀ id ∈ ids, id ∈ e.openItems)
    (going : .ends ∉ events.map WireEvent.lifecycle) :
    Ledger (e.closeOpenItems ids).1 (events ++ (e.closeOpenItems ids).2)
      ∧ .ends ∉ (events ++ (e.closeOpenItems ids).2).map WireEvent.lifecycle
      ∧ (∀ id, id ∈ (e.closeOpenItems ids).1.openItems ↔ id ∈ e.openItems ∧ id ∉ ids)
      ∧ (e.closeOpenItems ids).1.state = e.state := by
  induction ids generalizing e events with
  | nil => exact ⟨by simpa [Emitter.closeOpenItems] using ledger,
      by simpa [Emitter.closeOpenItems] using going, by simp [Emitter.closeOpenItems], rfl⟩
  | cons id ids ih =>
      obtain ⟨notAgain, nodup⟩ := List.nodup_cons.mp nodup
      have here : id ∈ e.openItems := inside id List.mem_cons_self
      obtain ⟨outputIndex, wire, own, closes⟩ := closeOpenItem_eq ledger here
      have opens : (e.closeOpenItem id).1.openItems = e.openItems.filter (· ≠ id) := by
        rw [closes]
        rfl
      have after : Ledger (e.closeOpenItem id).1 (events ++ [(e.closeOpenItem id).2]) := by
        rw [closes]
        exact ledger.done going here own
      have next := ih after nodup
        (fun j mem => by
          rw [opens]
          refine List.mem_filter.mpr ⟨inside j (List.mem_cons_of_mem _ mem), ?_⟩
          exact decide_eq_true fun same => notAgain (same ▸ mem))
        (by rw [closes]; exact ends_frame _ _ _ _ going (by decide))
      have whole : e.closeOpenItems (id :: ids)
          = (((e.closeOpenItem id).1.closeOpenItems ids).1,
            (e.closeOpenItem id).2 :: ((e.closeOpenItem id).1.closeOpenItems ids).2) := rfl
      rw [whole]
      simp only [List.append_assoc, List.singleton_append] at next
      refine ⟨next.1, next.2.1, fun j => ?_, ?_⟩
      · rw [next.2.2.1 j, opens, List.mem_filter, List.mem_cons, decide_eq_true_iff]
        tauto
      · rw [next.2.2.2, closes]
        rfl

theorem Ledger.final (ledger : Ledger e events) (going : .ends ∉ events.map WireEvent.lifecycle)
    (closed : e.openItems = []) (status : ResponseStatus) (data : Fields) :
    Ledger (e.frame ("response." ++ status.value) data).1
      (events ++ [(e.frame ("response." ++ status.value) data).2]) := by
  by_cases terminal : "response." ++ status.value ∈ terminalEvents
  case neg =>
    apply ledger.plain _ _ going
    cases status
    all_goals first
      | exact absurd (by decide) terminal
      | decide
  have ends : (e.frame ("response." ++ status.value) data).2.lifecycle = .ends := by
    cases status
    all_goals first
      | exact absurd terminal (by decide)
      | rfl
  refine ⟨numbered_frame _ _ ledger, count_frame _ _ ledger, ?_, ?_, ?_, ledger.apart,
    ledger.nodup, ledger.announced⟩
  · rw [List.map_append, List.map_singleton, ends, lawful_snoc]
    refine ⟨ledger.lawful, going, by simp, by simp [Act.needed?], by simp, ?_⟩
    intro _ k opened
    obtain ⟨id, same, here⟩ := (ledger.opened k).mp opened
    rw [closed] at here
    exact (ledger.closed k).mpr ⟨id, same, here.resolve_left List.not_mem_nil⟩
  · intro k
    rw [List.map_append, List.map_singleton, ends]
    have before : .opens k ∈ events.map WireEvent.lifecycle ++ [Act.ends]
        ↔ .opens k ∈ events.map WireEvent.lifecycle := by simp
    exact before.trans (ledger.opened k)
  · intro k
    rw [List.map_append, List.map_singleton, ends]
    have before : .closes k ∈ events.map WireEvent.lifecycle ++ [Act.ends]
        ↔ .closes k ∈ events.map WireEvent.lifecycle := by simp
    exact before.trans (ledger.closed k)

theorem Sound.terminate (env : EmitterEnv) (sound : Sound e events) {status : ResponseStatus}
    {reason : String} {details error : Fields}
    (proper : Proper e (.terminate status reason details error)) :
    Sound (e.terminate env status reason details error).1
      (events ++ (e.terminate env status reason details error).2) := by
  unfold Emitter.terminate
  split
  case isTrue _ => simpa using sound
  case isFalse unended =>
    have going : e.completedEmitted = false := by simpa using unended
    have begun := proper going
    obtain ⟨unended, active⟩ := sound.going going
    have active := active.resolve_left begun
    have first := sound.created
    rw [if_neg begun] at first
    obtain ⟨first, head, name⟩ := first
    rw [transition_of_legal (legal_of_active active (by decide))]
    have order := env.setOrder.perm e.openItems
    have ledger : Ledger { e with state := .completing } events :=
      sound.ledger.congr _ rfl rfl rfl rfl
    have closes := ledger.closeOpenItems (order.nodup_iff.mpr sound.ledger.nodup)
      (fun id mem => order.mem_iff.mp mem) unended
    dsimp only
    generalize Emitter.closeOpenItems { e with state := .completing }
      (env.setOrder.order e.openItems) = closed at closes ⊢
    obtain ⟨closing, unended, left, state⟩ := closes
    have empty : closed.1.openItems = [] := by
      apply List.eq_nil_iff_forall_not_mem.mpr
      intro id mem
      have := (left id).mp mem
      exact this.2 (order.mem_iff.mpr this.1)
    have final := closing.final unended empty status
      [("type", .str ("response." ++ status.value)),
        ("response", .obj (closed.1.terminalObject env status reason details error))]
    have legal : closed.1.state.isLegalTransition status.emitterState = true := by
      rw [state]
      cases status <;> rfl
    set sent := closed.1.responseFrame ("response." ++ status.value)
      (Emitter.terminalObject env closed.1 status reason details error)
    have moves : Emitter.transition { sent.1 with completedEmitted := true } status.emitterState
        = { sent.1 with completedEmitted := true, state := status.emitterState } :=
      transition_of_legal legal
    rw [moves, ← List.append_assoc]
    have notInit : status.emitterState ≠ .init := by cases status <;> decide
    refine ⟨final.congr _ rfl rfl rfl rfl, ?_, fun going => ?_, fun _ => ⟨?_, empty⟩⟩
    · rw [if_neg notInit]
      rw [List.append_assoc]
      exact ⟨first, head?_append_of_some head, name⟩
    · cases going
    · show status.emitterState ∈ EmitterState.terminal
      cases status <;> decide

theorem eventsOf_append (written more : List Written) :
    eventsOf (written ++ more) = eventsOf written ++ eventsOf more :=
  List.filterMap_append

theorem eventsOf_map (events : List WireEvent) : eventsOf (events.map .event) = events := by
  unfold eventsOf
  rw [List.filterMap_map]
  exact List.filterMap_some

theorem sound_step (env : EmitterEnv) {r : EmitterRun} {call : EmitterCall}
    (sound : Sound r.emitter (eventsOf r.written)) (proper : Proper r.emitter call) :
    Sound (r.step env call).emitter (eventsOf (r.step env call).written) := by
  unfold EmitterRun.step
  rw [eventsOf_append]
  cases call with
  | start => exact (eventsOf_map _).symm ▸ sound.start
  | openItem item => exact (eventsOf_map _).symm ▸ sound.openItem proper
  | closeItem item status => exact (eventsOf_map _).symm ▸ sound.closeItem proper
  | delta event data => exact (eventsOf_map _).symm ▸ sound.delta proper
  | terminate status reason details error =>
      exact (eventsOf_map _).symm ▸ sound.terminate env proper
  | heartbeat => simpa [Emitter.emit, eventsOf] using sound

theorem sound_fresh (responseId model : String) (createdAt : ℤ) :
    Sound (.fresh responseId model createdAt) [] where
  ledger :=
    { numbered := rfl
      count := rfl
      lawful := .nil
      opened := by simp [Emitter.fresh]
      closed := by simp [Emitter.fresh]
      apart := fun _ mem => absurd mem List.not_mem_nil
      nodup := List.nodup_nil
      announced := fun _ mem => absurd mem List.not_mem_nil }
  created := if_pos rfl ▸ rfl
  going _ := ⟨List.not_mem_nil, .inl rfl⟩
  ended ends := by cases ends

theorem Sound.wellFormed {r : EmitterRun} (sound : Sound r.emitter (eventsOf r.written)) :
    WellFormedOutput r.written where
  numbered := by rw [sound.ledger.numbered, sound.ledger.count]
  created_first := by
    intro w first
    have created := sound.created
    split at created
    case isTrue _ =>
      rw [created] at first
      cases first
    case isFalse _ =>
      obtain ⟨w', head, name⟩ := created
      rw [head] at first
      cases first
      exact name
  lawful := sound.ledger.lawful

/-- **A run of proper calls writes a well-formed stream**, whatever the order of the calls. -/
theorem wellFormed_of_proper (env : EmitterEnv) (responseId model : String) (createdAt : ℤ)
    (calls : List EmitterCall)
    (proper : Along (EmitterRun.step env) (fun r => Proper r.emitter)
      ⟨.fresh responseId model createdAt, []⟩ calls) :
    WellFormedOutput
      (runSchedule (EmitterRun.step env) ⟨.fresh responseId model createdAt, []⟩ calls).written :=
  Sound.wellFormed (runSchedule_of_along
    (fun r : EmitterRun => Sound r.emitter (eventsOf r.written))
    (fun _ _ sound proper => sound_step env sound proper)
    (sound_fresh responseId model createdAt) proper)

/-- An environment with sets in insertion order. -/
def insertionOrder : EmitterEnv := ⟨⟨id, fun _ => .refl _⟩, id⟩

/-- A message. -/
def greetingItem : OutputItem where
  id := "msg_1"
  outputIndex := 0
  itemType := .message
  role := "assistant"

/-- A message that is left open when the response is terminated. -/
def leftOpen : List EmitterCall :=
  [.start, .heartbeat, .openItem greetingItem, .delta "response.output_text.delta"
    [("item_id", .str "msg_1"), ("delta", .str "Hi")], .terminate .failed "upstream_error" [] []]

instance (e : Emitter) (call : EmitterCall) : Decidable (Proper e call) := by
  cases call <;> unfold Proper <;> infer_instance

theorem leftOpen_wellFormed :
    WellFormedOutput
      (runSchedule (EmitterRun.step insertionOrder) ⟨.fresh "resp_1" "m" 10, []⟩
        leftOpen).written :=
  wellFormed_of_proper insertionOrder "resp_1" "m" 10 leftOpen (by decide +kernel)

/-- A message that is opened after the response was terminated. -/
def openedLate : List EmitterCall :=
  [.start, .terminate .completed "" [] [], .openItem greetingItem]

/-- The item is added although the transition is refused. -/
theorem openedLate_unlawful :
    ¬ WellFormedOutput
      (runSchedule (EmitterRun.step insertionOrder) ⟨.fresh "resp_1" "m" 10, []⟩
        openedLate).written := by
  intro law
  have acts : (eventsOf (runSchedule (EmitterRun.step insertionOrder)
      ⟨.fresh "resp_1" "m" 10, []⟩ openedLate).written).map WireEvent.lifecycle
      = [.plain, .plain] ++ .ends :: [.opens (.str "msg_1")] := by decide +kernel
  have ended := (law.lawful.ended _ _ acts).1
  exact absurd ended (by decide)

end Zhongzhuan.Protocol
