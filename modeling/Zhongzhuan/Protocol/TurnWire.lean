import Zhongzhuan.Protocol.EmitterLaw

/-!
# The law of a turn, at the emitter

`WellFormedTurn` is the law of the frames a client gets for one turn: it looks at the texts and at
the items that events refer to, which the law of `EmitterLaw` leaves out.

`Wire e past` relates an emitter to the frames it has written.  Each call that writes, in the
middle of a response, writes one frame, which is lawful exactly when its act is `Allowed`; `Sent`
says what calls wrote and which items they left.  After the end no call writes, unless it opens a
new item.
-/

namespace Zhongzhuan.Protocol

open Kit Kit.ItemStream

/-! ## The law -/

/-- A text among the fields of an event. -/
def textIn (data : Fields) (key : String) : List Char :=
  match data.get key with
  | some (.str text) => text.toList
  | _ => []

/-- What an event that refers to an item does. -/
def itemAct (event : String) (data : Fields) : Act Json Char :=
  match data.get "item_id" with
  | none => .plain
  | some k =>
    if event = "response.output_text.delta" then .adds k (textIn data "delta")
    else if event = "response.output_text.done" then .recaps k (textIn data "text")
    else .uses k

/-- What an event does. -/
def WireEvent.act (e : WireEvent) : Act Json Char :=
  if e.lifecycle = .plain then itemAct e.event e.data else e.lifecycle

theorem itemAct_ne (event : String) (data : Fields) :
    itemAct event data ≠ .ends ∧ (∀ k, itemAct event data ≠ .opens k)
      ∧ ∀ k, itemAct event data ≠ .closes k := by
  unfold itemAct
  split
  case h_1 _ => simp
  case h_2 k _ =>
    split
    case isTrue _ => simp
    case isFalse _ =>
      split
      case isTrue _ => simp
      case isFalse _ => simp

/-- An act in the life of an item or of the response. -/
def IsLife (a : Act Json Char) : Prop := a = .ends ∨ ∃ k, a = .opens k ∨ a = .closes k

theorem isLife_opens (k : Json) : IsLife (.opens k) := .inr ⟨k, .inl rfl⟩

theorem isLife_closes (k : Json) : IsLife (.closes k) := .inr ⟨k, .inr rfl⟩

theorem act_eq_iff (e : WireEvent) {a : Act Json Char} (life : IsLife a) :
    e.act = a ↔ e.lifecycle = a := by
  unfold WireEvent.act
  split
  case isTrue plain =>
    obtain ⟨ends, opens, closes⟩ := itemAct_ne e.event e.data
    rw [plain]
    rcases life with rfl | ⟨k, rfl | rfl⟩
    · simp [ends]
    · simp [opens k]
    · simp [closes k]
  case isFalse _ => exact Iff.rfl

theorem mem_acts_iff (past : List WireEvent) {a : Act Json Char} (life : IsLife a) :
    a ∈ past.map WireEvent.act ↔ a ∈ past.map WireEvent.lifecycle := by
  rw [List.mem_map, List.mem_map]
  exact exists_congr fun e => and_congr_right fun _ => act_eq_iff e life

theorem allowed_of_lifecycle {past : List WireEvent} {a : Act Json Char} (life : IsLife a)
    (allowed : Allowed (past.map WireEvent.lifecycle) a) :
    Allowed (past.map WireEvent.act) a where
  going := by
    rw [mem_acts_iff past (.inl rfl)]
    exact allowed.going
  fresh k opens := by
    rw [mem_acts_iff past (isLife_opens k)]
    exact allowed.fresh k opens
  live k needs := by
    unfold ItemStream.Live
    rw [mem_acts_iff past (isLife_opens k), mem_acts_iff past (isLife_closes k)]
    exact allowed.live k needs
  whole k text recaps := by
    rcases life with ends | ⟨j, opens | closes⟩
    · cases recaps.symm.trans ends
    · cases recaps.symm.trans opens
    · cases recaps.symm.trans closes
  all_closed ends k := by
    rw [mem_acts_iff past (isLife_opens k), mem_acts_iff past (isLife_closes k)]
    exact allowed.all_closed ends k

theorem lawful_of_lifecycle {past out : List WireEvent} (law : Lawful (past.map WireEvent.act))
    (life : ∀ w ∈ out, IsLife w.lifecycle)
    (coarse : Lawful ((past ++ out).map WireEvent.lifecycle)) :
    Lawful ((past ++ out).map WireEvent.act) := by
  induction out using List.reverseRecOn with
  | nil => simpa using law
  | append_singleton out w ih =>
      have here := life w (by simp)
      rw [← List.append_assoc, List.map_append, List.map_singleton, lawful_snoc] at coarse ⊢
      refine ⟨ih (fun v mem => life v (by simp [mem])) coarse.1, ?_⟩
      rw [(act_eq_iff w here).mpr rfl]
      exact allowed_of_lifecycle here coarse.2

/-! ## The emitter between two calls -/

variable {e : Emitter} {past : List WireEvent}

/-- An emitter and the frames it has written. -/
structure Wire (e : Emitter) (past : List WireEvent) : Prop where
  sound : Sound e past
  lawful : Lawful (past.map WireEvent.act)

/-- The response has begun and not ended. -/
structure Begun (e : Emitter) : Prop where
  going : e.completedEmitted = false
  state : e.state ≠ .init

theorem Begun.not_terminal (begun : Begun e) (sound : Sound e past) :
    e.state ∉ EmitterState.terminal := by
  have active := (sound.going begun.going).2.resolve_left begun.state
  exact (by decide : ∀ state ∈ EmitterState.active, state ∉ EmitterState.terminal) _ active

theorem Wire.opened (wire : Wire e past) (id : String) :
    .opens (.str id) ∈ past.map WireEvent.act ↔ id ∈ e.openItems ∨ id ∈ e.doneItems := by
  rw [mem_acts_iff past (isLife_opens _), wire.sound.ledger.opened]
  constructor
  · rintro ⟨_, same, here⟩
    cases same
    exact here
  · exact fun here => ⟨id, rfl, here⟩

theorem Wire.closed (wire : Wire e past) (id : String) :
    .closes (.str id) ∈ past.map WireEvent.act ↔ id ∈ e.doneItems := by
  rw [mem_acts_iff past (isLife_closes _), wire.sound.ledger.closed]
  constructor
  · rintro ⟨_, same, here⟩
    cases same
    exact here
  · exact fun here => ⟨id, rfl, here⟩

theorem Wire.live_iff (wire : Wire e past) (id : String) :
    ItemStream.Live (past.map WireEvent.act) (.str id) ↔ id ∈ e.openItems := by
  rw [← wire.sound.ledger.live_iff id]
  unfold ItemStream.Live
  rw [mem_acts_iff past (isLife_opens _), mem_acts_iff past (isLife_closes _)]

theorem Wire.unended (wire : Wire e past) (going : e.completedEmitted = false) :
    .ends ∉ past.map WireEvent.act := by
  rw [mem_acts_iff past (.inl rfl)]
  exact (wire.sound.going going).1

/-- What calls in the middle of a response wrote, and the items they left. -/
structure Sent (past : List WireEvent) (out : Emitter × List WireEvent)
    (acts : List (Act Json Char)) (opens dones : List String) : Prop where
  acts : out.2.map WireEvent.act = acts
  wire : Wire out.1 (past ++ out.2)
  begun : Begun out.1
  openItems : out.1.openItems = opens
  doneItems : out.1.doneItems = dones

theorem Sent.mem_opens {out : Emitter × List WireEvent} {acts : List (Act Json Char)}
    {opens dones : List String} (sent : Sent past out acts opens dones) {id : String}
    (here : id ∈ opens) : id ∈ out.1.openItems := by
  rw [sent.openItems]
  exact here

theorem Sent.mem_dones {out : Emitter × List WireEvent} {acts : List (Act Json Char)}
    {opens dones : List String} (sent : Sent past out acts opens dones) {id : String}
    (here : id ∈ dones) : id ∈ out.1.doneItems := by
  rw [sent.doneItems]
  exact here

theorem Sent.trans {out out' : Emitter × List WireEvent} {acts acts' : List (Act Json Char)}
    {opens dones opens' dones' : List String} (first : Sent past out acts opens dones)
    (second : Sent (past ++ out.2) out' acts' opens' dones') :
    Sent past (out'.1, out.2 ++ out'.2) (acts ++ acts') opens' dones' where
  acts := by rw [List.map_append, first.acts, second.acts]
  wire := by
    have wire := second.wire
    rwa [List.append_assoc] at wire
  begun := second.begun
  openItems := second.openItems
  doneItems := second.doneItems

theorem Sent.step {out out' : Emitter × List WireEvent} {acts acts' : List (Act Json Char)}
    {opens dones : List String} (first : Sent past out acts opens dones)
    (second : Sent (past ++ out.2) out' acts' out.1.openItems out.1.doneItems) :
    Sent past (out'.1, out.2 ++ out'.2) (acts ++ acts') opens dones := by
  rw [first.openItems, first.doneItems] at second
  exact first.trans second

theorem Sent.said {out : Emitter × List WireEvent} {acts : List (Act Json Char)}
    {opens dones : List String} (sent : Sent past out acts opens dones) (k : Json) :
    ItemStream.said k ((past ++ out.2).map WireEvent.act)
      = ItemStream.said k (past.map WireEvent.act) ++ ItemStream.said k acts := by
  rw [List.map_append, sent.acts, said_append]

/-- An item is as open and as done as it was, and as much has been said of it. -/
structure Kept (e : Emitter) (past : List WireEvent) (e' : Emitter) (past' : List WireEvent)
    (id : String) : Prop where
  opens : id ∈ e.openItems → id ∈ e'.openItems
  dones : id ∈ e.doneItems → id ∈ e'.doneItems
  said : ItemStream.said (.str id) (past'.map WireEvent.act)
    = ItemStream.said (.str id) (past.map WireEvent.act)

theorem Sent.kept {out : Emitter × List WireEvent} {acts : List (Act Json Char)}
    {opens dones : List String} (sent : Sent past out acts opens dones) {id : String}
    (opened : id ∈ e.openItems → id ∈ opens) (closed : id ∈ e.doneItems → id ∈ dones)
    (silent : ItemStream.said (.str id) acts = []) : Kept e past out.1 (past ++ out.2) id where
  opens := by rw [sent.openItems]; exact opened
  dones := by rw [sent.doneItems]; exact closed
  said := by rw [sent.said, silent, List.append_nil]

theorem Sent.kept_close {out : Emitter × List WireEvent} {acts : List (Act Json Char)}
    {closed : String}
    (sent : Sent past out acts (e.openItems.filter (· ≠ closed)) (e.doneItems ++ [closed]))
    {id : String} (other : id ≠ closed) (silent : ItemStream.said (.str id) acts = []) :
    Kept e past out.1 (past ++ out.2) id :=
  sent.kept (fun here => List.mem_filter.mpr ⟨here, decide_eq_true other⟩)
    (List.mem_append_left _) silent

theorem not_lawful_of_not_allowed {out : List WireEvent} {a : Act Json Char}
    (acts : out.map WireEvent.act = [a]) (forbidden : ¬ Allowed (past.map WireEvent.act) a) :
    ¬ Lawful ((past ++ out).map WireEvent.act) := by
  rw [List.map_append, acts, lawful_snoc]
  exact fun law => forbidden law.2

theorem not_lawful_append {out : List WireEvent}
    (unlawful : ¬ Lawful ((past ++ out).map WireEvent.act)) (more : List WireEvent) :
    ¬ Lawful ((past ++ (out ++ more)).map WireEvent.act) := by
  intro law
  rw [← List.append_assoc, List.map_append] at law
  exact unlawful law.of_append

/-! ## Deltas -/

theorem itemAct_frame (event : String) (data : Fields) (n : Json) :
    itemAct event (Fields.put "sequence_number" n (Fields.put "type" (.str event) data))
      = itemAct event data := by
  unfold itemAct textIn
  simp only [Fields.get_put_of_ne (show "item_id" ≠ "sequence_number" by decide),
    Fields.get_put_of_ne (show "item_id" ≠ "type" by decide),
    Fields.get_put_of_ne (show "delta" ≠ "sequence_number" by decide),
    Fields.get_put_of_ne (show "delta" ≠ "type" by decide),
    Fields.get_put_of_ne (show "text" ≠ "sequence_number" by decide),
    Fields.get_put_of_ne (show "text" ≠ "type" by decide)]

theorem lifecycle_plain {w : WireEvent} (other : w.event ∉ lifecycleEvents) :
    w.lifecycle = .plain := by
  have names : w.event ≠ "response.output_item.added" ∧ w.event ≠ "response.output_item.done"
      ∧ w.event ∉ terminalEvents := by
    simpa [lifecycleEvents] using other
  unfold WireEvent.lifecycle
  rw [if_neg names.1, if_neg names.2.1, if_neg names.2.2]

theorem acts_delta (running : e.state ∉ EmitterState.terminal) {event : String}
    (other : event ∉ lifecycleEvents) (data : Fields) :
    (e.delta event data).2.map WireEvent.act = [itemAct event data] := by
  unfold Emitter.delta
  rw [if_neg running, List.map_singleton]
  show [WireEvent.act ⟨event, _⟩] = _
  rw [WireEvent.act, if_pos (lifecycle_plain other), itemAct_frame]

theorem Wire.delta (wire : Wire e past) (begun : Begun e) {event : String}
    (other : event ∉ lifecycleEvents) {data : Fields}
    (allowed : Allowed (past.map WireEvent.act) (itemAct event data)) :
    Sent past (e.delta event data) [itemAct event data] e.openItems e.doneItems := by
  have running := begun.not_terminal wire.sound
  have acts := acts_delta running other data
  have sound : Sound (e.delta event data).1 (past ++ (e.delta event data).2) :=
    wire.sound.delta fun _ => ⟨begun.state, other⟩
  refine ⟨acts, ⟨sound, ?_⟩, ?_, ?_, ?_⟩
  · rw [List.map_append, acts, lawful_snoc]
    exact ⟨wire.lawful, allowed⟩
  all_goals
    unfold Emitter.delta
    rw [if_neg running, transition_of_legal
      (legal_of_active ((wire.sound.going begun.going).2.resolve_left begun.state) (by decide))]
  · exact ⟨begun.going, by simp [Emitter.frame]⟩
  · rfl
  · rfl

theorem Wire.uses (wire : Wire e past) (begun : Begun e) {id : String} (isOpen : id ∈ e.openItems)
    (event : String) (other : event ∉ lifecycleEvents)
    (plain : event ≠ "response.output_text.delta" ∧ event ≠ "response.output_text.done")
    (data : Fields) (refers : data.get "item_id" = some (.str id)) :
    Sent past (e.delta event data) [.uses (.str id)] e.openItems e.doneItems := by
  have act : itemAct event data = .uses (.str id) := by
    unfold itemAct
    rw [refers]
    dsimp only
    rw [if_neg plain.1, if_neg plain.2]
  rw [← act]
  refine wire.delta begun other ?_
  rw [act]
  refine ⟨wire.unended begun.going, by simp, ?_, by simp, by simp⟩
  intro k needs
  obtain rfl : Json.str id = k := Option.some.inj needs
  exact (wire.live_iff id).mpr isOpen

theorem Wire.adds (wire : Wire e past) (begun : Begun e) {id : String} (isOpen : id ∈ e.openItems)
    (data : Fields) (refers : data.get "item_id" = some (.str id)) :
    Sent past (e.delta "response.output_text.delta" data) [.adds (.str id) (textIn data "delta")]
      e.openItems e.doneItems := by
  have act : itemAct "response.output_text.delta" data
      = .adds (.str id) (textIn data "delta") := by
    unfold itemAct
    rw [refers]
    rfl
  rw [← act]
  refine wire.delta begun (by decide) ?_
  rw [act]
  refine ⟨wire.unended begun.going, by simp, ?_, by simp, by simp⟩
  intro k needs
  obtain rfl : Json.str id = k := Option.some.inj needs
  exact (wire.live_iff id).mpr isOpen

theorem Wire.recaps (wire : Wire e past) (begun : Begun e) {id : String}
    (isOpen : id ∈ e.openItems) (data : Fields) (refers : data.get "item_id" = some (.str id))
    (whole : textIn data "text" = ItemStream.said (.str id) (past.map WireEvent.act)) :
    Sent past (e.delta "response.output_text.done" data) [.recaps (.str id) (textIn data "text")]
      e.openItems e.doneItems := by
  have act : itemAct "response.output_text.done" data
      = .recaps (.str id) (textIn data "text") := by
    unfold itemAct
    rw [refers]
    rfl
  rw [← act]
  refine wire.delta begun (by decide) ?_
  rw [act]
  refine ⟨wire.unended begun.going, by simp, ?_, ?_, by simp⟩
  · intro k needs
    obtain rfl : Json.str id = k := Option.some.inj needs
    exact (wire.live_iff id).mpr isOpen
  · intro k text same
    obtain ⟨rfl, rfl⟩ := Act.recaps.inj same
    exact whole

theorem delta_ended (ended : e.state ∈ EmitterState.terminal) (event : String) (data : Fields) :
    ∃ label, e.delta event data = (e.refuse label, []) := by
  unfold Emitter.delta
  rw [if_pos ended]
  exact ⟨_, rfl⟩

/-! ## Items -/

theorem acts_openItem {item : OutputItem} (notOpen : item.id ∉ e.openItems)
    (notDone : item.id ∉ e.doneItems) (own : item.extra.get "id" = none) :
    (e.openItem item).2.map WireEvent.act = [.opens (.str item.id)] := by
  unfold Emitter.openItem
  rw [if_neg (not_or.mpr ⟨notOpen, notDone⟩), List.map_singleton]
  set frame := (Emitter.itemFrame _ "response.output_item.added" item.outputIndex
    (Emitter.itemWire item "in_progress")).2
  have opens : frame.lifecycle = .opens (.str item.id) := by
    have id : frame.itemId = .str item.id := by
      show ((Emitter.itemWire item "in_progress").get "id").getD .null = _
      rw [get_id_itemWire own]
      rfl
    rw [← id]
    rfl
  rw [(act_eq_iff frame (isLife_opens _)).mpr opens]

theorem Wire.openItem (wire : Wire e past) (begun : Begun e) (item : OutputItem)
    (notOpen : item.id ∉ e.openItems) (notDone : item.id ∉ e.doneItems)
    (own : item.extra.get "id" = none) :
    Sent past (e.openItem item) [.opens (.str item.id)] (e.openItems ++ [item.id])
      e.doneItems := by
  have acts := acts_openItem notOpen notDone own
  have sound : Sound (e.openItem item).1 (past ++ (e.openItem item).2) :=
    wire.sound.openItem fun _ _ => ⟨begun.state, begun.going, own⟩
  have active := (wire.sound.going begun.going).2.resolve_left begun.state
  refine ⟨acts, ⟨sound, ?_⟩, ?_, ?_, ?_⟩
  · rw [List.map_append, acts, lawful_snoc]
    refine ⟨wire.lawful, wire.unended begun.going, ?_, by simp [Act.needed?], by simp, by simp⟩
    intro k same opened
    obtain rfl : Json.str item.id = k := Act.opens.inj same
    exact ((wire.opened item.id).mp opened).elim notOpen notDone
  all_goals
    unfold Emitter.openItem
    rw [if_neg (not_or.mpr ⟨notOpen, notDone⟩),
      transition_of_legal (legal_of_active active (by decide))]
  · exact ⟨begun.going, by simp [Emitter.itemFrame, Emitter.frame]⟩
  · rfl
  · rfl

theorem Wire.closeItem (wire : Wire e past) (begun : Begun e) (item : OutputItem)
    (isOpen : item.id ∈ e.openItems) (own : item.extra.get "id" = none) (status : String) :
    Sent past (e.closeItem item status) [.closes (.str item.id)]
      (e.openItems.filter (· ≠ item.id)) (e.doneItems ++ [item.id]) := by
  have notDone := wire.sound.ledger.apart item.id isOpen
  have sound : Sound (e.closeItem item status).1 (past ++ (e.closeItem item status).2) :=
    wire.sound.closeItem fun _ => own
  have acts : (e.closeItem item status).2.map WireEvent.act = [.closes (.str item.id)] := by
    unfold Emitter.closeItem
    rw [if_neg notDone, if_neg (not_not.mpr isOpen), List.map_singleton]
    set frame := ((e.settle item.id).itemFrame "response.output_item.done" item.outputIndex
      (Emitter.itemWire item status)).2
    have closes : frame.lifecycle = .closes (.str item.id) := by
      have id : frame.itemId = .str item.id := by
        show ((Emitter.itemWire item status).get "id").getD .null = _
        rw [get_id_itemWire own]
        rfl
      rw [← id]
      rfl
    rw [(act_eq_iff frame (isLife_closes _)).mpr closes]
  refine ⟨acts, ⟨sound, ?_⟩, ?_, ?_, ?_⟩
  · rw [List.map_append, acts, lawful_snoc]
    refine ⟨wire.lawful, wire.unended begun.going, by simp, ?_, by simp, by simp⟩
    intro k needs
    obtain rfl : Json.str item.id = k := Option.some.inj needs
    exact (wire.live_iff item.id).mpr isOpen
  all_goals
    unfold Emitter.closeItem
    rw [if_neg notDone, if_neg (not_not.mpr isOpen)]
  · exact ⟨begun.going, begun.state⟩
  · rfl
  · rfl

theorem closeItem_of_not_open {item : OutputItem} (notOpen : item.id ∉ e.openItems)
    (status : String) :
    e.closeItem item status = (e, [])
      ∨ ∃ label, e.closeItem item status = (e.refuse label, []) := by
  unfold Emitter.closeItem
  split
  case isTrue _ => exact .inl rfl
  case isFalse _ => exact .inr ⟨_, rfl⟩

/-! ## The beginning and the end -/

theorem Wire.start (wire : Wire e past) (init : e.state = .init) :
    Sent past e.start [.plain, .plain] e.openItems e.doneItems := by
  have going : e.completedEmitted = false := by
    by_contra ended
    have terminal := (wire.sound.ended (by simpa using ended)).1
    rw [init] at terminal
    exact absurd terminal (by decide)
  have nothing : past = [] := by simpa [init] using wire.sound.created
  have sound := wire.sound.start
  have acts : e.start.2.map WireEvent.act = [.plain, .plain] := by
    unfold Emitter.start
    rw [if_neg (not_not.mpr init), transition_of_legal (by rw [init]; rfl)]
    rfl
  refine ⟨acts, ⟨sound, ?_⟩, ?_, ?_, ?_⟩
  · have plain : ∀ k : List (Act Json Char), .ends ∉ k → Lawful k → Lawful (k ++ [.plain]) := by
      intro k unended law
      rw [lawful_snoc]
      exact ⟨law, unended, by simp, by simp [Act.needed?], by simp, by simp⟩
    rw [List.map_append, acts, nothing]
    exact plain [.plain] (by simp) (plain [] (by simp) .nil)
  all_goals
    unfold Emitter.start
    rw [if_neg (not_not.mpr init), transition_of_legal (by rw [init]; rfl)]
  · exact ⟨going, EmitterState.noConfusion⟩
  · rfl
  · rfl

theorem completedEmitted_transition (e : Emitter) (dst : EmitterState) :
    (e.transition dst).completedEmitted = e.completedEmitted := by
  unfold Emitter.transition
  split
  case isTrue _ => rfl
  case isFalse _ => rfl

theorem lifecycle_closeOpenItems (e : Emitter) (ids : List String) :
    ∀ w ∈ (e.closeOpenItems ids).2, ∃ k, w.lifecycle = .closes k := by
  induction ids generalizing e with
  | nil => simp [Emitter.closeOpenItems]
  | cons id ids ih =>
      have first : (e.closeOpenItem id).2.event = "response.output_item.done" := by
        unfold Emitter.closeOpenItem
        split
        case h_1 _ _ => rfl
        case h_2 _ => rfl
      intro w mem
      rcases List.mem_cons.mp mem with here | later
      · refine ⟨w.itemId, ?_⟩
        rw [WireEvent.lifecycle, show w.event = _ from here ▸ first]
        rfl
      · exact ih _ w later

/-- The end of a response. -/
structure Ends (e : Emitter) (past : List WireEvent) (out : Emitter × List WireEvent) : Prop where
  wire : Wire out.1 (past ++ out.2)
  completed : out.1.completedEmitted = true
  ends : .ends ∈ out.2.map WireEvent.act
  known : ∀ id, id ∈ out.1.openItems ∨ id ∈ out.1.doneItems →
    id ∈ e.openItems ∨ id ∈ e.doneItems

theorem Wire.terminate (wire : Wire e past) (begun : Begun e) (env : EmitterEnv)
    {status : ResponseStatus} (final : status = .completed ∨ status = .incomplete)
    (reason : String) (details error : Fields) :
    Ends e past (e.terminate env status reason details error) := by
  have sound : Sound (e.terminate env status reason details error).1
      (past ++ (e.terminate env status reason details error).2) :=
    wire.sound.terminate env fun _ => begun.state
  have last : ∀ (e' : Emitter) (data : Fields),
      (e'.frame ("response." ++ status.value) data).2.lifecycle = .ends := by
    intro e' data
    rcases final with rfl | rfl <;> rfl
  have acts : ∀ w ∈ (e.terminate env status reason details error).2,
      w.lifecycle = .ends ∨ ∃ k, w.lifecycle = .closes k := by
    unfold Emitter.terminate
    rw [if_neg (by rw [begun.going]; simp)]
    intro w mem
    rcases List.mem_append.mp mem with closed | ended
    · exact .inr (lifecycle_closeOpenItems _ _ w closed)
    · rw [List.mem_singleton.mp ended]
      exact .inl (last _ _)
  have wire' : Wire (e.terminate env status reason details error).1
      (past ++ (e.terminate env status reason details error).2) :=
    ⟨sound, lawful_of_lifecycle wire.lawful
      (fun w mem => (acts w mem).imp_right fun ⟨k, closes⟩ => ⟨k, .inr closes⟩)
      sound.ledger.lawful⟩
  refine ⟨wire', ?_, ?_, fun id here => ?_⟩
  · unfold Emitter.terminate
    rw [if_neg (by rw [begun.going]; simp)]
    exact completedEmitted_transition _ _
  · unfold Emitter.terminate
    rw [if_neg (by rw [begun.going]; simp), List.map_append, List.map_singleton,
      List.mem_append, List.mem_singleton]
    exact .inr ((act_eq_iff _ (.inl rfl)).mpr (last _ _)).symm
  · -- no frame of the end opens an item
    have opened := (wire'.opened id).mpr here
    rw [List.map_append, List.mem_append] at opened
    refine (wire.opened id).mp (opened.resolve_right fun now => ?_)
    obtain ⟨w, mem, opens⟩ := List.mem_map.mp now
    rw [act_eq_iff w (isLife_opens _)] at opens
    rcases acts w mem with ends | ⟨k, closes⟩
    · cases ends.symm.trans opens
    · cases closes.symm.trans opens

theorem terminate_ended (ended : e.completedEmitted = true) (env : EmitterEnv)
    (status : ResponseStatus) (reason : String) (details error : Fields) :
    e.terminate env status reason details error = (e, []) := by
  unfold Emitter.terminate
  rw [if_pos ended]

end Zhongzhuan.Protocol
