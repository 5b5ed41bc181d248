import Zhongzhuan.Responses.ChatMessage
import Zhongzhuan.Responses.Prose

/-!
# Calls that are found by both of their keys

When every call has an id and an index of its own, the two dictionaries of the collection find
every call, and each finds nothing else: `Filed`.  Then `list_all` lists all calls
(`Filed.listAll_perm`), a fragment reaches its call by the id or by the index alone
(`Filed.get`), and a change of one call is a change of the calls with its index
(`Filed.modify_eq`).

`Pipeline.after` is the pipeline after some chunks, unless one of them raised.
-/

namespace Zhongzhuan.Responses

open Kit Protocol

/-! ## After some chunks -/

/-- The pipeline after some chunks; `none` when one of them raised. -/
def Pipeline.after (env : Env) (p : Pipeline) : List Chunk → Option Pipeline
  | [] => some p
  | c :: rest =>
    if (p.translateChunk env c).raised = none then
      (p.translateChunk env c).pipeline.after env rest
    else none

section After

variable {env : Env} {p q : Pipeline}

theorem after_append (chunks more : List Chunk) :
    p.after env (chunks ++ more) = (p.after env chunks).bind fun q => q.after env more := by
  induction chunks generalizing p with
  | nil => rfl
  | cons c rest ih =>
      rw [List.cons_append, Pipeline.after, Pipeline.after]
      split
      · exact ih
      · rfl

theorem after_concat {chunks : List Chunk} (before : p.after env chunks = some q) {c : Chunk}
    (returned : (q.translateChunk env c).raised = none) :
    p.after env (chunks ++ [c]) = some (q.translateChunk env c).pipeline := by
  rw [after_append, before, Option.bind_some, Pipeline.after, if_pos returned]
  rfl

theorem runSchedule_of_after {arrivals : List Arrival} {loop : Loop}
    (running : loop.internalError = none)
    (whole : loop.pipeline.after env (chunksOf arrivals) = some q) :
    (runSchedule (Loop.receive env) loop arrivals).internalError = none
      ∧ (runSchedule (Loop.receive env) loop arrivals).pipeline = q := by
  induction arrivals generalizing loop with
  | nil => exact ⟨running, Option.some.inj whole⟩
  | cons arrival rest ih =>
      rw [runSchedule_cons]
      cases arrival with
      | heartbeat =>
          refine ih ?_ ?_
          · unfold Loop.receive
            rw [running]
          · rw [receive_heartbeat_pipeline]
            exact whole
      | chunk c =>
          have first : (loop.pipeline.translateChunk env c).raised = none := by
            by_contra raised
            have cut : loop.pipeline.after env (c :: chunksOf rest) = none := if_neg raised
            cases cut.symm.trans whole
          obtain ⟨still, pipeline, _⟩ := receive_of_returned running first
          refine ih still ?_
          rw [pipeline, ← whole]
          exact (if_pos first).symm

theorem raises_of_after {arrivals : List Arrival} {loop : Loop}
    (running : loop.internalError = none)
    (cut : loop.pipeline.after env (chunksOf arrivals) = none) :
    ∃ message, (runSchedule (Loop.receive env) loop arrivals).internalError = some message := by
  induction arrivals generalizing loop with
  | nil => cases cut
  | cons arrival rest ih =>
      rw [runSchedule_cons]
      cases arrival with
      | heartbeat =>
          refine ih ?_ ?_
          · unfold Loop.receive
            rw [running]
          · rw [receive_heartbeat_pipeline]
            exact cut
      | chunk c =>
          cases first : (loop.pipeline.translateChunk env c).raised with
          | none =>
              obtain ⟨still, pipeline, _⟩ := receive_of_returned running first
              refine ih still ?_
              rw [pipeline, ← cut]
              exact (if_pos first).symm
          | some message =>
              have ended : (loop.receive env (.chunk c)).internalError = some message := by
                simp only [Loop.receive, running, first]
              rw [runSchedule_of_raised ended]
              exact ⟨message, ended⟩

end After

/-! ## The two dictionaries -/

/-- Every call is found by its id and by its index, and by nothing else. -/
structure Filed (tools : ToolCallCollection) : Prop where
  named : ∀ acc ∈ tools.accs, acc.callId ≠ ""
  byId : ∀ id ref, tools.byCallId.get? id = some ref
    ↔ ∃ acc, tools.accs[ref]? = some acc ∧ acc.callId = id
  bySource : ∀ index ref, tools.bySourceIndex.get? index = some ref
    ↔ ∃ acc, tools.accs[ref]? = some acc ∧ acc.sourceIndex = index

namespace Filed

variable {tools : ToolCallCollection} {ref : ℕ} {acc : ToolCallAccumulator} {id : String}

theorem fresh (responseId : String) : Filed { responseId := responseId } := by
  refine ⟨nofun, fun id ref => ?_, fun index ref => ?_⟩
  · simp
  · simp

theorem listAll_perm (h : Filed tools) : tools.listAll.Perm tools.accs := by
  refine ToolCallCollection.listAll_perm fun r => ?_
  rw [ToolCallCollection.mem_refs]
  constructor
  · rintro (⟨id, found⟩ | ⟨index, found⟩)
    · obtain ⟨acc, held, _⟩ := (h.byId id r).mp found
      exact (List.getElem?_eq_some_iff.mp held).1
    · obtain ⟨acc, held, _⟩ := (h.bySource index r).mp found
      exact (List.getElem?_eq_some_iff.mp held).1
  · intro low
    exact .inl ⟨_, (h.byId _ r).mpr ⟨_, List.getElem?_eq_getElem low, rfl⟩⟩

theorem get (h : Filed tools) (held : tools.accs[ref]? = some acc)
    (same : id = "" ∨ id = acc.callId) : tools.get id (some acc.sourceIndex) = some ref := by
  have source := (h.bySource acc.sourceIndex ref).mpr ⟨acc, held, rfl⟩
  unfold ToolCallCollection.get
  rcases same with rfl | rfl
  · rw [if_pos rfl]
    exact source
  · rw [if_neg (h.named acc (List.mem_of_getElem? held)),
      (h.byId acc.callId ref).mpr ⟨acc, held, rfl⟩]

theorem get_none (h : Filed tools) {index : ℤ} (other : ∀ acc ∈ tools.accs, acc.callId ≠ id)
    (elsewhere : ∀ acc ∈ tools.accs, acc.sourceIndex ≠ index) :
    tools.get id (some index) = none := by
  have byId : tools.byCallId.get? id = none := by
    cases found : tools.byCallId.get? id with
    | none => rfl
    | some r =>
        obtain ⟨acc, held, same⟩ := (h.byId id r).mp found
        exact absurd same (other acc (List.mem_of_getElem? held))
  have bySource : tools.bySourceIndex.get? index = none := by
    cases found : tools.bySourceIndex.get? index with
    | none => rfl
    | some r =>
        obtain ⟨acc, held, same⟩ := (h.bySource index r).mp found
        exact absurd same (elsewhere acc (List.mem_of_getElem? held))
  unfold ToolCallCollection.get
  rw [byId, ite_self]
  exact bySource

theorem modify_eq (h : Filed tools) (held : tools.accs[ref]? = some acc)
    (f : ToolCallAccumulator → ToolCallAccumulator) :
    tools.accs.modify ref f
      = tools.accs.map fun a => if a.sourceIndex = acc.sourceIndex then f a else a := by
  refine List.ext_getElem? fun r => ?_
  rw [List.getElem?_modify, List.getElem?_map]
  cases found : tools.accs[r]? with
  | none => rfl
  | some a =>
      have here : ref = r ↔ a.sourceIndex = acc.sourceIndex := by
        constructor
        · rintro rfl
          rw [Option.some.inj (found.symm.trans held)]
        · intro same
          have first := (h.bySource acc.sourceIndex ref).mpr ⟨acc, held, rfl⟩
          have second := (h.bySource acc.sourceIndex r).mpr ⟨a, found, same⟩
          exact Option.some.inj (first.symm.trans second)
      simp only [here, Option.map_eq_map, Option.map_some]

theorem modify (h : Filed tools) {tools' : ToolCallCollection}
    {f : ToolCallAccumulator → ToolCallAccumulator} (accs : tools'.accs = tools.accs.modify ref f)
    (ids : ∀ id, tools'.byCallId.get? id = tools.byCallId.get? id)
    (sources : tools'.bySourceIndex = tools.bySourceIndex)
    (id : ∀ acc, tools.accs[ref]? = some acc → (f acc).callId = acc.callId)
    (source : ∀ acc, (f acc).sourceIndex = acc.sourceIndex) : Filed tools' := by
  have object : ∀ r (P : ToolCallAccumulator → Prop),
      (∀ acc, tools.accs[r]? = some acc → (P acc ↔ P (if ref = r then f acc else acc))) →
        ((∃ acc, tools'.accs[r]? = some acc ∧ P acc)
          ↔ ∃ acc, tools.accs[r]? = some acc ∧ P acc) := by
    intro r P same
    rw [accs, List.getElem?_modify]
    cases held : tools.accs[r]? with
    | none => rfl
    | some acc =>
        simp only [Option.map_eq_map, Option.map_some, Option.some.injEq, exists_eq_left']
        exact (same acc held).symm
  refine ⟨fun acc mem => ?_, fun i r => ?_, fun index r => ?_⟩
  · obtain ⟨r, held⟩ := List.mem_iff_getElem?.mp mem
    rw [accs, List.getElem?_modify] at held
    obtain ⟨old, here, rfl⟩ := Option.map_eq_some_iff.mp held
    have nonempty := h.named old (List.mem_of_getElem? here)
    by_cases same : ref = r
    · subst same
      rw [if_pos rfl, id old here]
      exact nonempty
    · rw [if_neg same]
      exact nonempty
  · rw [ids, h.byId]
    refine (object r (fun acc => acc.callId = i) fun acc held => ?_).symm
    by_cases same : ref = r
    · subst same
      rw [if_pos rfl, id acc held]
    · rw [if_neg same]
  · rw [sources, h.bySource]
    refine (object r (fun acc => acc.sourceIndex = index) fun acc held => ?_).symm
    by_cases same : ref = r
    · rw [if_pos same, source]
    · rw [if_neg same]

theorem create (h : Filed tools) {tools' : ToolCallCollection}
    (accs : tools'.accs = tools.accs ++ [acc])
    (ids : tools'.byCallId = tools.byCallId.set acc.callId tools.accs.length)
    (sources : tools'.bySourceIndex = tools.bySourceIndex.set acc.sourceIndex tools.accs.length)
    (named : acc.callId ≠ "") (other : ∀ old ∈ tools.accs, old.callId ≠ acc.callId)
    (elsewhere : ∀ old ∈ tools.accs, old.sourceIndex ≠ acc.sourceIndex) : Filed tools' := by
  have object : ∀ r a, tools'.accs[r]? = some a
      ↔ tools.accs[r]? = some a ∨ r = tools.accs.length ∧ a = acc := by
    intro r a
    rw [accs, List.getElem?_append]
    split
    case isTrue low => simp [Nat.ne_of_lt low]
    case isFalse high =>
      have none : tools.accs[r]? = none := List.getElem?_eq_none (Nat.le_of_not_lt high)
      rw [none, List.getElem?_singleton]
      constructor
      · intro found
        split at found
        case isTrue zero => exact .inr ⟨by omega, (Option.some.inj found).symm⟩
        case isFalse _ => cases found
      · rintro (absent | ⟨rfl, rfl⟩)
        · cases absent
        · simp
  refine ⟨fun a mem => ?_, fun i r => ?_, fun index r => ?_⟩
  · rw [accs, List.mem_append, List.mem_singleton] at mem
    rcases mem with old | rfl
    · exact h.named a old
    · exact named
  · rw [ids, Dict.get?_set]
    simp only [object]
    constructor
    · intro found
      split at found
      case isTrue same =>
        cases found
        exact ⟨acc, .inr ⟨rfl, rfl⟩, same.symm⟩
      case isFalse _ =>
        obtain ⟨a, held, same⟩ := (h.byId i r).mp found
        exact ⟨a, .inl held, same⟩
    · rintro ⟨a, held | ⟨rfl, rfl⟩, rfl⟩
      · rw [if_neg (other a (List.mem_of_getElem? held))]
        exact (h.byId _ r).mpr ⟨a, held, rfl⟩
      · rw [if_pos rfl]
  · rw [sources, Dict.get?_set]
    simp only [object]
    constructor
    · intro found
      split at found
      case isTrue same =>
        cases found
        exact ⟨acc, .inr ⟨rfl, rfl⟩, same.symm⟩
      case isFalse _ =>
        obtain ⟨a, held, same⟩ := (h.bySource index r).mp found
        exact ⟨a, .inl held, same⟩
    · rintro ⟨a, held | ⟨rfl, rfl⟩, rfl⟩
      · rw [if_neg (elsewhere a (List.mem_of_getElem? held))]
        exact (h.bySource _ r).mpr ⟨a, held, rfl⟩
      · rw [if_pos rfl]

end Filed

end Zhongzhuan.Responses
