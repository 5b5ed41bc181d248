import Mathlib
import Zhongzhuan.Responses.ChatSignals
import Zhongzhuan.Responses.SpecialCalls

/-!
# Special calls from a Chat Completions upstream

A Chat Completions upstream sends the id and the name of a call with its first delta only, and
the adapter passes every delta on as it came.

* `CallSent` is what an upstream sends that makes such a call, between the deltas of any other
  calls; `CallSent.chunks` is what the adapter makes of it.
* `specialCall_synthesised_iff`: the call comes out as one item with all of its arguments,
  and none of its fragments is answered like an ordinary one, exactly when the upstream sends
  it in a single delta.  A later delta has no name, so the pipeline takes it for an ordinary
  call.
-/

namespace Zhongzhuan.Responses

open Kit Protocol

variable {env : Env} {callId : String}

/-! ## What the adapter makes of the call -/

/-- A signal that is not of the call with this index and id. -/
def Signal.Other (index : ℤ) (callId : String) : Signal → Prop
  | .call i id _ _ => i ≠ index ∧ id ≠ callId
  | .text _ | .reasoning _ | .stop => True

/-- A later delta of the call: it carries the index and a fragment, nothing else. -/
def Signal.Continues (index : ℤ) (signal : Signal) : Prop :=
  ∃ fragment, signal = .call index "" "" fragment

/-- The fragment a signal has for the call with this index. -/
def Signal.fragment (index : ℤ) : Signal → Option String
  | .call i _ _ arguments => if i = index then some arguments else none
  | _ => none

/-- The text of a signal. -/
def Signal.text? : Signal → Option String
  | .text delta => some delta
  | _ => none

/-- What an upstream sends that makes the call `callId` under `index`: id and name come with
the first delta only, and everything between, before and after belongs to other calls. -/
structure CallSent (index : ℤ) (callId name : String) where
  before : List Signal
  first : String
  between : List Signal
  after : List Signal
  named : callId ≠ ""
  before_other : ∀ s ∈ before, s ≠ .stop ∧ s.Other index callId
  between_sound : ∀ s ∈ between, s ≠ .stop ∧ (s.Continues index ∨ s.Other index callId)
  after_other : ∀ s ∈ after, s.Other index callId

namespace CallSent

variable {index : ℤ} {name : String} (sent : CallSent index callId name)

/-- Everything the upstream says. -/
def signals : List Signal :=
  sent.before ++ .call index callId name sent.first :: (sent.between ++ .stop :: sent.after)

/-- All fragments of the call, in order. -/
def fragments : List String := sent.first :: sent.between.filterMap (Signal.fragment index)

/-- The text of the answer up to the finish. -/
def texts : List String := (sent.before ++ sent.between).filterMap Signal.text?

/-- The call consists of its first delta. -/
def Single : Prop := ∀ s ∈ sent.between, ¬ s.Continues index

end CallSent

/-! ### The books before the finish -/

/-- The adapter while the call may be open: nothing is closed, and no other index has the id. -/
structure Books (index : ℤ) (callId : String) (a : Adapter) : Prop where
  going : a.finished = false
  none_closed : a.closedTools = []
  elsewhere : ∀ i, i ≠ index → a.openTools.get? i ≠ some callId

/-- A signal that does not carry the id, unless it continues the call. -/
def Signal.Apart (index : ℤ) (callId : String) (s : Signal) : Prop :=
  s ≠ .stop ∧ (s.Continues index ∨ s.Other index callId)

section Accept

variable {index : ℤ} {a : Adapter} {s : Signal}

theorem Signal.Apart.books (apart : s.Apart index callId) (named : callId ≠ "")
    (h : Books index callId a) : Books index callId (a.accept s).1 := by
  cases s with
  | text delta => exact h
  | reasoning delta => exact h
  | stop => exact absurd rfl apart.1
  | call i id name arguments =>
      have track : a.trackTool i id
          = { a with
              openTools := a.openTools.set i
                (if id = "" then (a.openTools.get? i).getD "" else id) } := by
        simp [Adapter.trackTool, h.none_closed]
      refine ⟨?_, ?_, fun j elsewhere => ?_⟩
      · rw [Adapter.accept, track]
        exact h.going
      · rw [Adapter.accept, track]
        exact h.none_closed
      · rw [Adapter.accept, track]
        dsimp only
        rw [Dict.get?_set]
        split
        case isFalse _ => exact h.elsewhere j elsewhere
        case isTrue here =>
          subst here
          intro stored
          rcases apart.2 with ⟨fragment, same⟩ | other
          · cases same
            exact elsewhere rfl
          · have known := h.elsewhere j elsewhere
            split at stored
            · cases held : a.openTools.get? j with
              | none => exact named (by simpa [held] using stored.symm)
              | some old => exact known (by simpa [held] using stored)
            · exact other.2 (Option.some.inj stored)

theorem Signal.Apart.foreign (apart : s.Apart index callId) (named : callId ≠ "") :
    ∀ c ∈ (a.accept s).2, c.Foreign callId := by
  cases s with
  | text delta => simp [Adapter.accept, Chunk.Foreign]
  | reasoning delta => simp [Adapter.accept, Chunk.Foreign]
  | stop => exact absurd rfl apart.1
  | call i id name arguments =>
      have other : id ≠ callId := by
        rcases apart.2 with ⟨fragment, same⟩ | other
        · cases same
          exact Ne.symm named
        · exact other.2
      simp [Adapter.accept, Chunk.Foreign, other]

theorem Signal.Apart.keeps (apart : s.Apart index callId) (h : Books index callId a)
    (here : a.openTools.get? index = some callId) :
    (a.accept s).1.openTools.get? index = some callId := by
  cases s with
  | text delta => exact here
  | reasoning delta => exact here
  | stop => exact absurd rfl apart.1
  | call i id name arguments =>
      simp only [Adapter.accept, Adapter.trackTool, h.none_closed, List.not_mem_nil, if_false]
      rw [Dict.get?_set]
      split
      case isFalse _ => exact here
      case isTrue same =>
        rcases apart.2 with ⟨fragment, isLater⟩ | other
        · cases isLater
          simp [here]
        · exact absurd same.symm other.1

theorem acceptAll_apart (named : callId ≠ "") {signals : List Signal} {a : Adapter}
    (apart : ∀ s ∈ signals, s.Apart index callId) (h : Books index callId a) :
    Books index callId (a.acceptAll signals).1
      ∧ (∀ c ∈ (a.acceptAll signals).2, c.Foreign callId)
      ∧ (a.openTools.get? index = some callId →
          (a.acceptAll signals).1.openTools.get? index = some callId) := by
  induction signals generalizing a with
  | nil => exact ⟨h, nofun, id⟩
  | cons s rest ih =>
      have first := apart s (List.mem_cons_self ..)
      obtain ⟨books, foreign, keeps⟩ :=
        ih (fun s' mem => apart s' (List.mem_cons_of_mem _ mem)) (first.books named h)
      refine ⟨books, fun c mem => ?_, fun here => keeps (first.keeps h here)⟩
      rcases List.mem_append.mp mem with now | later
      · exact first.foreign named c now
      · exact foreign c later

theorem acceptAll_finished {signals : List Signal} {a : Adapter}
    (other : ∀ s ∈ signals, s.Other index callId) (finished : a.finished = true) :
    ∀ c ∈ (a.acceptAll signals).2, c.Foreign callId := by
  induction signals generalizing a with
  | nil => exact nofun
  | cons s rest ih =>
      have step : (a.accept s).1.finished = true
          ∧ ∀ c ∈ (a.accept s).2, c.Foreign callId := by
        cases s with
        | text delta => exact ⟨finished, by simp [Adapter.accept, Chunk.Foreign]⟩
        | reasoning delta => exact ⟨finished, by simp [Adapter.accept, Chunk.Foreign]⟩
        | stop => simp [Adapter.accept, Adapter.finish, finished]
        | call i id name arguments =>
            have apart := (other _ (List.mem_cons_self ..)).2
            refine ⟨?_, by simpa [Adapter.accept, Chunk.Foreign] using apart⟩
            simp only [Adapter.accept, Adapter.trackTool]
            split <;> exact finished
      intro c mem
      rcases List.mem_append.mp mem with now | later
      · exact step.2 c now
      · exact ih (fun s' mem' => other s' (List.mem_cons_of_mem _ mem')) step.1 c later

/-- The terminator of an open call. -/
def Adapter.terminator (a : Adapter) (i : ℤ) : Chunk :=
  .toolCallDone ((a.openTools.get? i).getD "") "" (some i)

theorem closeTools_chunks {indexes : List ℤ} {a : Adapter} (nodup : indexes.Nodup)
    (unclosed : ∀ i ∈ indexes, i ∉ a.closedTools)
    (opened : ∀ i ∈ indexes, (a.openTools.get? i).isSome) :
    (a.closeTools indexes).2 = indexes.map a.terminator := by
  induction indexes generalizing a with
  | nil => rfl
  | cons i rest ih =>
      obtain ⟨fresh, nodup⟩ := List.nodup_cons.mp nodup
      obtain ⟨id, held⟩ := Option.isSome_iff_exists.mp (opened i (List.mem_cons_self ..))
      have close : a.closeTool i
          = ({ a with
                openTools := a.openTools.erase i
                closedTools := a.closedTools ++ [i] },
              [.toolCallDone id "" (some i)]) := by
        simp [Adapter.closeTool, unclosed i (List.mem_cons_self ..), held]
      have apart : ∀ j ∈ rest, j ≠ i := fun j mem same => fresh (same ▸ mem)
      have more := ih (a := (a.closeTool i).1) nodup
        (fun j mem => by simp [close, unclosed j (List.mem_cons_of_mem _ mem), apart j mem])
        (fun j mem => by
          simp [close, Dict.get?_erase_of_ne _ (apart j mem),
            opened j (List.mem_cons_of_mem _ mem)])
      have now : a.terminator i = .toolCallDone id "" (some i) := by
        simp [Adapter.terminator, held]
      rw [Adapter.closeTools, more, List.map_cons, close, now]
      refine congrArg (_ :: ·) (List.map_congr_left fun j mem => ?_)
      simp [Adapter.terminator, Dict.get?_erase_of_ne _ (apart j mem)]

theorem finish_chunks (named : callId ≠ "") {a : Adapter} (h : Books index callId a)
    (here : a.openTools.get? index = some callId) :
    ∃ others more : List ℤ,
      a.finish.2 = others.map a.terminator
        ++ .toolCallDone callId "" (some index) :: (more.map a.terminator ++ [.finish])
      ∧ (∀ i ∈ others, (a.terminator i).Foreign callId)
      ∧ (∀ i ∈ more, (a.terminator i).Foreign callId)
      ∧ a.finish.1.finished = true := by
  have mem : index ∈ a.openTools.keys := Dict.mem_keys.mpr (by rw [here]; rfl)
  obtain ⟨first, rest, split⟩ := List.append_of_mem mem
  have nodup : a.openTools.keys.Nodup := a.openTools.nodup
  have chunks := closeTools_chunks (a := { a with finished := true }) nodup
    (fun i _ => by simp [h.none_closed]) (fun i mem => Dict.mem_keys.mp mem)
  have finish : a.finish = (({ a with finished := true }.closeTools a.openTools.keys).1,
      ({ a with finished := true }.closeTools a.openTools.keys).2 ++ [.finish]) := by
    simp [Adapter.finish, h.going, Adapter.closeAllTools]
  rw [split] at nodup
  obtain ⟨_, last, disjoint⟩ := List.nodup_append.mp nodup
  have foreign : ∀ i, i ≠ index → (a.terminator i).Foreign callId := by
    intro i elsewhere same
    have known := h.elsewhere i elsewhere
    cases held : a.openTools.get? i with
    | none => exact named (by simpa [held] using same.symm)
    | some id => exact known (by simpa [held] using same)
  have own : a.terminator index = .toolCallDone callId "" (some index) := by
    simp [Adapter.terminator, here]
  refine ⟨first, rest, ?_, fun i inside => ?_, fun i inside => ?_, ?_⟩
  · rw [finish, chunks, split, List.map_append, List.map_cons, List.append_assoc, ← own]
    rfl
  · exact foreign i (disjoint i inside index (List.mem_cons_self ..))
  · exact foreign i fun same => (List.nodup_cons.mp last).1 (same ▸ inside)
  · rw [finish]
    exact closeTools_finished _ _

/-- A chunk that is no fragment of the call with this index. -/
def Chunk.Elsewhere (index : ℤ) (c : Chunk) : Prop :=
  ∀ id name fragment nameSpace, c ≠ .toolCall id name fragment nameSpace (some index)

theorem acceptAll_elsewhere {signals : List Signal} {a : Adapter}
    (other : ∀ s ∈ signals, s.Other index callId) :
    ∀ c ∈ (a.acceptAll signals).2, c.Elsewhere index := by
  induction signals generalizing a with
  | nil => exact nofun
  | cons s rest ih =>
      intro c mem
      rcases List.mem_append.mp mem with now | later
      · have apart := other s (List.mem_cons_self ..)
        cases s with
        | text delta =>
            obtain rfl := List.mem_singleton.mp now
            exact nofun
        | reasoning delta =>
            obtain rfl := List.mem_singleton.mp now
            exact nofun
        | stop =>
            rcases finish_kinds a c now with rfl | ⟨id, i, rfl⟩ <;> exact nofun
        | call i id name arguments =>
            obtain rfl := List.mem_singleton.mp now
            intro id' name' fragment nameSpace same
            cases same
            exact apart.1 rfl
      · exact ih (fun s' mem' => other s' (List.mem_cons_of_mem _ mem')) c later

theorem flatMap_messageText_eq_nil {chunks : List Chunk}
    (kinds : ∀ c ∈ chunks, c = .finish ∨ ∃ id i, c = .toolCallDone id "" (some i)) :
    chunks.flatMap Chunk.messageText = [] := by
  rw [List.flatMap_eq_nil_iff]
  intro c mem
  rcases kinds c mem with rfl | ⟨id, i, rfl⟩ <;> rfl

theorem acceptAll_texts (a : Adapter) (signals : List Signal) :
    (a.acceptAll signals).2.flatMap Chunk.messageText = signals.filterMap Signal.text? := by
  induction signals generalizing a with
  | nil => rfl
  | cons s rest ih =>
      rw [Adapter.acceptAll, List.flatMap_append, ih, List.filterMap_cons]
      cases s with
      | stop =>
          show a.finish.2.flatMap Chunk.messageText ++ _ = _
          rw [flatMap_messageText_eq_nil (finish_kinds a)]
          rfl
      | _ => rfl

end Accept

/-! ## The call from the upstream to the client -/

theorem split_arrivals {arrivals : List Arrival} {chunks more : List Chunk} {c : Chunk}
    (split : chunksOf arrivals = chunks ++ c :: more) :
    ∃ before after, arrivals = before ++ .chunk c :: after
      ∧ chunksOf before = chunks ∧ chunksOf after = more := by
  obtain ⟨front, back, rfl, isFront, isBack⟩ := List.filterMap_eq_append_iff.mp split
  obtain ⟨quiet, arrival, after, rfl, silent, isChunk, isAfter⟩ :=
    List.filterMap_eq_cons_iff.mp isBack
  have same : arrival = .chunk c := by
    cases arrival with
    | chunk c' => exact congrArg Arrival.chunk (Option.some.inj isChunk)
    | heartbeat => cases isChunk
  refine ⟨front ++ quiet, after, by rw [same, List.append_assoc], ?_, isAfter⟩
  unfold chunksOf
  rw [List.filterMap_append, isFront, List.filterMap_eq_nil_iff.mpr silent, List.append_nil]

variable {index : ℤ} {name : String}

/-- **What a special call should become**: one item for its id, with the concatenation of its
fragments as arguments before any patch, and no ordinary function call or argument delta
for any of its fragments. -/
structure Synthesised (env : Env) (p : Pipeline) (arrivals : List Arrival) (ending : Ending)
    (sent : CallSent index callId name) (kind : SpecialKind) (bare : String) : Prop where
  one_item : ∃ item settled,
    specialItems callId (run env p arrivals ending).events = [item]
      ∧ settledArguments env kind bare sent.texts (String.join sent.fragments) = .ok settled
      ∧ item.get "arguments" = some (.str settled)
  fragments_silent : ∀ before id name fragment nameSpace after,
    arrivals = before ++ .chunk (.toolCall id name fragment nameSpace (some index)) :: after →
    ∀ e ∈ ((runSchedule (Loop.receive env) (startLoop env p) before).pipeline.translateChunk env
        (.toolCall id name fragment nameSpace (some index))).emitted,
      e.type ≠ .outputItemAdded ∧ e.type ≠ .functionCallArgumentsDelta

theorem CallSent.chunks (sent : CallSent index callId name) :
    ∃ before between others more after : List Chunk,
      (({} : Adapter).acceptAll sent.signals).2
        = before ++ .toolCall callId name sent.first "" (some index)
          :: (between ++ others ++ .toolCallDone callId "" (some index) :: (more ++ after))
      ∧ (∀ c ∈ before, c.Foreign callId ∧ c.Elsewhere index)
      ∧ (∀ c ∈ between, c.Foreign callId)
      ∧ (∀ c ∈ others ++ more, c.Foreign callId ∧ c.Elsewhere index)
      ∧ (∀ c ∈ after, c.Foreign callId ∧ c.Elsewhere index)
      ∧ (∃ a : Adapter, between = (a.acceptAll sent.between).2)
      ∧ before.flatMap Chunk.messageText ++ (between ++ others).flatMap Chunk.messageText
          = sent.texts := by
  -- the adapter after each part of the stream
  let a₁ := (({} : Adapter).acceptAll sent.before).1
  let a₂ := a₁.trackTool index callId
  let a₃ := (a₂.acceptAll sent.between).1
  have fresh : Books index callId {} := ⟨rfl, rfl, by simp⟩
  obtain ⟨books₁, foreign₁, _⟩ := acceptAll_apart sent.named
    (fun s mem => ⟨(sent.before_other s mem).1, .inr (sent.before_other s mem).2⟩) fresh
  have track : a₂ = { a₁ with openTools := a₁.openTools.set index callId } := by
    simp [a₂, Adapter.trackTool, a₁, books₁.none_closed, sent.named]
  have books₂ : Books index callId a₂ := by
    rw [track]
    refine ⟨books₁.going, books₁.none_closed, fun i elsewhere => ?_⟩
    dsimp only
    rw [Dict.get?_set_of_ne _ _ elsewhere]
    exact books₁.elsewhere i elsewhere
  have here₂ : a₂.openTools.get? index = some callId := by
    rw [track]
    exact Dict.get?_set_self _ _ _
  obtain ⟨books₃, foreign₃, keeps⟩ := acceptAll_apart sent.named sent.between_sound books₂
  obtain ⟨others, more, finish, othersForeign, moreForeign, finished⟩ :=
    finish_chunks sent.named books₃ (keeps here₂)
  have terminates : ∀ i, (a₃.terminator i).Elsewhere index := by
    intro i id name fragment nameSpace
    simp [Adapter.terminator]
  refine ⟨(({} : Adapter).acceptAll sent.before).2, (a₂.acceptAll sent.between).2,
    others.map a₃.terminator, more.map a₃.terminator ++ [.finish],
    (a₃.finish.1.acceptAll sent.after).2, ?_, fun c mem => ?_, foreign₃, fun c mem => ?_,
    fun c mem => ?_, ⟨a₂, rfl⟩, ?_⟩
  · rw [CallSent.signals, Adapter.acceptAll_append]
    simp only [Adapter.acceptAll, Adapter.accept, Adapter.acceptAll_append]
    show _ ++ (_ :: ((a₂.acceptAll sent.between).2 ++ (a₃.finish.2 ++ _))) = _
    rw [finish]
    simp only [List.append_assoc, List.cons_append, List.nil_append]
    rfl
  · exact ⟨foreign₁ c mem,
      acceptAll_elsewhere (fun s mem' => (sent.before_other s mem').2) c mem⟩
  · rcases List.mem_append.mp mem with inside | inside
    · obtain ⟨i, held, rfl⟩ := List.mem_map.mp inside
      exact ⟨othersForeign i held, terminates i⟩
    · rcases List.mem_append.mp inside with inside | last
      · obtain ⟨i, held, rfl⟩ := List.mem_map.mp inside
        exact ⟨moreForeign i held, terminates i⟩
      · obtain rfl := List.mem_singleton.mp last
        exact ⟨trivial, fun id name fragment nameSpace => by simp⟩
  · exact ⟨acceptAll_finished sent.after_other finished c mem,
      acceptAll_elsewhere sent.after_other c mem⟩
  · have quiet : (others.map a₃.terminator).flatMap Chunk.messageText = [] :=
      flatMap_messageText_eq_nil fun c mem => by
        obtain ⟨i, _, rfl⟩ := List.mem_map.mp mem
        exact .inr ⟨_, i, rfl⟩
    rw [List.flatMap_append, quiet, List.append_nil, acceptAll_texts, acceptAll_texts,
      CallSent.texts, List.filterMap_append]

theorem specialKind_of_unnamed (env : Env) : Pipeline.specialKind env "" "" = none := by
  unfold Pipeline.specialKind
  rw [if_neg (by simp [toolSearchName])]
  split
  · rfl
  · have unnamed : Pipeline.multiAgentName "" "" = none := by decide
    rw [unnamed]
    rfl

/-- **A special call of a Chat Completions upstream** is synthesised as it should be exactly
when the upstream sends it in a single delta: every later delta comes without a name and
without an id, and the pipeline takes it for a fragment of an ordinary call. -/
theorem specialCall_synthesised_iff (env : Env) (reliable : Reliable env) (upstream : AdapterEnv)
    (chat : upstream.dialect = .openai) (sent : CallSent index callId name)
    {kind : SpecialKind} {bare : String}
    (special : Pipeline.specialKind env name "" = some (kind, bare))
    (frames : List SseFrame) (said : Says upstream frames sent.signals) (p : Pipeline)
    (arrivals : List Arrival)
    (fed : chunksOf arrivals = (runSchedule (Adapting.frame upstream) {} frames).yielded)
    (ending : Ending) :
    Synthesised env p arrivals ending sent kind bare ↔ sent.Single := by
  obtain ⟨usage, adapted⟩ := frames_eq_accept upstream chat said {} rfl
  obtain ⟨before, between, others, more, after, chunks, beforeForeign, betweenForeign,
    doneForeign, afterForeign, ⟨a, isBetween⟩, texts⟩ := sent.chunks
  rw [adapted] at fed
  simp only [List.nil_append] at fed
  rw [chunks] at fed
  obtain ⟨opening, rest, rfl, isOpening, isRest⟩ := split_arrivals fed
  have opened := ((startLoop_watch env p callId).run_foreign reliable opening (by
    rw [isOpening]
    exact fun c mem => (beforeForeign c mem).1)).first sent.first (some index) special
  constructor
  · -- a later delta is answered by an argument delta
    intro synthesised s mem continues
    obtain ⟨fragment, rfl⟩ := continues
    obtain ⟨sooner, later, isSplit⟩ := List.append_of_mem mem
    have fragments : between = (a.acceptAll sooner).2
        ++ .toolCall "" "" fragment "" (some index)
          :: (((a.acceptAll sooner).1.trackTool index "").acceptAll later).2 := by
      rw [isBetween, isSplit, Adapter.acceptAll_append]
      rfl
    rw [fragments, List.append_assoc, List.append_assoc, List.cons_append] at isRest
    obtain ⟨middle, remains, rfl, isMiddle, _⟩ := split_arrivals isRest
    have watched := opened.run_foreign reliable middle (by
      rw [isMiddle]
      intro c mem'
      refine betweenForeign c ?_
      rw [fragments]
      exact List.mem_append_left _ mem')
    obtain ⟨e, emitted, type⟩ :=
      translateToolCall_answered watched.calls "" "" fragment (some index)
    refine (synthesised.fragments_silent
      (opening ++ .chunk (.toolCall callId name sent.first "" (some index)) :: middle)
      "" "" fragment "" remains (by simp) e ?_).2 type
    rw [runSchedule_append, runSchedule_cons,
      Pipeline.translateChunk_of_ordinary (specialKind_of_unnamed env)]
    exact emitted
  · intro single
    have betweenOther : ∀ s ∈ sent.between, s.Other index callId := fun s mem =>
      (sent.between_sound s mem).2.resolve_left (single s mem)
    have fragments : String.join sent.fragments = sent.first := by
      have none : sent.between.filterMap (Signal.fragment index) = [] := by
        refine List.filterMap_eq_nil_iff.mpr fun s mem => ?_
        have other := betweenOther s mem
        cases s with
        | call i id name arguments => exact if_neg other.1
        | _ => rfl
      rw [CallSent.fragments, none]
      simp
    obtain ⟨middle, remains, rfl, isMiddle, isRemains⟩ := split_arrivals isRest
    have waited := opened.run_foreign reliable middle (by
      rw [isMiddle]
      intro c mem
      rcases List.mem_append.mp mem with inside | inside
      · exact betweenForeign c inside
      · exact (doneForeign c (List.mem_append_left _ inside)).1)
    rw [isOpening, isMiddle, List.nil_append, texts] at waited
    obtain ⟨item, settled, isSettled, arguments, ended⟩ :=
      waited.last reliable (some index) special
    have beyond := ended.run_foreign reliable remains (by
      rw [isRemains]
      intro c mem
      rcases List.mem_append.mp mem with inside | inside
      · exact (doneForeign c (List.mem_append_right _ inside)).1
      · exact (afterForeign c inside).1)
    refine ⟨⟨item, settled, ?_, ?_, arguments⟩, ?_⟩
    · rw [specialItems_run, runSchedule_append, runSchedule_cons, runSchedule_append,
        runSchedule_cons]
      exact beyond.items
    · rw [fragments]
      exact isSettled
    · -- the first delta is the only chunk with this index
      intro sooner id name' fragment nameSpace later split e emitted
      have absent : ∀ {arrivals : List Arrival}, (∀ c ∈ chunksOf arrivals, c.Elsewhere index) →
          .chunk (.toolCall id name' fragment nameSpace (some index)) ∉ arrivals := by
        intro arrivals elsewhere mem
        exact elsewhere _ (List.mem_filterMap.mpr ⟨_, mem, rfl⟩) _ _ _ _ rfl
      have here := (List.append_cons_inj_of_notMem
        (absent (by rw [isOpening]; exact fun c mem => (beforeForeign c mem).2))
        (absent (by
          rw [isRest]
          intro c mem
          rcases List.mem_append.mp mem with inside | inside
          · rcases List.mem_append.mp inside with inside | inside
            · exact acceptAll_elsewhere betweenOther c (isBetween ▸ inside)
            · exact (doneForeign c (List.mem_append_left _ inside)).2
          · rcases List.mem_cons.mp inside with rfl | inside
            · exact nofun
            · rcases List.mem_append.mp inside with inside | inside
              · exact (doneForeign c (List.mem_append_right _ inside)).2
              · exact (afterForeign c inside).2))).mp split
      obtain ⟨rfl, isFirst, _⟩ := here
      cases isFirst
      rw [Pipeline.translateChunk_of_special special] at emitted
      cases emitted

/-! ## Two upstreams -/

/-- A Chat Completions payload with one entry in `tool_calls`. -/
def callPayload (entry : Fields) : Fields :=
  [("choices", .arr [.obj [("delta", .obj [("tool_calls", .arr [.obj entry])])]])]

/-- The first delta of a `tool_search` call. -/
def searchDelta (arguments : String) : Fields :=
  callPayload [("index", .int 0), ("id", .str "call_1"),
    ("function", .obj [("name", .str "tool_search"), ("arguments", .str arguments)])]

/-- A later delta. -/
def laterDelta (arguments : String) : Fields :=
  callPayload [("index", .int 0), ("function", .obj [("arguments", .str arguments)])]

/-- An adapter whose `json.loads` reads back what `json.dumps` wrote. -/
def chatReading (payloads : List Fields) : AdapterEnv where
  dialect := .openai
  loads := fun text =>
    match payloads.find? fun payload => dumps (.obj payload) = text with
    | some payload => .value (.obj payload)
    | none => .rejected
  intOfText := fun _ => none
  intOfFloat := fun _ => .ok none
  strOf := fun v => dumps v

/-- The frame of a payload. -/
def frameOf (payload : Fields) : SseFrame :=
  { event := none, data := dumps (.obj payload), id := none, retry := none, raw := [] }

/-- The frame of the sentinel. -/
def doneFrame : SseFrame :=
  { event := none, data := "[DONE]", id := none, retry := none, raw := [] }

/-- A pipeline that knows `tool_search`. -/
def searchEnv : Env := { plainEnv with toolSearchEnabled := true }

theorem searchEnv_reliable : Reliable searchEnv where
  loads := plainEnv_reliable.loads
  handle := nofun

/-- The call in one delta. -/
def wholeSearch : CallSent 0 "call_1" "tool_search" where
  before := []
  first := "\x7b\x7d"
  between := []
  after := []
  named := by decide
  before_other := nofun
  between_sound := nofun
  after_other := nofun

/-- The same call in two deltas. -/
def splitSearch : CallSent 0 "call_1" "tool_search" where
  before := []
  first := "\x7b"
  between := [.call 0 "" "" "\x7d"]
  after := []
  named := by decide
  before_other := nofun
  between_sound := fun s mem => by
    obtain rfl := List.mem_singleton.mp mem
    exact ⟨nofun, .inl ⟨_, rfl⟩⟩
  after_other := nofun

/-- What the adapter yields for the call in one delta. -/
def wholeArrivals : List Arrival :=
  [.chunk (.toolCall "call_1" "tool_search" "\x7b\x7d" "" (some 0)), .heartbeat,
    .chunk (.toolCallDone "call_1" "" (some 0)), .chunk .finish]

theorem wholeSearch_synthesised :
    Synthesised searchEnv (.fresh searchEnv) wholeArrivals .upstreamEnd wholeSearch .toolSearch
      "tool_search" :=
  (specialCall_synthesised_iff searchEnv searchEnv_reliable
    (chatReading [searchDelta "\x7b\x7d"]) rfl wholeSearch (by decide)
    [frameOf (searchDelta "\x7b\x7d"), doneFrame]
    ⟨[([.call 0 "call_1" "tool_search" "\x7b\x7d"], []), ([.stop], [])], by decide +kernel, rfl⟩
    (.fresh searchEnv) wholeArrivals (by decide +kernel) .upstreamEnd).mpr nofun

/-- What the adapter yields for the call in two deltas. -/
def splitArrivals : List Arrival :=
  [.chunk (.toolCall "call_1" "tool_search" "\x7b" "" (some 0)),
    .chunk (.toolCall "" "" "\x7d" "" (some 0)),
    .chunk (.toolCallDone "call_1" "" (some 0)), .chunk .finish]

/-- The second delta becomes an ordinary function call, and the synthesised item has only the
arguments of the first. -/
theorem splitSearch_not_synthesised :
    Says (chatReading [searchDelta "\x7b", laterDelta "\x7d"])
        [frameOf (searchDelta "\x7b"), frameOf (laterDelta "\x7d"), doneFrame]
        splitSearch.signals
      ∧ chunksOf splitArrivals
        = (runSchedule
            (Adapting.frame (chatReading [searchDelta "\x7b", laterDelta "\x7d"])) {}
            [frameOf (searchDelta "\x7b"), frameOf (laterDelta "\x7d"), doneFrame]).yielded
      ∧ ¬ Synthesised searchEnv (.fresh searchEnv) splitArrivals .upstreamEnd splitSearch
          .toolSearch "tool_search" := by
  refine ⟨⟨[([.call 0 "call_1" "tool_search" "\x7b"], []), ([.call 0 "" "" "\x7d"], []),
    ([.stop], [])], by decide +kernel, rfl⟩, by decide +kernel, fun h => ?_⟩
  have silent := h.fragments_silent
    [.chunk (.toolCall "call_1" "tool_search" "\x7b" "" (some 0))] "" "" "\x7d" "" _ rfl
  revert silent
  decide +kernel

end Zhongzhuan.Responses
