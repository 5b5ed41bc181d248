import Zhongzhuan.Proxy.CreateRow

/-!
# Creates whose upstreams all answer nothing

An upstream that answers 200 without content is no success: the next key is tried, and when
there is none left the client gets the error `empty_upstream_response`.  The streaming create
does so.  The non-stream create tries the next key as well, but after the last one it takes the
status 200 of the last answer for a success.

* `StreamRound.Empty` and `NonstreamRound.Empty` say that a round meets an empty answer, or that
  its call cannot be made for a reason of the proxy's own.
* `stream_of_empty`: the streaming create answers 502.
* `empty_creates_agree_iff`: the non-stream create agrees exactly if its last call was not made
  and no fallback candidate serves the request.
-/

namespace Zhongzhuan.Proxy

open Kit Store

/-! ## The streaming create -/

section Stream

variable {Frame : Type} {streaming : StreamConfig Frame} {prep : V3CreateContext}
  {c : V3Candidates} {score : ℕ → Candidate → ℚ} {meets : ℕ → StreamRound Frame}

/-- The stream ends well, and no frame of it has content. -/
def UpstreamStream.Empty (streaming : StreamConfig Frame) (stream : UpstreamStream Frame) : Prop :=
  (∀ event ∈ stream.events, ∃ frame, event = some frame ∧ streaming.hasContent frame = false)
    ∧ stream.terminalReason = none

/-- The upstream answers 200 and an empty stream, or is not called. -/
inductive StreamRound.Empty (streaming : StreamConfig Frame) : StreamRound Frame → Prop
  | answered (r : UpstreamAnswer Frame) (second : Opening Frame) (ok : r.statusCode = 200)
      (empty : r.stream.Empty streaming) :
      StreamRound.Empty streaming { first := .answered r, second := second }
  | notCalled (e : CallError) (second : Opening Frame) :
      StreamRound.Empty streaming { first := .callError e, second := second }

theorem passFrames_of_empty (hasContent : Frame → Bool) {p : Passed Frame}
    {events : List (Option Frame)} (open' : p.committed = false)
    (empty : ∀ event ∈ events, ∃ frame, event = some frame ∧ hasContent frame = false) :
    (passFrames hasContent p events).committed = false
      ∧ (passFrames hasContent p events).clientGone = p.clientGone := by
  induction events generalizing p with
  | nil => exact ⟨open', rfl⟩
  | cons event events ih =>
      obtain ⟨⟨frame, rfl, silent⟩, rest⟩ := List.forall_mem_cons.mp empty
      rw [passFrames, if_neg (by simp [open'])]
      dsimp only
      rw [if_neg (by simp [silent])]
      exact ih open' rest

/-- The local variables while all answers are empty. -/
structure NothingHeard (st : StreamState Frame) : Prop where
  truncated : st.lastTruncated = none
  reason : st.lastReason = none
  status : st.lastUpstreamStatus = 0
  body : st.lastUpstreamBody = []

variable (prep) in
theorem streamRound_of_empty {i : ℕ} {st : StreamState Frame} {d : RouteDecision}
    (heard : NothingHeard st) (empty : (meets i).Empty streaming)
    (picked : c.selectRetryKey (score i) st.tried = some d) :
    ∃ st', streamRound streaming prep c score meets i st = .next st' ∧ NothingHeard st' := by
  unfold streamRound
  rw [picked]
  dsimp only
  generalize meets i = round at empty
  cases empty with
  | answered r second ok silent =>
      have passed := passFrames_of_empty streaming.hasContent
        (p := { committed := false, clientGone := false, buf := [], written := [] }) rfl silent.1
      have first : ¬ 400 ≤ r.statusCode := by omega
      have consumed : ∀ st : StreamState Frame, consumeStream streaming prep st r.stream
          = .next st := by
        intro st
        unfold consumeStream
        dsimp only
        rw [if_neg (by simp [UpstreamStream.passed, passed.2]),
          if_neg (by simp [UpstreamStream.passed, passed.1]), silent.2]
      simp only [openUpstream, openOnce, first, if_false, afterOpening, consumed]
      exact ⟨_, rfl, heard.truncated, heard.reason, heard.status, heard.body⟩
  | notCalled e second =>
      cases e <;> exact ⟨_, rfl, heard.truncated, heard.reason, heard.status, heard.body⟩

/-- The client gets the error for an empty answer, and the row is failed. -/
structure AnswersEmptyError (served : Served Frame) : Prop where
  status : served.answer.status = 502
  code : ∃ error, served.answer.body = .json [("error", .obj error)]
    ∧ Fields.get error "code" = some (.str "empty_upstream_response")
  row : ∀ row, served.row = some row → row.status = .failed

theorem stream_of_empty (empty : ∀ i, (meets i).Empty streaming) :
    AnswersEmptyError (dispatchV3CreateStream streaming prep c score meets) := by
  have failed : ∀ st : StreamState Frame, NothingHeard st →
      AnswersEmptyError (allKeysFailed streaming prep st) := by
    intro st heard
    have after : allKeysFailed streaming prep st
        = { answer := { status := 502, body := .json (emptyUpstreamResponse st) }
            row := prep.persistV3StreamTerminal .failed
              (st.lastReason.getD .upstreamError).value []
            attempts := st.attempts
            gaveUp := true } := by
      simp [allKeysFailed, heard.truncated, heard.body]
    rw [after]
    refine ⟨rfl, ⟨_, rfl, ?_⟩, ?_⟩
    · simp [emptyUpstreamResponse, heard.reason, Fields.get, List.lookup]
    · exact fun row written => status_of_persist written
  have run := rounds_rule (streamRound streaming prep c score meets) 0 c.maxSwitches
    (.init Frame) (fun _ => NothingHeard) NothingHeard (fun _ => False) ?_ ?_ ?_
    (fun _ heard => heard) ⟨rfl, rfl, rfl, rfl⟩
  · unfold dispatchV3CreateStream
    revert run
    cases rounds (streamRound streaming prep c score meets) c.maxSwitches 0 (.init Frame) with
    | inl st => exact failed st
    | inr served => exact False.elim
  · intro i st st' _ _ heard on
    obtain ⟨d, picked, -⟩ := streamRound_next on
    obtain ⟨st'', on', heard'⟩ := streamRound_of_empty prep heard (empty i) picked
    obtain rfl : st' = st'' := by simpa [on] using on'
    exact heard'
  · intro i st st' _ _ heard off
    obtain ⟨-, rfl⟩ := streamRound_stop off
    exact heard
  · intro i st served _ _ heard out
    obtain ⟨d, picked, -⟩ := streamRound_answer out
    obtain ⟨st'', on, -⟩ := streamRound_of_empty prep heard (empty i) picked
    simp [out] at on

end Stream

/-! ## The non-stream create -/

variable {cfg : NonstreamConfig} {prep : V3CreateContext} {c : V3Candidates}
  {score : ℕ → Candidate → ℚ} {comesTo : ℕ → NonstreamRound}

/-- The upstream answers 200 with a body that is empty or no JSON, or is not called. -/
def RunResult.Empty (cfg : NonstreamConfig) (r : RunResult) : Prop :=
  (∃ e : CallError, r = e.result)
    ∨ r.statusCode = 200
      ∧ ∀ v, cfg.parsed r.payload = some v → responseIsEmpty (bodyShape v) v = some true

/-- Neither call of the round has content. -/
def NonstreamRound.Empty (cfg : NonstreamConfig) (r : NonstreamRound) : Prop :=
  r.call.Empty cfg ∧ r.stringified.Empty cfg

theorem NonstreamRound.Empty.result {r : NonstreamRound} (empty : r.Empty cfg) :
    (r.result cfg).Empty cfg := by
  unfold NonstreamRound.result
  split
  · exact empty.2
  · exact empty.1

theorem error_of_callError (e : CallError) : 400 ≤ e.result.statusCode := by
  cases e <;> decide

theorem NonstreamRound.Empty.raises {r : NonstreamRound} (empty : r.Empty cfg) :
    r.raises cfg = false := by
  unfold NonstreamRound.raises NonstreamRound.examined
  rcases empty.1 with ⟨e, same⟩ | ⟨ok, silent⟩
  · have error := error_of_callError e
    rw [← same] at error
    simp [error]
  · cases parsed : cfg.parsed r.call.payload with
    | none => simp
    | some v => simp [silent v parsed]

theorem mem_of_endingRound {rounds : List NonstreamRound} {r : NonstreamRound}
    (ending : endingRound cfg rounds = some r) : r ∈ rounds := by
  induction rounds with
  | nil => simp [endingRound] at ending
  | cons first rounds ih =>
      unfold endingRound at ending
      split at ending
      · rcases Option.or_eq_some_iff.mp ending with later | ⟨-, here⟩
        · exact List.mem_cons_of_mem first (ih later)
        · obtain rfl := Option.some.inj here
          exact List.mem_cons_self
      · obtain rfl := Option.some.inj ending
        exact List.mem_cons_self

theorem exists_of_mem_roundsMet {n i : ℕ} {tried : Finset ℕ} {r : NonstreamRound}
    (mem : r ∈ roundsMet c score comesTo n i tried) : ∃ j, r = comesTo j := by
  induction n generalizing i tried with
  | zero => simp [roundsMet] at mem
  | succ n ih =>
      unfold roundsMet at mem
      split at mem
      · simp at mem
      · rcases List.mem_cons.mp mem with rfl | later
        · exact ⟨i, rfl⟩
        · exact ih later

variable (cfg c score comesTo) in
theorem exists_lastRound : ∃ j, lastRound cfg c score comesTo = comesTo j := by
  obtain ⟨r, ending⟩ := exists_endingRound cfg c score comesTo
  unfold lastRound
  rw [ending]
  exact exists_of_mem_roundsMet (mem_of_endingRound ending)

/-- The client gets an error, and the row is not completed. -/
structure RefusesEmpty (served : NonstreamServed) : Prop where
  answer : ∃ answer, served.answer = some answer ∧ 400 ≤ answer.status
  row : ∀ row, served.row = some row → row.status ≠ .completed

theorem not_refuses_finishCreate (respObj : Fields) :
    ¬ RefusesEmpty (finishCreate cfg prep respObj) := by
  rintro ⟨⟨answer, given, error⟩, -⟩
  unfold finishCreate at given
  dsimp only at given
  split at given
  · obtain rfl := Option.some.inj given
    simp at error
  · simp at given

theorem refuses_afterLoop (fallback : List RunResult) (r : RunResult) :
    RefusesEmpty (afterNonstreamLoop cfg prep fallback (some r))
      ↔ 400 ≤ (r.afterFallback cfg fallback).statusCode := by
  unfold afterNonstreamLoop
  dsimp only
  split
  case isTrue error =>
    refine iff_of_true ⟨⟨_, rfl, error⟩, ?_⟩ error
    intro row written
    unfold V3CreateContext.skeleton at written
    split at written
    · obtain rfl := Option.some.inj written
      simp
    · simp at written
  case isFalse fine =>
    refine iff_of_false ?_ fine
    split
    · exact not_refuses_finishCreate _
    · exact not_refuses_finishCreate _
    · rintro ⟨⟨answer, given, error⟩, -⟩
      obtain rfl := Option.some.inj given
      simp at error

theorem error_afterFallback_iff (fallback : List RunResult) (r : RunResult) :
    400 ≤ (r.afterFallback cfg fallback).statusCode
      ↔ 400 ≤ r.statusCode ∧ ∀ f ∈ fallback, f.serves cfg = false := by
  unfold RunResult.afterFallback
  split
  case isFalse fine => simp [fine]
  case isTrue error =>
    cases found : fallback.find? (RunResult.serves cfg) with
    | none => simpa [error] using List.find?_eq_none.mp found
    | some f =>
        have served := List.find?_some found
        have mem := List.mem_of_find?_eq_some found
        have ok : f.statusCode = 200 := by
          simp only [RunResult.serves, Bool.and_eq_true, decide_eq_true_eq] at served
          exact served.1
        refine iff_of_false (by simp [ok]) ?_
        rintro ⟨-, none'⟩
        simp [none' f mem] at served

/-- The two creates agree that a request with empty answers only has not succeeded. -/
def CreatesAgree {Frame : Type} (streamed : Served Frame) (served : NonstreamServed) : Prop :=
  AnswersEmptyError streamed ∧ RefusesEmpty served

/-- **When every upstream answers nothing**, the streaming create reports an empty answer, and
the non-stream create agrees exactly if the last call it makes is refused before it reaches an
upstream and no fallback candidate serves the request. -/
theorem empty_creates_agree_iff {Frame : Type} (streaming : StreamConfig Frame)
    (cfg : NonstreamConfig) (prep : V3CreateContext) (c : V3Candidates)
    (score : ℕ → Candidate → ℚ) (meets : ℕ → StreamRound Frame) (comesTo : ℕ → NonstreamRound)
    (fallback : List RunResult) (emptyStream : ∀ i, (meets i).Empty streaming)
    (empty : ∀ i, (comesTo i).Empty cfg) :
    CreatesAgree (dispatchV3CreateStream streaming prep c score meets)
        (dispatchV3Create cfg prep c score comesTo fallback)
      ↔ (∃ e : CallError, (lastRound cfg c score comesTo).result cfg = e.result)
        ∧ ∀ f ∈ fallback, f.serves cfg = false := by
  obtain ⟨j, last⟩ := exists_lastRound cfg c score comesTo
  have silent : (lastRound cfg c score comesTo).Empty cfg := last ▸ empty j
  have reaches : 400 ≤ ((lastRound cfg c score comesTo).result cfg).statusCode
      ↔ ∃ e : CallError, (lastRound cfg c score comesTo).result cfg = e.result := by
    constructor
    · intro error
      rcases silent.result with called | ⟨ok, -⟩
      · exact called
      · omega
    · rintro ⟨e, same⟩
      rw [same]
      exact error_of_callError e
  rw [dispatchV3Create_eq, silent.raises, ← reaches, ← error_afterFallback_iff]
  simp only [Bool.false_eq_true, if_false, CreatesAgree, stream_of_empty emptyStream, true_and]
  exact refuses_afterLoop fallback _

/-- An upstream that answers a streaming create with 200 and nothing else. -/
def emptyStreamRound : StreamRound String where
  first := .answered
    { statusCode := 200
      errorBody := []
      effortStripped := false
      retryable := false
      stream :=
        { events := []
          state := .ended .completed
          terminalReason := none
          output := [] } }
  second := .nothing

theorem emptyStreamRound_empty : emptyStreamRound.Empty plainFrames :=
  .answered _ _ rfl ⟨by simp, rfl⟩

/-- The bytes of an object whose only field is an empty array of `choices`. -/
def noChoicesBody : Bytes := [123, 34, 99, 104, 111, 105, 99, 101, 115, 34, 58, 91, 93, 125]

/-- A parser that knows the completion without choices. -/
def noChoices : NonstreamConfig where
  loads := fun payload =>
    if payload = noChoicesBody then some (.obj [("choices", .arr [])]) else none
  int := fun _ => some 0
  postprocess := id

/-- A call that the window of its key does not let through. -/
def refusedRound : NonstreamRound :=
  { call := CallError.windowFull.result, stringified := CallError.windowFull.result }

theorem refusedRound_empty : refusedRound.Empty noChoices := ⟨.inl ⟨_, rfl⟩, .inl ⟨_, rfl⟩⟩

/-- With its only call refused, the non-stream create agrees with the streaming one. -/
theorem refused_creates_agree :
    CreatesAgree
      (dispatchV3CreateStream plainFrames plainCreate oneKey evenScore fun _ => emptyStreamRound)
      (dispatchV3Create noChoices plainCreate oneKey evenScore (fun _ => refusedRound) []) :=
  (empty_creates_agree_iff plainFrames noChoices plainCreate oneKey evenScore
    (fun _ => emptyStreamRound) (fun _ => refusedRound) [] (fun _ => emptyStreamRound_empty)
    fun _ => refusedRound_empty).mpr ⟨⟨.windowFull, by decide +kernel⟩, by simp⟩

/-- The only upstream answers 200 without choices: the streaming create reports 502, the
non-stream create hands on a completed response. -/
theorem emptyAnswer_completed :
    let served := dispatchV3Create noChoices plainCreate oneKey evenScore
      (fun _ =>
        { call := { statusCode := 200, payload := noChoicesBody }
          stringified := { statusCode := 200, payload := [] } }) []
    let streamed := dispatchV3CreateStream plainFrames plainCreate oneKey evenScore
      fun _ => emptyStreamRound
    served.answer.map Answer.status = some 200
      ∧ served.row.map ResponseRow.status = some .completed
      ∧ streamed.answer.status = 502 ∧ ¬ CreatesAgree streamed served := by
  intro served streamed
  have completed : served.row.map ResponseRow.status = some .completed := by decide +kernel
  refine ⟨by decide +kernel, completed, by decide +kernel, ?_⟩
  rintro ⟨-, refuses⟩
  obtain ⟨row, written, status⟩ := Option.map_eq_some_iff.mp completed
  exact refuses.row row written status

end Zhongzhuan.Proxy
