import Zhongzhuan.Proxy.CreateNonstream
import Zhongzhuan.Proxy.KeySwitch

/-!
# Whether a create closes its row

Both creates write a row in progress before they call an upstream, and each exit has to close
it.  The streaming create does at every exit but one, the non-stream create only where the
client gets a response object.

* `roundsMet` are the rounds a non-stream create has a key for, and `endingRound` the one it
  ends with: every key is tried once, so both are known from what the rounds meet.
* `nonstream_rounds_eq` says what the loop leaves, and `row_closed_iff` for which outcomes the
  row of either create is closed.
-/

namespace Zhongzhuan.Proxy

open Kit Store

/-! ## The loop of the non-stream create -/

variable {cfg : NonstreamConfig} {prep : V3CreateContext} {c : V3Candidates}
  {score : ℕ → Candidate → ℚ}

namespace NonstreamRound

variable (cfg : NonstreamConfig)

/-- The call is repeated with texts for contents. -/
def repeats (r : NonstreamRound) : Bool :=
  !decide (400 ≤ r.call.statusCode) && (cfg.parsed r.call.payload).isNone
    && startsWithData r.call.payload

/-- The result of the round. -/
def result (r : NonstreamRound) : RunResult := if r.repeats cfg then r.stringified else r.call

/-- Whether the body of the first call is empty; `none` where that raises, and no answer where
it is not examined. -/
def examined (r : NonstreamRound) : Option (Option Bool) :=
  if 400 ≤ r.call.statusCode then none
  else (cfg.parsed r.call.payload).map fun v => responseIsEmpty (bodyShape v) v

/-- The handler raises in the round. -/
def raises (r : NonstreamRound) : Bool := r.examined cfg = some none

/-- The round is followed by another one, if there is a key. -/
def goesOn (r : NonstreamRound) : Bool :=
  if 400 ≤ (r.result cfg).statusCode then !(r.result cfg).final
  else r.examined cfg = some (some true)
    || r.repeats cfg && (cfg.parsed r.stringified.payload).isNone

end NonstreamRound

theorem afterCall_eq (r : NonstreamRound) (tried : Finset ℕ) :
    afterCall cfg prep r tried
      = if r.raises cfg then .answer (raised prep)
        else if r.goesOn cfg then .next { tried := tried, resp := some (r.result cfg) }
        else .stop { tried := tried, resp := some (r.result cfg) } := by
  unfold afterCall NonstreamRound.raises NonstreamRound.goesOn NonstreamRound.result
    NonstreamRound.examined NonstreamRound.repeats
  by_cases error : 400 ≤ r.call.statusCode
  · simp only [error, if_true]
    cases final : r.call.final <;> simp [error, final]
  · simp only [error, if_false]
    cases parsed : cfg.parsed r.call.payload with
    | some v =>
        cases empty : responseIsEmpty (bodyShape v) v with
        | none => simp [empty]
        | some b => cases b <;> simp [error, empty]
    | none =>
        cases data : startsWithData r.call.payload with
        | false => simp [error]
        | true =>
            by_cases error' : 400 ≤ r.stringified.statusCode
            · cases final : r.stringified.final <;> simp [error', final]
            · cases cfg.parsed r.stringified.payload <;> simp [error']

/-- The rounds for which there is a key. -/
def roundsMet (c : V3Candidates) (score : ℕ → Candidate → ℚ) (meets : ℕ → NonstreamRound) :
    ℕ → ℕ → Finset ℕ → List NonstreamRound
  | 0, _, _ => []
  | n + 1, i, tried =>
    match c.selectRetryKey (score i) tried with
    | none => []
    | some d => meets i :: roundsMet c score meets n (i + 1) (insert d.key.keyId tried)

/-- The round the loop ends with: the first one that is not followed by another, or the last. -/
def endingRound (cfg : NonstreamConfig) : List NonstreamRound → Option NonstreamRound
  | [] => none
  | r :: rounds =>
    if !r.raises cfg && r.goesOn cfg then (endingRound cfg rounds).or (some r) else some r

variable (cfg prep c score) in
/-- **The loop of the non-stream create** leaves the result of the round it ends with. -/
theorem nonstream_rounds_eq (meets : ℕ → NonstreamRound) (n i : ℕ) (st : NonstreamState) :
    match endingRound cfg (roundsMet c score meets n i st.tried) with
    | none => rounds (nonstreamRound cfg prep c score meets) n i st = .inl st
    | some r =>
      if r.raises cfg then
        rounds (nonstreamRound cfg prep c score meets) n i st = .inr (raised prep)
      else
        ∃ tried, rounds (nonstreamRound cfg prep c score meets) n i st
          = .inl { tried := tried, resp := some (r.result cfg) } := by
  induction n generalizing i st with
  | zero => rfl
  | succ n ih =>
      unfold roundsMet rounds nonstreamRound
      cases picked : c.selectRetryKey (score i) st.tried with
      | none => rfl
      | some d =>
          dsimp only
          rw [afterCall_eq]
          cases raising : (meets i).raises cfg with
          | true => simp [endingRound, raising]
          | false =>
              cases on : (meets i).goesOn cfg with
              | false => simp [endingRound, raising, on]
              | true =>
                  have later := ih (i + 1)
                    { tried := insert d.key.keyId st.tried
                      resp := some ((meets i).result cfg) }
                  simp only [endingRound, raising, on, Bool.not_false, Bool.and_self, if_true,
                    Bool.false_eq_true, if_false]
                  revert later
                  cases endingRound cfg (roundsMet c score meets n (i + 1)
                    (insert d.key.keyId st.tried)) with
                  | none =>
                      intro later
                      simpa [raising] using ⟨_, later⟩
                  | some r => exact id

variable (cfg c score) in
theorem exists_endingRound (meets : ℕ → NonstreamRound) :
    ∃ r, endingRound cfg (roundsMet c score meets c.maxSwitches 0 ∅) = some r := by
  obtain ⟨n, many⟩ : ∃ n, c.maxSwitches = n + 1 :=
    ⟨c.maxSwitches - 1, by have := maxSwitches_pos (c := c); omega⟩
  rw [many, roundsMet, c.selectRetryKey_first]
  dsimp only
  unfold endingRound
  split
  · cases endingRound cfg _ with
    | none => exact ⟨_, rfl⟩
    | some r => exact ⟨r, rfl⟩
  · exact ⟨_, rfl⟩

/-- The round a non-stream create ends with. -/
def lastRound (cfg : NonstreamConfig) (c : V3Candidates) (score : ℕ → Candidate → ℚ)
    (meets : ℕ → NonstreamRound) : NonstreamRound :=
  (endingRound cfg (roundsMet c score meets c.maxSwitches 0 ∅)).getD (meets 0)

theorem dispatchV3Create_eq (meets : ℕ → NonstreamRound) (fallback : List RunResult) :
    dispatchV3Create cfg prep c score meets fallback
      = if (lastRound cfg c score meets).raises cfg then raised prep
        else afterNonstreamLoop cfg prep fallback
          (some ((lastRound cfg c score meets).result cfg)) := by
  have run := nonstream_rounds_eq cfg prep c score meets c.maxSwitches 0
    { tried := ∅, resp := none }
  obtain ⟨r, last⟩ := exists_endingRound cfg c score meets
  unfold dispatchV3Create lastRound
  rw [last] at run ⊢
  dsimp only [Option.getD_some] at run ⊢
  split
  case isTrue raising =>
    rw [if_pos raising] at run
    rw [run]
    rfl
  case isFalse quiet =>
    rw [if_neg quiet] at run
    obtain ⟨tried, left⟩ := run
    rw [left]
    rfl

/-! ## Where the row is closed -/

/-- The body is an object, or no JSON at all. -/
def RunResult.responds (cfg : NonstreamConfig) (r : RunResult) : Bool :=
  match cfg.loads r.payload with
  | none | some (.obj _) => true
  | some _ => false

/-- The row of a create is there. -/
def V3CreateContext.Stored (prep : V3CreateContext) : Prop :=
  prep.storeEnabled = true ∧ prep.hasStore = true

theorem closes_skeleton : Closes prep.skeleton ↔ ¬ prep.Stored := by
  unfold V3CreateContext.skeleton V3CreateContext.Stored Closes
  split
  case isTrue stored => simp [stored, ResponseRow.Settled]
  case isFalse off => simp [off]

theorem closes_finishCreate (respObj : Fields) : Closes (finishCreate cfg prep respObj).row := by
  unfold finishCreate completedRow V3CreateContext.skeleton
  intro row written
  dsimp only at written
  split at written
  case isTrue stored =>
    obtain rfl := Option.some.inj written
    exact .inl rfl
  case isFalse off => simp at written

theorem closes_afterLoop (fallback : List RunResult) (r : RunResult) :
    Closes (afterNonstreamLoop cfg prep fallback (some r)).row
      ↔ (prep.Stored → (r.afterFallback cfg fallback).statusCode < 400
        ∧ (r.afterFallback cfg fallback).responds cfg = true) := by
  unfold afterNonstreamLoop
  dsimp only
  split
  case isTrue error =>
    have not' : ¬ (r.afterFallback cfg fallback).statusCode < 400 := not_lt.mpr error
    simp [closes_skeleton, not']
  case isFalse fine =>
    unfold RunResult.responds
    have fine' : (r.afterFallback cfg fallback).statusCode < 400 := not_le.mp fine
    split <;> simp_all [closes_finishCreate, closes_skeleton]

variable (prep) in
theorem isSome_or_closes (fallback : List RunResult) (r : RunResult) :
    (afterNonstreamLoop cfg prep fallback (some r)).answer.isSome = true
      ∨ Closes (afterNonstreamLoop cfg prep fallback (some r)).row := by
  unfold afterNonstreamLoop
  dsimp only
  split
  · exact .inl rfl
  · split
    · exact .inr (closes_finishCreate _)
    · exact .inr (closes_finishCreate _)
    · exact .inl rfl

section Stream

variable {Frame : Type} {streaming : StreamConfig Frame}

/-- The rounds a streaming create comes to: a key whose call could not be prepared is not
tried, and a round that ends the handler is the last. -/
def streamRoundsMet (streaming : StreamConfig Frame) (c : V3Candidates)
    (score : ℕ → Candidate → ℚ) (meets : ℕ → StreamRound Frame) :
    ℕ → ℕ → Finset ℕ → List (StreamRound Frame)
  | 0, _, _ => []
  | n + 1, i, tried =>
    match c.selectRetryKey (score i) tried with
    | none => []
    | some d =>
      meets i ::
        if (meets i).decisive.answers streaming then []
        else streamRoundsMet streaming c score meets n (i + 1)
          (if (meets i).first.skips then tried else insert d.key.keyId tried)

theorem closes_allKeysFailed (st : StreamState Frame) :
    Closes (allKeysFailed streaming prep st).row := by
  have failed : ∀ reason, Closes (prep.persistV3StreamTerminal .failed reason []) :=
    fun reason => closes_persist (.inr (.inl rfl)) reason []
  unfold allKeysFailed
  dsimp only
  split
  · split
    · exact closes_persist (closingRunStatus_ended _) _ _
    · split
      · exact failed _
      · exact failed _
  · split
    · exact failed _
    · exact failed _

theorem answers_of_hangsUp {o : Opening Frame} (hangsUp : o.hangsUp = true) :
    o.answers streaming = true := by
  cases o <;> simp_all [Opening.hangsUp, Opening.answers]

theorem closes_stream_rounds (meets : ℕ → StreamRound Frame) (n i : ℕ)
    (st : StreamState Frame) :
    Closes ((rounds (streamRound streaming prep c score meets) n i st).elim
        (allKeysFailed streaming prep) id).row
      ↔ (prep.Stored → ∀ r ∈ streamRoundsMet streaming c score meets n i st.tried,
        r.decisive.hangsUp = false) := by
  induction n generalizing i st with
  | zero => simpa [rounds, streamRoundsMet] using closes_allKeysFailed st
  | succ n ih =>
      unfold rounds streamRoundsMet
      cases picked : c.selectRetryKey (score i) st.tried with
      | none => simpa [streamRound, picked] using closes_allKeysFailed st
      | some d =>
          have spec := streamRound_spec streaming prep meets picked
          split at spec
          case isTrue ends =>
            obtain ⟨served, out, ended⟩ := spec
            rw [out]
            dsimp only [Sum.elim_inr, id]
            rw [if_pos ends]
            cases hangsUp : (meets i).decisive.hangsUp with
            | true =>
                have row := ended.row
                rw [hangsUp, if_pos rfl] at row
                simp [row, closes_skeleton, hangsUp]
            | false =>
                have row := ended.row
                rw [hangsUp, if_neg (by simp)] at row
                simp [row, hangsUp]
          case isFalse goes =>
            obtain ⟨st', on, -, tried⟩ := spec
            rw [on]
            dsimp only
            rw [ih (i + 1) st', tried, if_neg goes, List.forall_mem_cons]
            have stays : (meets i).decisive.hangsUp = false := by
              by_contra hangsUp
              exact goes (answers_of_hangsUp (by simpa using hangsUp))
            simp [stays]

/-- **The row of a create is closed exactly when**, if it was written: for a streaming create,
the client hangs up in no round before the upstream has answered; for a non-stream create, the
last round, or a fallback candidate after it, comes to an answer without error whose body is an
object or no JSON.  A round that raises leaves no answer. -/
theorem row_closed_iff (streaming : StreamConfig Frame) (cfg : NonstreamConfig)
    (prep : V3CreateContext) (c : V3Candidates) (score : ℕ → Candidate → ℚ)
    (meets : ℕ → StreamRound Frame) (comesTo : ℕ → NonstreamRound) (fallback : List RunResult) :
    (Closes (dispatchV3CreateStream streaming prep c score meets).row
        ↔ (prep.Stored → ∀ r ∈ streamRoundsMet streaming c score meets c.maxSwitches 0 ∅,
          r.decisive.hangsUp = false))
      ∧ (((dispatchV3Create cfg prep c score comesTo fallback).answer.isSome →
            Closes (dispatchV3Create cfg prep c score comesTo fallback).row)
        ↔ (prep.Stored → (lastRound cfg c score comesTo).raises cfg = false →
          let r := ((lastRound cfg c score comesTo).result cfg).afterFallback cfg fallback
          r.statusCode < 400 ∧ r.responds cfg = true)) := by
  refine ⟨closes_stream_rounds meets c.maxSwitches 0 (.init Frame), ?_⟩
  rw [dispatchV3Create_eq]
  cases raising : (lastRound cfg c score comesTo).raises cfg with
  | true => simp [raised]
  | false =>
      simp only [Bool.false_eq_true, if_false, forall_const]
      rw [← closes_afterLoop]
      constructor
      · intro closes
        rcases isSome_or_closes prep fallback
          ((lastRound cfg c score comesTo).result cfg) with returns | closed
        · exact closes returns
        · exact closed
      · exact fun closes _ => closes

end Stream

/-! ## Two exits that leave the row in progress -/

/-- Bodies that are no JSON, and no multi-agent. -/
def plainAnswers : NonstreamConfig where
  loads := fun _ => none
  int := fun _ => some 0
  postprocess := id

/-- One key. -/
def oneKey : V3Candidates where
  candidates := [{ keyId := 0, modelId := 0 }]
  memberOrder := none
  decision :=
    { key := { keyId := 0, modelId := 0 }
      upstreamPath := "/v1/chat/completions"
      isNative := false }
  nodup := by decide
  routed := by decide

/-- The only upstream answers a non-stream create with 500, and the client of a streaming create
hangs up while it connects: both return, and both rows stay in progress. -/
theorem row_left_inProgress :
    let nonstream := dispatchV3Create plainAnswers plainCreate oneKey evenScore
      (fun _ =>
        { call := { statusCode := 500, payload := [] }
          stringified := { statusCode := 500, payload := [] } }) []
    let stream := dispatchV3CreateStream plainFrames plainCreate oneKey evenScore
      fun _ => { first := .connectionError true, second := .nothing }
    nonstream.answer.isSome ∧ nonstream.row.map ResponseRow.status = some .inProgress
      ∧ stream.answer.status = 499 ∧ stream.row.map ResponseRow.status = some .inProgress := by
  decide +kernel

end Zhongzhuan.Proxy
