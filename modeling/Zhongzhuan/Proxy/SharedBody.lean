import Zhongzhuan.Proxy.UpstreamBody
import Zhongzhuan.Kit.Noninterference

/-!
# What a key is sent after other keys were tried

The dictionary of a request, the blocklist of `reasoning_effort` and the latch to chat
completions are what one attempt of a retry loop leaves to the next.

* `LeavesBody` says, of the request and of one attempt, that nothing of this is changed.
* `attempt_leaves` is the step: such an attempt leaves what is shared as it is.
* `sent_eq_first` is the run: after any number of them a key is sent what it would have been
  sent first.
* `prepared_forgets_effort` is what happens otherwise: a key with a reasoning map takes the level
  that the client asked for out of the dictionary, so no later key gets to see it.
-/

namespace Zhongzhuan.Proxy

open Kit

/-! ## Changes that change nothing -/

theorem stripReasoningEffort_of_absent {body : Fields} (absent : reasoningPresent body = false) :
    stripReasoningEffort body = (body, false) := by
  obtain ⟨top, nested⟩ := Bool.or_eq_false_iff.mp absent
  unfold stripReasoningEffort
  rw [top]
  cases found : Fields.get body "reasoning" with
  | none => simp [found]
  | some value =>
      cases value with
      | obj reasoning =>
          have effortless : holdsField reasoning "effort" = false := by simpa [found] using nested
          simp [found, effortless]
      | _ => simp [found]

section Reasoning

variable {env : BodyEnv} {blocked : Finset (String × String)} {key : UpstreamKey} {body : Fields}

theorem prepareReasoning_of_quiet
    (blocklist : key.channel ∈ blocked → reasoningPresent body = false)
    (mapped : (env.reasoningMapFor key).isSome = true → extractReasoningNorm body = none) :
    prepareReasoningForBody env blocked key body = (body, none) := by
  have kept : (if key.channel ∈ blocked then (stripReasoningEffort body).1 else body) = body := by
    split
    case isTrue listed => rw [stripReasoningEffort_of_absent (blocklist listed)]
    case isFalse _ => rfl
  unfold prepareReasoningForBody
  rw [kept]
  cases found : env.reasoningMapFor key with
  | none => rfl
  | some m =>
      have levelless := mapped (by rw [found]; rfl)
      simp [levelless]

end Reasoning

namespace Outbound

/-- Building the outbound body changes nothing in the dictionary of the request: what would be
set there is set already. -/
def Keeps (o : Outbound) (body : Fields) : Prop :=
  match o.source with
  | .shared =>
    o.pre body = body ∧ (o.usage = true → withUsage body = some body) ∧ o.post body = body
  | .copy _ => o.usage = true → nestedUsage body = body
  | .fresh _ => True

theorem left_eq_of_keeps {o : Outbound} {body : Fields} (keeps : o.Keeps body) :
    o.left body = body := by
  unfold Keeps at keeps
  unfold left
  cases source : o.source with
  | shared =>
      rw [source] at keeps
      obtain ⟨pre, usage, post⟩ := keeps
      have edited : o.edited body = some body := by
        unfold Outbound.edited
        split
        case isTrue asked => rw [pre, usage asked, Option.map_some, post]
        case isFalse _ => rw [pre, Option.map_some, post]
      simp [edited]
  | copy content =>
      rw [source] at keeps
      change (if o.usage = true then nestedUsage body else body) = body
      split
      case isTrue asked => exact keeps asked
      case isFalse _ => rfl
  | fresh content => rfl

end Outbound

theorem sendBody_left {outbound : Option Outbound} {body : Fields}
    (keeps : ∀ o, outbound = some o → o.Keeps body) : (sendBody outbound body).1 = body := by
  cases outbound with
  | none => rfl
  | some o => exact Outbound.left_eq_of_keeps (keeps o rfl)

/-! ## Attempts that leave the body as it is -/

/-- The attempts that come to prepare the reasoning fields. -/
def RetryLoop.prepares (loop : RetryLoop) (a : BodyAttempt) : Bool :=
  match loop with
  | .v3 => true
  | .legacy _ => a.ready

/-- How the body of an attempt is built from one whose reasoning fields need no preparing. -/
def RetryLoop.outbound (loop : RetryLoop) (env : BodyEnv) (a : BodyAttempt) (body : Fields) :
    Option Outbound :=
  match loop with
  | .v3 => v3Outbound env a.key a.options body none
  | .legacy stream => legacyOutbound env stream a.key a.key.upstreamProtocol body none

/-- An attempt changes nothing of what a request shares between its attempts. -/
structure LeavesBody (env : BodyEnv) (loop : RetryLoop) (body : Fields)
    (blocked : Finset (String × String)) (a : BodyAttempt) : Prop where
  /-- There is no effort to strip for a key on the blocklist. -/
  blocklist : loop.prepares a = true → a.key.channel ∈ blocked → reasoningPresent body = false
  /-- There is no level to translate for a key with a reasoning map. -/
  reasoningMap : loop.prepares a = true → (env.reasoningMapFor a.key).isSome = true →
    extractReasoningNorm body = none
  /-- The outbound body is built without a change to the dictionary of the request. -/
  outbound : a.ready = true → ¬(loop = .legacy false ∧ body = []) →
    ∀ o, loop.outbound env a body = some o → o.Keeps body
  /-- There is no effort to strip when the upstream refuses it. -/
  selfHeal : loop = .v3 → a.ready = true → a.rejectsEffort = true → reasoningPresent body = false
  /-- The call is not a native one that falls back to chat completions. -/
  latch : loop = .legacy true → a.ready = true → a.chatError = true →
    ¬(env.inboundProtocol = .responses ∧ a.key.upstreamProtocol = .responses)

/-- What the attempts of a request share before the first of them. -/
def SharedBody.start (body : Fields) (blocked : Finset (String × String)) : SharedBody :=
  ⟨body, blocked, none⟩

section Runs

variable {env : BodyEnv} {loop : RetryLoop} {body : Fields} {blocked : Finset (String × String)}
variable {a : BodyAttempt}

theorem v3Attempt_leaves (leaves : LeavesBody env .v3 body blocked a) :
    (v3Attempt env (.start body blocked) a).1 = .start body blocked := by
  have prepared : prepareReasoningForBody env blocked a.key body = (body, none) :=
    prepareReasoning_of_quiet (leaves.blocklist rfl) (leaves.reasoningMap rfl)
  unfold v3Attempt SharedBody.start
  simp only [prepared]
  split
  case isTrue ready =>
    have left := sendBody_left (leaves.outbound ready (by simp))
    simp only [RetryLoop.outbound] at left
    simp only [left]
    split
    case isTrue refused =>
      have absent := leaves.selfHeal rfl ready (Bool.and_eq_true_iff.mp refused).2
      simp [SharedBody.selfHeal, stripReasoningEffort_of_absent absent]
    case isFalse _ => rfl
  case isFalse _ => rfl

theorem legacyAttempt_leaves {stream : Bool}
    (leaves : LeavesBody env (.legacy stream) body blocked a) :
    (legacyAttempt env stream (.start body blocked) a).1 = .start body blocked := by
  unfold legacyAttempt SharedBody.start
  split
  case isTrue ready =>
    have prepared : prepareReasoningForBody env blocked a.key body = (body, none) :=
      prepareReasoning_of_quiet (leaves.blocklist ready) (leaves.reasoningMap ready)
    simp only [prepared, Option.getD_none]
    have kept : (if body = [] ∧ stream = false then body
        else (sendBody (legacyOutbound env stream a.key a.key.upstreamProtocol body none) body).1)
        = body := by
      split
      case isTrue _ => rfl
      case isFalse own =>
        apply sendBody_left
        exact leaves.outbound ready (by simpa [and_comm] using own)
    have unlatched : (stream && (sendBody (legacyOutbound env stream a.key a.key.upstreamProtocol
        body none) body).2.isSome && a.chatError && decide (env.inboundProtocol = .responses)
        && decide (a.key.upstreamProtocol = .responses)) = false := by
      by_contra latched
      simp only [Bool.not_eq_false, Bool.and_eq_true, decide_eq_true_eq] at latched
      obtain ⟨⟨⟨⟨rfl, _⟩, chatError⟩, inbound⟩, native⟩ := latched
      exact leaves.latch rfl ready chatError ⟨inbound, native⟩
    simp [kept, unlatched]
  case isFalse _ => rfl

theorem attempt_leaves (leaves : LeavesBody env loop body blocked a) :
    (loop.attempt env (.start body blocked) a).1 = .start body blocked := by
  cases loop with
  | v3 => exact v3Attempt_leaves leaves
  | legacy stream => exact legacyAttempt_leaves leaves

end Runs

/-- **What a key is sent does not depend on the keys tried before it**, as long as none of these
attempts changes what the attempts of a request share. -/
theorem sent_eq_first (env : BodyEnv) (loop : RetryLoop) (body : Fields)
    (blocked : Finset (String × String)) (history : List BodyAttempt)
    (leaves : ∀ a ∈ history, LeavesBody env loop body blocked a) (next : BodyAttempt) :
    (loop.attempt env (serve (loop.attempt env) (.start body blocked) history) next).2
      = (loop.attempt env (.start body blocked) next).2 := by
  have same : serve (loop.attempt env) (.start body blocked) history = .start body blocked := by
    apply serve_eq_self
    intro a mem
    exact attempt_leaves (leaves a mem)
  rw [same]

/-! ## A key with a reasoning map, and a native one after it -/

/-- A relay in front of two upstreams: a reasoning map is configured for the first. -/
def relayEnv : BodyEnv where
  inboundProtocol := .responses
  requestedModel := "gpt"
  reasoningMap := ⟨[(("https://a", "glm"), [("high", some [("thinking", .bool true)])])],
    List.nodup_singleton _⟩
  convertResponses := fun body => some (Fields.without body "input")
  translateO2A := fun body _ => some body
  translateA2O := fun body _ => some body
  swapModelName := fun text _ _ => text
  injectSystemMessage := fun text _ => text

/-- A native call of an upstream that answers with a server error. -/
def nativeAttempt (base model : String) : BodyAttempt where
  key := ⟨base, model, .responses, "2023-06-01", 4096, ""⟩
  options := ⟨false, false, false⟩
  ready := true
  rejectsEffort := false
  chatError := false

/-- A body that asks for a level. -/
def effortBody : Fields :=
  [("model", .str "gpt"), ("input", .str "hi"), ("reasoning", .obj [("effort", .str "high")])]

example : (v3Attempt relayEnv (.start effortBody ∅) (nativeAttempt "https://b" "gpt")).2
    = some (dumps (.obj effortBody)) := by
  decide +kernel

/-- **The native key does not receive the level that the client asked for** when the key with
the reasoning map was tried first. -/
theorem effort_lost_after_mapped_key :
    (RetryLoop.v3.attempt relayEnv
        (serve (RetryLoop.v3.attempt relayEnv) (.start effortBody ∅)
          [nativeAttempt "https://a" "glm"]) (nativeAttempt "https://b" "gpt")).2
      ≠ (RetryLoop.v3.attempt relayEnv (.start effortBody ∅)
        (nativeAttempt "https://b" "gpt")).2 := by
  decide +kernel

/-- In the other order nothing is lost. -/
theorem mapped_key_after_native :
    (RetryLoop.v3.attempt relayEnv
        (serve (RetryLoop.v3.attempt relayEnv) (.start effortBody ∅)
          [nativeAttempt "https://b" "gpt"]) (nativeAttempt "https://a" "glm")).2
      = (RetryLoop.v3.attempt relayEnv (.start effortBody ∅)
        (nativeAttempt "https://a" "glm")).2 := by
  apply sent_eq_first relayEnv .v3 effortBody ∅ [nativeAttempt "https://b" "gpt"]
  intro a mem
  rw [List.mem_singleton.mp mem]
  constructor
  case blocklist =>
    intro _ listed
    exact absurd listed (Finset.notMem_empty _)
  case reasoningMap =>
    intro _ mapped
    exact absurd mapped (by decide +kernel)
  case outbound =>
    intro _ _ o built
    have native : o.source = .copy effortBody ∧ o.usage = false := by
      injection built with same
      rw [← same]
      exact ⟨rfl, rfl⟩
    unfold Outbound.Keeps
    rw [native.1]
    simp [native.2]
  case selfHeal =>
    intro _ _ refused
    exact absurd refused (by decide)
  case latch =>
    intro legacy
    exact absurd legacy (by decide)

end Zhongzhuan.Proxy
