import Zhongzhuan.Kit.Caps
import Zhongzhuan.Proxy.WindowUsage

/-!
# The limits that a key learns from response headers

`learn_rate_limits` keeps three caps: `rpm_limit`, `tpm_limit`, and the limit of `tpm_window`.
The first two are lowered only (`rpmLimit_learnAll`, `tpmLimit_learnAll`).  The limit of the
window is set to whatever the header has (`windowLimit_learnAll`), so it goes up again with the
header: `limits_learned_iff` is the exact condition on the headers under which it does not, and
ends at the same value as `tpm_limit`.
-/

namespace Zhongzhuan.Proxy

open Kit

/-! ## What one response does to the caps -/

namespace SlidingWindow

@[simp] theorem add_limit (w : SlidingWindow) (n : ℤ) (now : ℚ) :
    (w.add n now).limit = w.limit := by
  unfold add
  split
  · exact (WindowRun.Lawful.rotate_size w now).2
  · exact (WindowRun.Lawful.rotate_size w now).2

@[simp] theorem currentUsage_limit (w : SlidingWindow) (now : ℚ) :
    (w.currentUsage now).1.limit = w.limit :=
  (WindowRun.Lawful.rotate_size w now).2

end SlidingWindow

namespace KeyHealth

variable (r : HeaderReaders) (k : KeyHealth) (headers : Headers) (now : ℚ)

@[simp] theorem syncWindow_limit (w : SlidingWindow) (used : ℤ) (now : ℚ) :
    (syncWindow w used now).limit = w.limit := by
  unfold syncWindow
  split
  · dsimp only
    split
    · rw [SlidingWindow.add_limit, SlidingWindow.currentUsage_limit]
    · exact w.currentUsage_limit now
  · rfl

/-- The limit of `tpm_window`, if there is one. -/
def windowLimit (k : KeyHealth) : Option ℤ := k.tpmWindow.map SlidingWindow.limit

/-- The same as a cap: no window is no limit. -/
def windowCap (k : KeyHealth) : ℤ := k.windowLimit.getD 0

/-- The caps of a key. -/
def caps (k : KeyHealth) : ℤ × ℤ × Option ℤ := (k.rpmLimit, k.tpmLimit, k.windowLimit)

@[simp] theorem caps_learnRetryAfter : (k.learnRetryAfter r headers now).caps = k.caps := by
  unfold learnRetryAfter
  split <;> rfl

@[simp] theorem caps_syncTokens : (k.syncTokens r headers now).caps = k.caps := by
  unfold syncTokens
  split
  · rename_i window
    split
    · simp only [caps, windowLimit, Option.map_some, syncWindow_limit, window]
    · rfl
  · rfl

@[simp] theorem caps_syncRequests : (k.syncRequests r headers now).caps = k.caps := by
  unfold syncRequests
  repeat' split
  all_goals rfl

theorem caps_learnRequestLimit :
    (k.learnRequestLimit r headers).caps
      = ((headers.givenInt r "x-ratelimit-limit-requests").toList.foldl tighten k.rpmLimit,
          k.tpmLimit, k.windowLimit) := by
  unfold learnRequestLimit
  cases headers.givenInt r "x-ratelimit-limit-requests" with
  | none => rfl
  | some val =>
      simp only [Option.toList_some, List.foldl_cons, List.foldl_nil, tighten]
      split <;> rfl

theorem caps_learnTokenLimit :
    (k.learnTokenLimit r headers now).caps
      = (k.rpmLimit,
          (headers.givenInt r "x-ratelimit-limit-tokens").toList.foldl tighten k.tpmLimit,
          ((headers.givenInt r "x-ratelimit-limit-tokens").filter (0 < ·)).or k.windowLimit) := by
  unfold learnTokenLimit
  cases headers.givenInt r "x-ratelimit-limit-tokens" with
  | none => rfl
  | some val =>
      simp only [Option.toList_some, List.foldl_cons, List.foldl_nil, tighten]
      by_cases positive : 0 < val
      · simp only [positive, if_true, true_and, caps, windowLimit, Option.map_some,
          Option.filter_some, decide_true, Option.some_or]
        cases k.tpmWindow <;> rfl
      · simp only [positive, if_false, false_and, Option.filter_some, decide_false,
          Bool.false_eq_true, Option.none_or]
        rfl

theorem caps_learnRateLimits :
    (k.learnRateLimits r headers now).caps
      = ((headers.givenInt r "x-ratelimit-limit-requests").toList.foldl tighten k.rpmLimit,
          (headers.givenInt r "x-ratelimit-limit-tokens").toList.foldl tighten k.tpmLimit,
          ((headers.givenInt r "x-ratelimit-limit-tokens").filter (0 < ·)).or k.windowLimit) := by
  have requests := caps_learnRequestLimit r (k.learnRetryAfter r headers now) headers
  have before := caps_learnRetryAfter r k headers now
  simp only [caps, Prod.mk.injEq] at requests before
  rw [learnRateLimits, caps_syncRequests, caps_syncTokens, caps_learnTokenLimit, requests.1,
    requests.2.1, requests.2.2, before.1, before.2.1, before.2.2]

/-! ## Runs -/

/-- The responses to the requests with a key, each with the reading of the clock. -/
def learnAll (k : KeyHealth) (responses : List (ℚ × Headers)) : KeyHealth :=
  responses.foldl (fun k response => k.learnRateLimits r response.2 response.1) k

/-- The values of a header that `int()` reads, in order. -/
def headerValues (name : String) (responses : List (ℚ × Headers)) : List ℤ :=
  responses.filterMap fun response => response.2.givenInt r name

/-- A cap that no response of a run loosens. -/
def NeverLoosens (cap : KeyHealth → ℤ) : KeyHealth → List (ℚ × Headers) → Prop
  | _, [] => True
  | k, response :: responses =>
    ¬ Loosens (cap k) (cap (k.learnRateLimits r response.2 response.1))
      ∧ NeverLoosens cap (k.learnRateLimits r response.2 response.1) responses

theorem tightened_run {cap : KeyHealth → ℤ} {name : String}
    (step : ∀ (k : KeyHealth) headers now,
      cap (k.learnRateLimits r headers now)
        = (headers.givenInt r name).toList.foldl tighten (cap k))
    (k : KeyHealth) (responses : List (ℚ × Headers)) :
    cap (k.learnAll r responses) = (headerValues r name responses).foldl tighten (cap k)
      ∧ NeverLoosens r cap k responses := by
  induction responses generalizing k with
  | nil => exact ⟨rfl, trivial⟩
  | cons response responses ih =>
      obtain ⟨later, tight⟩ := ih (k.learnRateLimits r response.2 response.1)
      have here := step k response.2 response.1
      refine ⟨?_, ?_, tight⟩
      · rw [learnAll, List.foldl_cons]
        rw [learnAll] at later
        rw [later, here, headerValues, headerValues, List.filterMap_cons]
        cases response.2.givenInt r name <;> rfl
      · rw [here]
        cases response.2.givenInt r name with
        | none => exact not_loosens_self _
        | some value => exact not_loosens_tighten _ value

theorem rpmLimit_learnAll (responses : List (ℚ × Headers)) :
    (k.learnAll r responses).rpmLimit
        = (headerValues r "x-ratelimit-limit-requests" responses).foldl tighten k.rpmLimit
      ∧ NeverLoosens r rpmLimit k responses :=
  tightened_run r (fun k headers now => congrArg Prod.fst (caps_learnRateLimits r k headers now))
    k responses

theorem tpmLimit_learnAll (responses : List (ℚ × Headers)) :
    (k.learnAll r responses).tpmLimit
        = (headerValues r "x-ratelimit-limit-tokens" responses).foldl tighten k.tpmLimit
      ∧ NeverLoosens r tpmLimit k responses :=
  tightened_run r
    (fun k headers now => congrArg (fun caps => caps.2.1) (caps_learnRateLimits r k headers now))
    k responses

theorem windowLimit_learnRateLimits :
    (k.learnRateLimits r headers now).windowLimit
      = ((headers.givenInt r "x-ratelimit-limit-tokens").filter (0 < ·)).or k.windowLimit :=
  congrArg (fun caps => caps.2.2) (caps_learnRateLimits r k headers now)

/-- The token limits that the responses tell, the positive ones. -/
def tokenLimits (responses : List (ℚ × Headers)) : List ℤ :=
  (headerValues r "x-ratelimit-limit-tokens" responses).filter (0 < ·)

theorem tokenLimits_cons (response : ℚ × Headers) (responses : List (ℚ × Headers)) :
    tokenLimits r (response :: responses)
      = ((response.2.givenInt r "x-ratelimit-limit-tokens").filter (0 < ·)).toList
        ++ tokenLimits r responses := by
  simp only [tokenLimits, headerValues, List.filterMap_cons]
  cases response.2.givenInt r "x-ratelimit-limit-tokens" with
  | none => rfl
  | some value =>
      simp only [List.filter_cons, Option.filter_some]
      split <;> rfl

theorem windowLimit_learnAll (responses : List (ℚ × Headers)) :
    (k.learnAll r responses).windowLimit
      = (tokenLimits r responses).getLast?.or k.windowLimit := by
  induction responses generalizing k with
  | nil => rfl
  | cons response responses ih =>
      change ((k.learnRateLimits r response.2 response.1).learnAll r responses).windowLimit = _
      rw [ih, windowLimit_learnRateLimits, tokenLimits_cons, List.getLast?_append]
      cases (response.2.givenInt r "x-ratelimit-limit-tokens").filter (0 < ·) <;>
        cases (tokenLimits r responses).getLast? <;> rfl

theorem neverLoosens_window_iff (nonneg : ∀ limit ∈ k.windowLimit, 0 ≤ limit)
    (responses : List (ℚ × Headers)) :
    NeverLoosens r windowCap k responses
      ↔ ((k.windowLimit.filter (0 < ·)).toList ++ tokenLimits r responses).IsChain (· ≥ ·) := by
  induction responses generalizing k with
  | nil => cases k.windowLimit.filter (0 < ·) <;> simp [NeverLoosens, tokenLimits, headerValues]
  | cons response responses ih =>
      have step := windowLimit_learnRateLimits r k response.2 response.1
      rw [NeverLoosens, tokenLimits_cons]
      cases told : (response.2.givenInt r "x-ratelimit-limit-tokens").filter (0 < ·) with
      | none =>
          rw [told, Option.none_or] at step
          rw [ih _ (by rwa [step]), windowCap, windowCap, step]
          simp [not_loosens_self]
      | some value =>
          have positive : 0 < value :=
            of_decide_eq_true (Option.filter_eq_some_iff.mp told).2
          rw [told, Option.some_or] at step
          have filtered : Option.filter (fun x => decide (0 < x)) (some value) = some value := by
            rw [Option.filter_some, decide_eq_true positive, if_pos rfl]
          rw [ih _ (by simp [step, positive.le]), windowCap, windowCap, step, filtered]
          cases old : k.windowLimit with
          | none => simp [Loosens]
          | some limit =>
              have := nonneg limit old
              by_cases above : 0 < limit
              · simp only [Option.getD_some, Option.filter_some, decide_eq_true above, if_true,
                  Option.toList_some, List.cons_append, List.nil_append, List.isChain_cons_cons,
                  Loosens]
                refine and_congr_left fun _ => ?_
                omega
              · simp only [Option.getD_some, Option.filter_some, above, decide_false,
                  Bool.false_eq_true, if_false, Option.toList_none, Option.toList_some,
                  List.nil_append, Loosens]
                simp

end KeyHealth

/-- What is promised of the limits that a run of responses leaves. -/
structure LimitsLearned (r : HeaderReaders) (k : KeyHealth) (responses : List (ℚ × Headers)) :
    Prop where
  requests : KeyHealth.NeverLoosens r KeyHealth.rpmLimit k responses
  tokens : KeyHealth.NeverLoosens r KeyHealth.tpmLimit k responses
  window : KeyHealth.NeverLoosens r KeyHealth.windowCap k responses
  agree : ∀ w ∈ (k.learnAll r responses).tpmWindow, w.limit = (k.learnAll r responses).tpmLimit
  leastRequests : (k.learnAll r responses).rpmLimit
    = leastPositive (k.rpmLimit :: KeyHealth.headerValues r "x-ratelimit-limit-requests" responses)
  leastTokens : (k.learnAll r responses).tpmLimit
    = leastPositive (k.tpmLimit :: KeyHealth.headerValues r "x-ratelimit-limit-tokens" responses)
  leastWindow : (k.learnAll r responses).windowCap
    = leastPositive (k.windowCap :: KeyHealth.headerValues r "x-ratelimit-limit-tokens" responses)

/-- The token limits that the responses tell go down only, counted from the limit of the window,
and the last is not above the limit that the key has; without any, the two limits of the key
agree. -/
structure LimitsFall (r : HeaderReaders) (k : KeyHealth) (responses : List (ℚ × Headers)) :
    Prop where
  falling : ((k.windowLimit.filter (0 < ·)).toList ++ KeyHealth.tokenLimits r responses).IsChain
    (· ≥ ·)
  last : ∀ limit ∈ (KeyHealth.tokenLimits r responses).getLast?,
    k.tpmLimit = 0 ∨ limit ≤ k.tpmLimit
  start : KeyHealth.tokenLimits r responses = [] → ∀ limit ∈ k.windowLimit, limit = k.tpmLimit

section

variable {r : HeaderReaders} {k : KeyHealth} {responses : List (ℚ × Headers)}

theorem falling_parts {limits : List ℤ} (window : ∀ limit ∈ k.windowLimit, 0 ≤ limit)
    (falling : ((k.windowLimit.filter (0 < ·)).toList ++ limits).IsChain (· ≥ ·)) :
    limits.IsChain (· ≥ ·) ∧ 0 ≤ k.windowCap
      ∧ ∀ last ∈ limits.getLast?, k.windowCap = 0 ∨ last ≤ k.windowCap := by
  rw [KeyHealth.windowCap]
  cases old : k.windowLimit with
  | none =>
      rw [old] at falling
      exact ⟨falling, le_rfl, fun _ _ => .inl rfl⟩
  | some limit =>
      have nonneg := window limit old
      rw [old, Option.filter_some] at falling
      refine ⟨falling.right_of_append, nonneg, fun last ends => ?_⟩
      rcases nonneg.eq_or_lt with zero | positive
      · exact .inl zero.symm
      · rw [decide_eq_true positive, if_pos rfl] at falling
        have ends' : last ∈ (limit :: limits).getLast? := by
          rw [List.getLast?_cons, Option.mem_def.mp ends]
          rfl
        exact .inr (le_of_falling falling ends' limit List.mem_cons_self)

theorem ends_of_falling (tpm : 0 ≤ k.tpmLimit) (window : ∀ limit ∈ k.windowLimit, 0 ≤ limit)
    (falling : ((k.windowLimit.filter (0 < ·)).toList
      ++ KeyHealth.tokenLimits r responses).IsChain (· ≥ ·))
    (last : ∀ limit ∈ (KeyHealth.tokenLimits r responses).getLast?,
      k.tpmLimit = 0 ∨ limit ≤ k.tpmLimit) :
    (k.learnAll r responses).tpmLimit
        = (KeyHealth.tokenLimits r responses).getLast?.getD k.tpmLimit
      ∧ leastPositive
          (k.windowCap :: KeyHealth.headerValues r "x-ratelimit-limit-tokens" responses)
        = (KeyHealth.tokenLimits r responses).getLast?.getD k.windowCap := by
  obtain ⟨limits, nonneg, below⟩ := falling_parts window falling
  refine ⟨?_, leastPositive_of_falling nonneg limits below⟩
  rw [(k.tpmLimit_learnAll r responses).1, foldl_tighten tpm]
  exact leastPositive_of_falling tpm limits last

theorem LimitsFall.learned (fall : LimitsFall r k responses) (rpm : 0 ≤ k.rpmLimit)
    (tpm : 0 ≤ k.tpmLimit) (window : ∀ limit ∈ k.windowLimit, 0 ≤ limit) :
    LimitsLearned r k responses := by
  obtain ⟨requestsRun, requestsTight⟩ := k.rpmLimit_learnAll r responses
  obtain ⟨tokensRun, tokensTight⟩ := k.tpmLimit_learnAll r responses
  have windowRun := k.windowLimit_learnAll r responses
  obtain ⟨tokensEnd, windowLeast⟩ := ends_of_falling tpm window fall.falling fall.last
  rw [foldl_tighten rpm] at requestsRun
  rw [foldl_tighten tpm] at tokensRun
  refine ⟨requestsTight, tokensTight, (k.neverLoosens_window_iff r window responses).mpr
    fall.falling, ?_, requestsRun, tokensRun, ?_⟩
  · intro w mem
    have limit : w.limit ∈ (k.learnAll r responses).windowLimit := Option.mem_map_of_mem _ mem
    rw [windowRun] at limit
    rw [tokensEnd]
    rcases told : (KeyHealth.tokenLimits r responses).getLast? with _ | last
    · rw [told, Option.none_or] at limit
      exact fall.start (List.getLast?_eq_none_iff.mp told) _ limit
    · rw [told, Option.some_or] at limit
      exact (Option.some.inj limit).symm
  · rw [windowLeast, KeyHealth.windowCap, windowRun]
    cases (KeyHealth.tokenLimits r responses).getLast? <;> rfl

theorem LimitsLearned.fall (learned : LimitsLearned r k responses) (tpm : 0 ≤ k.tpmLimit)
    (window : ∀ limit ∈ k.windowLimit, 0 ≤ limit) : LimitsFall r k responses := by
  have windowRun := k.windowLimit_learnAll r responses
  have agree : ∀ limit ∈ (k.learnAll r responses).windowLimit,
      limit = (k.learnAll r responses).tpmLimit := by
    intro limit mem
    obtain ⟨w, here, rfl⟩ := Option.mem_map.mp mem
    exact learned.agree w here
  refine ⟨(k.neverLoosens_window_iff r window responses).mp learned.window, ?_, ?_⟩
  · -- the window ends at the last limit told, `tpm_limit` at the least
    intro limit ends
    rw [Option.mem_def.mp ends, Option.some_or] at windowRun
    have same := agree limit windowRun
    rw [learned.leastTokens] at same
    rcases tpm.eq_or_lt with zero | positive
    · exact .inl zero.symm
    · rcases leastPositive_spec
        (k.tpmLimit :: KeyHealth.headerValues r "x-ratelimit-limit-tokens" responses)
        with ⟨-, none⟩ | ⟨-, -, below⟩
      · exact absurd positive (none _ List.mem_cons_self)
      · exact .inr (same ▸ below _ List.mem_cons_self positive)
  · intro none limit mem
    have first : (KeyHealth.tokenLimits r responses).getLast? = Option.none := by rw [none]; rfl
    rw [first, Option.none_or] at windowRun
    rw [agree limit (windowRun ▸ mem), learned.leastTokens,
      leastPositive_of_falling tpm (by rw [← KeyHealth.tokenLimits, none]; exact .nil)
        (by
          rw [← KeyHealth.tokenLimits, none]
          exact fun _ mem => absurd mem (Option.not_mem_none _)),
      ← KeyHealth.tokenLimits, first]
    rfl

end

/-- **The limits of a key are learned as promised** if and only if the token limits that the
responses tell fall: `rpm_limit` and `tpm_limit` always are, the window only then. -/
theorem limits_learned_iff (r : HeaderReaders) (k : KeyHealth) (responses : List (ℚ × Headers))
    (rpm : 0 ≤ k.rpmLimit) (tpm : 0 ≤ k.tpmLimit)
    (window : ∀ limit ∈ k.windowLimit, 0 ≤ limit) :
    LimitsLearned r k responses ↔ LimitsFall r k responses :=
  ⟨fun learned => learned.fall tpm window, fun fall => fall.learned rpm tpm window⟩

/-! ### A limit that goes down, and one that goes up -/

/-- The readers, on the numbers of the example. -/
def hundredsReaders : HeaderReaders where
  float := fun _ => none
  int := fun text => if text = "100" then some 100 else if text = "200" then some 200 else none

/-- A response that tells a token limit. -/
def tells (limit : String) (now : ℚ) : ℚ × Headers :=
  (now, [("x-ratelimit-limit-tokens", limit)])

theorem limits_learned_down :
    LimitsLearned hundredsReaders (.fresh (.new 60 0 0)) [tells "200" 1, tells "100" 2] := by
  have told : KeyHealth.tokenLimits hundredsReaders [tells "200" 1, tells "100" 2]
      = [200, 100] := by
    decide +kernel
  have bare : (KeyHealth.fresh (.new 60 0 0)).windowLimit = none := rfl
  refine (limits_learned_iff hundredsReaders (.fresh (.new 60 0 0)) [tells "200" 1, tells "100" 2]
    (le_refl 0) (le_refl 0) fun _ mem => absurd mem (Option.not_mem_none _)).mpr ⟨?_, ?_, ?_⟩
  · rw [told, bare]
    decide
  · exact fun _ _ => .inl rfl
  · rw [told]
    exact fun empty => absurd empty (List.cons_ne_nil _ _)

/-- After `100` and `200` the window allows twice what `tpm_limit` has. -/
theorem window_limit_loosened :
    (KeyHealth.learnAll hundredsReaders (.fresh (.new 60 0 0))
        [tells "100" 1, tells "200" 2]).tpmLimit = 100
      ∧ (KeyHealth.learnAll hundredsReaders (.fresh (.new 60 0 0))
        [tells "100" 1, tells "200" 2]).windowLimit = some 200
      ∧ ¬ LimitsLearned hundredsReaders (.fresh (.new 60 0 0)) [tells "100" 1, tells "200" 2] := by
  have told : KeyHealth.tokenLimits hundredsReaders [tells "100" 1, tells "200" 2]
      = [100, 200] := by
    decide +kernel
  refine ⟨by decide +kernel, by decide +kernel, fun learned => ?_⟩
  have falling := (learned.fall (le_refl 0) fun _ mem => absurd mem (Option.not_mem_none _)).falling
  rw [told] at falling
  exact absurd falling (by decide)

end Zhongzhuan.Proxy
