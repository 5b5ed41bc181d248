import Mathlib

/-!
# The key of the next attempt

What `_v3_select_retry_key` picks among the candidates of a create: the key that the capability
router decided for, as long as it is untried, and after it the untried key with the best health
score, in a failover group among the keys of the first member that has one.

* `pickKey`, `nextFailoverKey` and `selectRetryKey` are the functions of the source.  The score
  of a candidate is taken anew at every attempt; a key that is not available scores `-1`.
* `V3Candidates` are the candidates with the decision, as the handler gets them: one entry for
  each row of `api_keys`, and a decision for one of them.
-/

namespace Zhongzhuan.Proxy

/-- The fields of a `KeyHealth` that the choice reads, besides those that its score reads. -/
structure Candidate where
  keyId : ℕ
  modelId : ℕ
deriving DecidableEq, Repr

/-- One turn of the loop of `pick_key`. -/
def better (score : Candidate → ℚ) (best : Option Candidate × ℚ) (k : Candidate) :
    Option Candidate × ℚ :=
  if best.2 < score k then (some k, score k) else best

/-- `pick_key`. -/
def pickKey (score : Candidate → ℚ) (keys : List Candidate) : Option Candidate :=
  (keys.foldl (better score) (none, -1)).1

/-- `_next_failover_key`. -/
def nextFailoverKey (score : Candidate → ℚ) (candidates : List Candidate) (tried : Finset ℕ) :
    List ℕ → Option Candidate
  | [] => none
  | mid :: order =>
    let pool := candidates.filter fun k => k.modelId = mid ∧ k.keyId ∉ tried
    if pool = [] then nextFailoverKey score candidates tried order else pickKey score pool

/-- The part of a `RouteDecision` that an attempt uses. -/
structure RouteDecision where
  key : Candidate
  upstreamPath : String
  isNative : Bool
deriving DecidableEq, Repr

/-- The candidates of a create. -/
structure V3Candidates where
  candidates : List Candidate
  /-- `_failover_member_order`, where the request names a failover group. -/
  memberOrder : Option (List ℕ)
  /-- `prep.decision`. -/
  decision : RouteDecision
  nodup : (candidates.map Candidate.keyId).Nodup
  routed : decision.key ∈ candidates

/-- `_v3_select_retry_key`. -/
def V3Candidates.selectRetryKey (c : V3Candidates) (score : Candidate → ℚ) (tried : Finset ℕ) :
    Option RouteDecision :=
  if c.decision.key.keyId ∉ tried then some c.decision
  else
    let nk :=
      match c.memberOrder with
      | some order => nextFailoverKey score c.candidates tried order
      | none => pickKey score (c.candidates.filter fun k => k.keyId ∉ tried)
    nk.map fun key =>
      { key := key
        upstreamPath := c.decision.upstreamPath
        isNative := c.decision.isNative }

/-! ## What is picked -/

variable {score : Candidate → ℚ}

variable (score) in
theorem foldl_better (keys : List Candidate) (best : Option Candidate × ℚ) :
    (keys.foldl (better score) best = best ∧ ∀ k ∈ keys, score k ≤ best.2)
      ∨ ∃ k ∈ keys, keys.foldl (better score) best = (some k, score k) ∧ best.2 < score k := by
  induction keys generalizing best with
  | nil => simp
  | cons k keys ih =>
      rw [List.foldl_cons]
      by_cases above : best.2 < score k
      · have turn : better score best k = (some k, score k) := if_pos above
        rw [turn]
        rcases ih (some k, score k) with ⟨same, -⟩ | ⟨j, mem, found, higher⟩
        · exact .inr ⟨k, List.mem_cons_self, same, above⟩
        · exact .inr ⟨j, List.mem_cons_of_mem k mem, found, above.trans higher⟩
      · have turn : better score best k = best := if_neg above
        rw [turn]
        rcases ih best with ⟨same, low⟩ | ⟨j, mem, found, higher⟩
        · refine .inl ⟨same, ?_⟩
          rintro j mem
          rcases List.mem_cons.mp mem with rfl | mem
          · exact not_lt.mp above
          · exact low j mem
        · exact .inr ⟨j, List.mem_cons_of_mem k mem, found, higher⟩

theorem pickKey_some {keys : List Candidate} {k : Candidate}
    (picked : pickKey score keys = some k) : k ∈ keys ∧ -1 < score k := by
  unfold pickKey at picked
  rcases foldl_better score keys (none, -1) with
    ⟨same, -⟩ | ⟨j, mem, found, higher⟩
  · simp [same] at picked
  · obtain rfl : j = k := by simpa [found] using picked
    exact ⟨mem, higher⟩

theorem pickKey_eq_none {keys : List Candidate} :
    pickKey score keys = none ↔ ∀ k ∈ keys, score k ≤ -1 := by
  unfold pickKey
  rcases foldl_better score keys (none, -1) with
    ⟨same, low⟩ | ⟨j, mem, found, higher⟩
  · simpa [same] using low
  · simp only [found, reduceCtorEq, false_iff]
    exact fun low => absurd higher (not_lt.mpr (low j mem))

theorem nextFailoverKey_some {candidates : List Candidate} {tried : Finset ℕ} {order : List ℕ}
    {k : Candidate} (picked : nextFailoverKey score candidates tried order = some k) :
    k ∈ candidates ∧ k.keyId ∉ tried := by
  induction order with
  | nil => simp [nextFailoverKey] at picked
  | cons mid order ih =>
      unfold nextFailoverKey at picked
      dsimp only at picked
      split at picked
      · exact ih picked
      · have mem := (pickKey_some picked).1
        simp only [List.mem_filter, decide_eq_true_eq] at mem
        exact ⟨mem.1, mem.2.2⟩

theorem nextFailoverKey_of_tried {candidates : List Candidate} {tried : Finset ℕ}
    {order : List ℕ} (all : ∀ k ∈ candidates, k.keyId ∈ tried) :
    nextFailoverKey score candidates tried order = none := by
  rw [Option.eq_none_iff_forall_not_mem]
  intro k picked
  obtain ⟨mem, untried⟩ := nextFailoverKey_some picked
  exact untried (all k mem)

/-- Where all untried candidates are of one member, a failover group picks as any other. -/
theorem nextFailoverKey_eq_pickKey {candidates : List Candidate} {tried : Finset ℕ}
    {order : List ℕ} {m : ℕ} (mem : m ∈ order)
    (one : ∀ k ∈ candidates, k.keyId ∉ tried → k.modelId = m) :
    nextFailoverKey score candidates tried order
      = pickKey score (candidates.filter fun k => k.keyId ∉ tried) := by
  have pool : candidates.filter (fun k => decide (k.modelId = m ∧ k.keyId ∉ tried))
      = candidates.filter fun k => k.keyId ∉ tried := by
    apply List.filter_congr
    intro k inside
    simpa using one k inside
  induction order with
  | nil => simp at mem
  | cons mid order ih =>
      unfold nextFailoverKey
      dsimp only
      by_cases here : mid = m
      · subst here
        rw [pool]
        split
        case isFalse _ => rfl
        case isTrue empty =>
          have all : ∀ k ∈ candidates, k.keyId ∈ tried := by
            intro k inside
            simpa using List.filter_eq_nil_iff.mp empty k inside
          rw [nextFailoverKey_of_tried all, empty]
          rfl
      · have empty : candidates.filter (fun k => decide (k.modelId = mid ∧ k.keyId ∉ tried))
            = [] := by
          rw [List.filter_eq_nil_iff]
          rintro k inside both
          obtain ⟨model, untried⟩ := of_decide_eq_true both
          exact here (model.symm.trans (one k inside untried))
        rw [if_pos empty]
        exact ih ((List.mem_cons.mp mem).resolve_left (Ne.symm here))

namespace V3Candidates

variable {c : V3Candidates} {tried : Finset ℕ} {d : RouteDecision}

/-- The keys that are not tried. -/
def untried (c : V3Candidates) (tried : Finset ℕ) : List Candidate :=
  c.candidates.filter fun k => k.keyId ∉ tried

@[simp] theorem mem_untried {k : Candidate} :
    k ∈ c.untried tried ↔ k ∈ c.candidates ∧ k.keyId ∉ tried := by
  simp [untried]

theorem selectRetryKey_some (picked : c.selectRetryKey score tried = some d) :
    d.key ∈ c.candidates ∧ d.key.keyId ∉ tried := by
  unfold selectRetryKey at picked
  split at picked
  case isTrue fresh =>
    obtain rfl : c.decision = d := by simpa using picked
    exact ⟨c.routed, fresh⟩
  case isFalse _ =>
    obtain ⟨k, found, rfl⟩ := Option.map_eq_some_iff.mp picked
    cases h : c.memberOrder with
    | some order =>
        simp only [h] at found
        exact nextFailoverKey_some found
    | none =>
        simp only [h] at found
        exact mem_untried.mp (pickKey_some found).1

theorem selectRetryKey_first : c.selectRetryKey score ∅ = some c.decision := by
  simp [selectRetryKey]

end V3Candidates

end Zhongzhuan.Proxy
