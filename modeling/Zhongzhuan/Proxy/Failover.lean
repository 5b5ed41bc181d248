import Zhongzhuan.Proxy.RetryKey

/-!
# Failover between the members of a group

A retry loop in a failover group picks each key with `_next_failover_key`, which looks at the
members in order and at the keys that this request has not tried.  Between two picks other
requests use the same keys, so every pick finds its own `Rating`: which keys are available, and
how the available ones score.

`KeepsOrder` is what a group is there for: each pick is a key of the first member that still has
an untried available one, and the loop gives up only when no member has one.  The first member
with an untried key decides, whether that key is available or not, so the loop keeps the order
exactly as long as the rounds find an available key there (`keepsOrder_iff`).
-/

namespace Zhongzhuan.Proxy

/-- The health of the candidates when a key is picked. -/
structure Rating where
  /-- `is_available()`. -/
  available : Candidate → Bool
  /-- The score of an available key, between 0 and 1. -/
  rate : Candidate → ℚ
  nonneg : ∀ k, 0 ≤ rate k

/-- `score`. -/
def Rating.score (r : Rating) (k : Candidate) : ℚ := if r.available k then r.rate k else -1

theorem Rating.score_le_iff {r : Rating} {k : Candidate} :
    r.score k ≤ -1 ↔ r.available k = false := by
  unfold Rating.score
  split
  case isTrue available =>
    have := r.nonneg k
    rw [available]
    exact iff_of_false (by linarith) (by decide)
  case isFalse unavailable => simpa using unavailable

section Group

variable (candidates : List Candidate) (order : List ℕ)

/-- A member has a key that is not tried. -/
def HasUntried (tried : Finset ℕ) (mid : ℕ) : Prop :=
  ∃ k ∈ candidates, k.modelId = mid ∧ k.keyId ∉ tried

/-- A member has a key that is available and not tried. -/
def HasAvailable (r : Rating) (tried : Finset ℕ) (mid : ℕ) : Prop :=
  ∃ k ∈ candidates, (k.modelId = mid ∧ k.keyId ∉ tried) ∧ r.available k = true

instance (tried : Finset ℕ) : DecidablePred (HasUntried candidates tried) := fun _ =>
  inferInstanceAs (Decidable (∃ k ∈ candidates, _))

instance (r : Rating) (tried : Finset ℕ) : DecidablePred (HasAvailable candidates r tried) :=
  fun _ => inferInstanceAs (Decidable (∃ k ∈ candidates, _))

/-- The pick of one round. -/
def pick (r : Rating) (tried : Finset ℕ) : Option Candidate :=
  nextFailoverKey r.score candidates tried order

/-- The pick is an available untried key of the first member that has one, if one has. -/
def PicksRight (r : Rating) (tried : Finset ℕ) : Prop :=
  match order.find? fun mid => decide (HasAvailable candidates r tried mid) with
  | some mid => ∃ k ∈ candidates, pick candidates order r tried = some k ∧ k.modelId = mid
      ∧ k.keyId ∉ tried ∧ r.available k = true
  | none => pick candidates order r tried = none

/-- If any member has an available untried key, the first member with an untried one has. -/
def FirstTierOpen (r : Rating) (tried : Finset ℕ) : Prop :=
  ∀ mid, (order.find? fun mid => decide (HasUntried candidates tried mid)) = some mid →
    (∃ other ∈ order, HasAvailable candidates r tried other) →
      HasAvailable candidates r tried mid

/-- A condition on every round of a retry loop that is reached.  A key that was picked is
tried. -/
def Rounds (P : Rating → Finset ℕ → Prop) (tried : Finset ℕ) : List Rating → Prop
  | [] => True
  | r :: rs => P r tried ∧ ∀ k, pick candidates order r tried = some k →
      Rounds P (insert k.keyId tried) rs

/-- A round in which the loop goes on, or no member has an available untried key. -/
def GivesUpInTime (r : Rating) (tried : Finset ℕ) : Prop :=
  pick candidates order r tried = none →
    ∀ mid ∈ order, ¬ HasAvailable candidates r tried mid

/-- What a failover group is there for. -/
def KeepsOrder (tried : Finset ℕ) (rs : List Rating) : Prop :=
  Rounds candidates order (PicksRight candidates order) tried rs
    ∧ Rounds candidates order (GivesUpInTime candidates order) tried rs

/-! ## One pick -/

variable {candidates order} {r : Rating} {tried : Finset ℕ}

theorem HasAvailable.untried {mid : ℕ} (available : HasAvailable candidates r tried mid) :
    HasUntried candidates tried mid := by
  obtain ⟨k, mem, untried, -⟩ := available
  exact ⟨k, mem, untried⟩

theorem pick_eq (candidates : List Candidate) (order : List ℕ) (r : Rating)
    (tried : Finset ℕ) :
    pick candidates order r tried
      = (order.find? fun mid => decide (HasUntried candidates tried mid)).bind fun mid =>
          pickKey r.score (candidates.filter fun k => k.modelId = mid ∧ k.keyId ∉ tried) := by
  unfold pick
  induction order with
  | nil => rfl
  | cons mid order ih =>
      have empty : candidates.filter (fun k => decide (k.modelId = mid ∧ k.keyId ∉ tried)) = []
          ↔ ¬ HasUntried candidates tried mid := by
        simp only [List.filter_eq_nil_iff, decide_eq_true_eq, HasUntried, not_exists, not_and]
      unfold nextFailoverKey
      dsimp only
      by_cases untried : HasUntried candidates tried mid
      · rw [if_neg fun none => empty.mp none untried,
          List.find?_cons_of_pos (by simpa using untried), Option.bind_some]
      · rw [if_pos (empty.mpr untried), List.find?_cons_of_neg (by simpa using untried), ih]

theorem pickKey_tier_eq_none {mid : ℕ} :
    pickKey r.score (candidates.filter fun k => k.modelId = mid ∧ k.keyId ∉ tried) = none
      ↔ ¬ HasAvailable candidates r tried mid := by
  simp only [pickKey_eq_none, List.mem_filter, decide_eq_true_eq, Rating.score_le_iff,
    HasAvailable, not_exists, not_and, and_imp, Bool.not_eq_true]

theorem pickKey_tier_some {mid : ℕ} {k : Candidate}
    (picked : pickKey r.score
      (candidates.filter fun k => k.modelId = mid ∧ k.keyId ∉ tried) = some k) :
    k ∈ candidates ∧ k.modelId = mid ∧ k.keyId ∉ tried ∧ r.available k = true := by
  obtain ⟨mem, higher⟩ := pickKey_some picked
  simp only [List.mem_filter, decide_eq_true_eq] at mem
  refine ⟨mem.1, mem.2.1, mem.2.2, ?_⟩
  by_contra unavailable
  exact absurd higher (not_lt.mpr (Rating.score_le_iff.mpr (Bool.eq_false_iff.mpr unavailable)))

theorem find_available_of_open {mid : ℕ}
    (first : (order.find? fun mid => decide (HasUntried candidates tried mid)) = some mid)
    (available : HasAvailable candidates r tried mid) :
    (order.find? fun mid => decide (HasAvailable candidates r tried mid)) = some mid := by
  obtain ⟨-, before, after, rfl, earlier⟩ := List.find?_eq_some_iff_append.mp first
  refine List.find?_eq_some_iff_append.mpr ⟨decide_eq_true available, before, after, rfl, ?_⟩
  intro other mem
  have tried_ := earlier other mem
  simp only [Bool.not_eq_true', decide_eq_false_iff_not] at tried_ ⊢
  exact fun open_ => tried_ open_.untried

theorem givesUpInTime_iff :
    GivesUpInTime candidates order r tried ↔ FirstTierOpen candidates order r tried := by
  unfold GivesUpInTime FirstTierOpen
  rw [pick_eq]
  cases first : order.find? fun mid => decide (HasUntried candidates tried mid) with
  | none =>
      have none_ : ∀ mid ∈ order, ¬ HasAvailable candidates r tried mid := by
        intro mid mem open_
        have tried_ := List.find?_eq_none.mp first mid mem
        exact tried_ (decide_eq_true open_.untried)
      exact iff_of_true (fun _ => none_) (by simp)
  | some mid =>
      rw [Option.bind_some, pickKey_tier_eq_none]
      simp only [Option.some.injEq, forall_eq']
      constructor
      · rintro inTime ⟨other, mem, open_⟩
        by_contra closed
        exact inTime closed other mem open_
      · intro opens closed other mem open_
        exact closed (opens ⟨other, mem, open_⟩)

/-- **A pick is right exactly when the first tier with an untried key is open**, if any is. -/
theorem picksRight_iff :
    PicksRight candidates order r tried ↔ FirstTierOpen candidates order r tried := by
  unfold PicksRight
  cases first : order.find? fun mid => decide (HasUntried candidates tried mid) with
  | none =>
      have closed : (order.find? fun mid => decide (HasAvailable candidates r tried mid))
          = none := by
        refine List.find?_eq_none.mpr fun mid mem open_ => ?_
        exact List.find?_eq_none.mp first mid mem
          (decide_eq_true (of_decide_eq_true open_).untried)
      rw [closed]
      dsimp only
      rw [pick_eq, first]
      refine iff_of_true rfl fun mid is => ?_
      rw [first] at is
      cases is
  | some mid =>
      by_cases available : HasAvailable candidates r tried mid
      · rw [find_available_of_open first available]
        dsimp only
        refine iff_of_true ?_ fun mid' is _ => ?_
        · obtain ⟨k, picked⟩ := Option.ne_none_iff_exists'.mp
            fun none => pickKey_tier_eq_none.mp none available
          obtain ⟨mem, model, untried, open_⟩ := pickKey_tier_some picked
          refine ⟨k, mem, ?_, model, untried, open_⟩
          rw [pick_eq, first, Option.bind_some, picked]
        · rw [first] at is
          rwa [← Option.some.inj is]
      · have nothing : pick candidates order r tried = none := by
          rw [pick_eq, first, Option.bind_some, pickKey_tier_eq_none]
          exact available
        rw [nothing, ← givesUpInTime_iff, GivesUpInTime, nothing]
        cases open_ : order.find? fun mid => decide (HasAvailable candidates r tried mid) with
        | none =>
            refine iff_of_true rfl fun _ other mem here => ?_
            exact List.find?_eq_none.mp open_ other mem (decide_eq_true here)
        | some other =>
            refine iff_of_false ?_ fun inTime => ?_
            · rintro ⟨k, -, picked, -⟩
              cases picked
            · have here := List.find?_some open_
              exact inTime rfl other (List.mem_of_find?_eq_some open_) (by simpa using here)

/-! ## Retry loops -/

theorem rounds_congr {P Q : Rating → Finset ℕ → Prop} (same : ∀ r tried, P r tried ↔ Q r tried)
    (tried : Finset ℕ) (rs : List Rating) :
    Rounds candidates order P tried rs ↔ Rounds candidates order Q tried rs := by
  induction rs generalizing tried with
  | nil => exact Iff.rfl
  | cons r rs ih =>
      unfold Rounds
      rw [same]
      exact and_congr_right fun _ => forall_congr' fun k => imp_congr_right fun _ => ih _

/-- **A retry loop keeps the order of the members exactly when every round finds the first tier
with an untried key open**, if any tier is. -/
theorem keepsOrder_iff (candidates : List Candidate) (order : List ℕ) (tried : Finset ℕ)
    (rs : List Rating) :
    KeepsOrder candidates order tried rs
      ↔ Rounds candidates order (FirstTierOpen candidates order) tried rs := by
  unfold KeepsOrder
  rw [rounds_congr (fun _ _ => picksRight_iff) tried rs,
    rounds_congr (fun _ _ => givesUpInTime_iff) tried rs, and_self]

/-- Two members with one key each. -/
def primaryAndBackup : List Candidate := [⟨1, 1⟩, ⟨2, 2⟩]

/-- The key of the primary member cools down. -/
def primaryCooling : Rating where
  available k := k.keyId ≠ 1
  rate _ := 1
  nonneg _ := by norm_num

/-- The backup is never tried. -/
theorem primaryCooling_givesUp : ¬ KeepsOrder primaryAndBackup [1, 2] ∅ [primaryCooling] := by
  intro keeps
  have gaveUp : pick primaryAndBackup [1, 2] primaryCooling ∅ = none := by decide +kernel
  exact keeps.2.1 gaveUp 2 (by decide) (by decide)

end Group

end Zhongzhuan.Proxy
