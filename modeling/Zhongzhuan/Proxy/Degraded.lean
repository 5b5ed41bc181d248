import Zhongzhuan.Kit.Sort
import Zhongzhuan.Kit.Text
import Zhongzhuan.Proxy.Failover
import Zhongzhuan.Proxy.KeyHealth

/-!
# Candidates, and the attempt with a key that still cools down

`resolveCandidates` finds the available keys for a requested model: the members of the group of
this name, else the keys of the model, else those that have it as an alias.  Where it finds none,
`resolveDegraded` chooses among the keys that cool down the one whose cooldown ends first, and the
legacy paths are meant to try it once.

* `resolveCandidates` and `resolveDegraded` are the functions of the source.  They return the
  keys as they are; that `is_available` shifts the windows on which it decides is left out.
* `nonstreamKey` and `streamKey` are the key of the first upstream request that the selection
  code of `__call__` and of `_stream_proxy` sends, if it sends one.
* `Rescued` is what the degraded attempt is there for.
-/

namespace Zhongzhuan.Proxy

open Kit

/-- A `KeyHealth` with the fields that a request is matched against. -/
structure PoolKey where
  keyId : ℕ
  modelId : ℕ
  modelName : String
  /-- Separated by commas. -/
  aliases : String
  health : KeyHealth
deriving DecidableEq

/-- An entry of `_groups`; `members` are those of `member_order`, as a set. -/
structure KeyGroup where
  strategy : String
  memberOrder : List ℕ
deriving DecidableEq

/-- `_groups`, as `_set_groups` builds it: without a group that has no name. -/
structure GroupTable where
  get : String → Option KeyGroup
  unnamed : get "" = none

/-- `grp["members"]`, empty where there is no group. -/
def GroupTable.members (groups : GroupTable) (requestedModel : String) : List ℕ :=
  ((groups.get requestedModel).map KeyGroup.memberOrder).getD []

/-- `_failover_member_order`. -/
def GroupTable.failoverMemberOrder (groups : GroupTable) (requestedModel : String) :
    Option (List ℕ) :=
  (groups.get requestedModel).bind fun group =>
    if group.strategy = "failover" ∧ group.memberOrder ≠ [] then some group.memberOrder else none

namespace PoolKey

/-- The names in `aliases`. -/
def aliasNames (k : PoolKey) : List String :=
  ((k.aliases.toList.splitOn ',').map fun name => String.ofList (strip name)).filter (· ≠ "")

/-- `is_available()`. -/
def available (k : PoolKey) (now : ℚ) : Bool := (k.health.isAvailable now).2

/-- `k.cooldown_until > now`. -/
def cooling (k : PoolKey) (now : ℚ) : Bool := (PyFloat.finite now).lt k.health.cooldownUntil

/-- The cooldown has ended. -/
def cleared (k : PoolKey) (now : ℚ) : PoolKey :=
  { k with health := { k.health with cooldownUntil := .finite now } }

/-- The checks of `is_available` besides the status and the cooldown: the rate windows. -/
def hasRoom (k : PoolKey) (now : ℚ) : Bool :=
  (k.health.rpmRoom now).2
    && ((k.health.rpmRoom now).1.tpmRoom now).2
    && (((k.health.rpmRoom now).1.tpmRoom now).1.rpdRoom now).2

/-- What the schedulers see of a key. -/
def toCandidate (k : PoolKey) : Candidate := ⟨k.keyId, k.modelId⟩

end PoolKey

section Resolve

variable (groups : GroupTable) (pool : List PoolKey) (requestedModel : String) (now : ℚ)

/-- The first of three lists that is not empty, else the last. -/
def firstFilled (lists : List (List PoolKey)) (otherwise : List PoolKey) : List PoolKey :=
  (lists.find? (· ≠ [])).getD otherwise

/-- `_resolve_candidates`. -/
def resolveCandidates : List PoolKey :=
  let available := pool.filter (·.available now)
  if requestedModel = "" then available
  else
    firstFilled
      [available.filter (·.modelId ∈ groups.members requestedModel),
        available.filter (·.modelName = requestedModel),
        available.filter fun k => requestedModel ∈ k.aliasNames]
      (if ∀ k ∈ available, k.modelName = "" then available else [])

/-- The matching of `_resolve_degraded`. -/
def degradedMatch (k : PoolKey) : Bool :=
  if requestedModel = "" then true
  else if groups.members requestedModel ≠ [] then k.modelId ∈ groups.members requestedModel
  else k.modelName = requestedModel

/-- The keys `_resolve_degraded` chooses from. -/
def degradedPool : List PoolKey :=
  pool.filter fun k => k.health.status ≠ .invalid ∧ degradedMatch groups requestedModel k
    ∧ k.cooling now

/-- The cooldown of one key ends before that of another. -/
def coolsBefore (k k' : PoolKey) : Bool :=
  k.health.cooldownUntil.lt k'.health.cooldownUntil

/-- `_resolve_degraded`. -/
def resolveDegraded : Option PoolKey :=
  firstLeast coolsBefore (degradedPool groups pool requestedModel now)

end Resolve

/-! ## The selection of the legacy paths -/

/-- What the selection finds when it runs: the health of the keys, the key to which the session
is bound by a binding that has not expired and whose capabilities suffice, and the keys whose
window admits a request and whose client can be made. -/
structure Moment where
  rating : Rating
  bound : Option ℕ
  admits : Candidate → Bool

section Select

variable (failoverOrder : Option (List ℕ)) (candidates : List Candidate) (m : Moment)

/-- The choice by the group's order, or by the score. -/
def scheduledKey (tried : Finset ℕ) : Option Candidate :=
  match failoverOrder with
  | some order => nextFailoverKey m.rating.score candidates tried order
  | none => pickKey m.rating.score (candidates.filter fun k => k.keyId ∉ tried)

/-- `_get_sticky_key`. -/
def stickyKey : Option Candidate :=
  candidates.find? fun k => m.bound = some k.keyId ∧ m.rating.available k

/-- The choice of one round: the first prefers the key of the session. -/
def roundKey (tried : Finset ℕ) : Option Candidate :=
  if tried = ∅ then (stickyKey candidates m).or (scheduledKey failoverOrder candidates m ∅)
  else scheduledKey failoverOrder candidates m tried

/-- The rounds of a selection until a request is sent. -/
def firstSent (choose : Finset ℕ → Option Candidate) : ℕ → Finset ℕ → Option Candidate
  | 0, _ => none
  | rounds + 1, tried =>
    (choose tried).bind fun k =>
      if m.admits k then some k else firstSent choose rounds (insert k.keyId tried)

/-- The key of the first request of the non-streaming loop.  It goes on until no key is chosen,
and each round chooses another key. -/
def nonstreamKey : Option Candidate :=
  firstSent m (roundKey failoverOrder candidates m) (candidates.length + 1) ∅

/-- The key of the first request of the streaming loop, in its first pass over the candidates; in
the degraded mode an untried key is taken where none is chosen. -/
def streamKey (degradedMode : Bool) : Option Candidate :=
  firstSent m
    (fun tried => (roundKey failoverOrder candidates m tried).or
      (if degradedMode then (candidates.filter fun k => k.keyId ∉ tried).head? else none))
    candidates.length ∅

end Select

/-! ## What the degraded attempt is there for -/

section Law

variable (groups : GroupTable) (pool : List PoolKey) (requestedModel : String) (now : ℚ)

/-- A key that an ended cooldown could make available. -/
def PoolKey.Clearable (k : PoolKey) : Prop := k.health.status ≠ .invalid ∧ k.cooling now = true

instance : DecidablePred (PoolKey.Clearable now) := fun _ => inferInstanceAs (Decidable (_ ∧ _))

/-- The pool in which the cooldowns of some keys have ended. -/
def clearedPool (chosen : PoolKey → Prop) [DecidablePred chosen] : List PoolKey :=
  pool.map fun k => if chosen k then k.cleared now else k

/-- If the cooldowns of some keys had ended, there would be candidates. -/
def Recoverable : Prop :=
  ∃ chosen : PoolKey → Bool, (∀ k ∈ pool, chosen k = true → k.Clearable now)
    ∧ resolveCandidates groups (clearedPool pool now (chosen · = true)) requestedModel now ≠ []

/-- The keys that would be candidates if all cooldowns had ended. -/
def recovered : List PoolKey :=
  pool.filter fun k => k.Clearable now ∧ k.cleared now
    ∈ resolveCandidates groups (clearedPool pool now (PoolKey.Clearable now)) requestedModel now

/-- A key that a request is matched with by some rule. -/
def Matches (k : PoolKey) : Prop :=
  requestedModel = "" ∨ k.modelId ∈ groups.members requestedModel
    ∨ k.modelName = requestedModel ∨ requestedModel ∈ k.aliasNames

/-- If there could be candidates, the degraded key is one of them, none of which cools down
before it, and both paths send it a request if its window admits one; and it is always a key
that matches. -/
structure Rescued (m : Moment) : Prop where
  chooses : Recoverable groups pool requestedModel now →
    ∃ k ∈ recovered groups pool requestedModel now,
      resolveDegraded groups pool requestedModel now = some k
        ∧ (∀ other ∈ recovered groups pool requestedModel now, coolsBefore other k = false)
        ∧ (m.admits k.toCandidate = true →
          nonstreamKey (groups.failoverMemberOrder requestedModel) [k.toCandidate] m
              = some k.toCandidate
            ∧ streamKey (groups.failoverMemberOrder requestedModel) [k.toCandidate] m true
              = some k.toCandidate)
  matches_ : ∀ k, resolveDegraded groups pool requestedModel now = some k →
    Matches groups requestedModel k

/-- If there could be candidates, then of the keys that cool down and match by the rule that
comes first, the one whose cooldown ends first has room in its windows, and it has become
available by the time it is scored. -/
def CoolestOpen (m : Moment) : Prop :=
  Recoverable groups pool requestedModel now →
    ∃ k, IsFirstLeast coolsBefore (degradedPool groups pool requestedModel now) k
      ∧ k.hasRoom now = true
      ∧ (m.admits k.toCandidate = true → m.rating.available k.toCandidate = true)

variable {groups pool requestedModel now}

/-! ## Matching -/

theorem rpmRoom_withCooldown (h : KeyHealth) (c : PyFloat) :
    { h with cooldownUntil := c }.rpmRoom now
      = ({ (h.rpmRoom now).1 with cooldownUntil := c }, (h.rpmRoom now).2) := by
  unfold KeyHealth.rpmRoom
  dsimp only
  split <;> rfl

theorem tpmRoom_withCooldown (h : KeyHealth) (c : PyFloat) :
    { h with cooldownUntil := c }.tpmRoom now
      = ({ (h.tpmRoom now).1 with cooldownUntil := c }, (h.tpmRoom now).2) := by
  unfold KeyHealth.tpmRoom
  dsimp only
  split
  case h_1 w held =>
    split <;> rfl
  case h_2 _ => rfl

theorem rpdRoom_withCooldown (h : KeyHealth) (c : PyFloat) :
    ({ h with cooldownUntil := c }.rpdRoom now).2 = (h.rpdRoom now).2 := by
  unfold KeyHealth.rpdRoom KeyHealth.maybeResetRpd
  dsimp only
  split
  case isTrue _ => split <;> rfl
  case isFalse _ => rfl

theorem available_cleared {k : PoolKey} (valid : k.health.status ≠ .invalid) :
    (k.cleared now).available now = k.hasRoom now := by
  unfold PoolKey.available PoolKey.cleared PoolKey.hasRoom KeyHealth.isAvailable
  dsimp only
  rw [if_neg valid, PyFloat.lt_finite, if_neg (by simp), rpmRoom_withCooldown]
  dsimp only
  rw [tpmRoom_withCooldown]
  cases (k.health.rpmRoom now).2 with
  | false => simp
  | true =>
      cases ((k.health.rpmRoom now).1.tpmRoom now).2 with
      | false => simp
      | true => exact rpdRoom_withCooldown _ _

theorem mem_degradedPool {k : PoolKey} :
    k ∈ degradedPool groups pool requestedModel now
      ↔ k ∈ pool ∧ k.Clearable now ∧ degradedMatch groups requestedModel k = true := by
  unfold degradedPool PoolKey.Clearable
  rw [List.mem_filter, decide_eq_true_eq]
  tauto

theorem resolveCandidates_of_match {k : PoolKey} (mem : k ∈ pool)
    (available : k.available now = true)
    (matched : degradedMatch groups requestedModel k = true) :
    resolveCandidates groups pool requestedModel now
      = (pool.filter (·.available now)).filter (degradedMatch groups requestedModel) := by
  have here : k ∈ pool.filter (·.available now) := List.mem_filter.mpr ⟨mem, available⟩
  unfold resolveCandidates
  dsimp only
  generalize pool.filter (·.available now) = keys at here ⊢
  have filled : ∀ p : PoolKey → Bool, p k = true → keys.filter p ≠ [] := fun p holds =>
    List.ne_nil_of_mem (List.mem_filter.mpr ⟨here, holds⟩)
  unfold degradedMatch at matched ⊢
  by_cases unnamed : requestedModel = ""
  · simp only [if_pos unnamed, List.filter_true]
  · simp only [if_neg unnamed] at matched ⊢
    by_cases group : groups.members requestedModel ≠ []
    · simp only [if_pos group] at matched ⊢
      have first := filled (fun k => decide (k.modelId ∈ groups.members requestedModel)) matched
      rw [firstFilled, List.find?_cons_of_pos (by simpa using first)]
      rfl
    · simp only [if_neg group] at matched ⊢
      have second := filled (fun k => decide (k.modelName = requestedModel)) matched
      have none : keys.filter (fun k => decide (k.modelId ∈ groups.members requestedModel))
          = [] := by
        rw [not_ne_iff.mp group]
        simp
      rw [firstFilled, List.find?_cons_of_neg (by simp [none]),
        List.find?_cons_of_pos (by simpa using second)]
      rfl

theorem mem_clearedPool {chosen : PoolKey → Prop} [DecidablePred chosen] {k : PoolKey}
    (mem : k ∈ pool) (is : chosen k) : k.cleared now ∈ clearedPool pool now chosen :=
  List.mem_map.mpr ⟨k, mem, if_pos is⟩

theorem resolveCandidates_subset {k : PoolKey}
    (mem : k ∈ resolveCandidates groups pool requestedModel now) :
    k ∈ pool ∧ k.available now = true := by
  have of_filled : ∀ (lists : List (List PoolKey)) (otherwise : List PoolKey),
      (∀ keys ∈ otherwise :: lists, ∀ k ∈ keys, k ∈ pool.filter (·.available now)) →
        k ∈ firstFilled lists otherwise → k ∈ pool.filter (·.available now) := by
    intro lists otherwise parts inside
    unfold firstFilled at inside
    cases found : lists.find? (· ≠ []) with
    | none =>
        rw [found] at inside
        exact parts _ List.mem_cons_self k inside
    | some keys =>
        rw [found] at inside
        exact parts _ (List.mem_cons_of_mem _ (List.mem_of_find?_eq_some found)) k inside
  suffices inside : k ∈ pool.filter (·.available now) from List.mem_filter.mp inside
  unfold resolveCandidates at mem
  dsimp only at mem
  split at mem
  case isTrue _ => exact mem
  case isFalse _ =>
    refine of_filled _ _ (fun keys part j inside => ?_) mem
    simp only [List.mem_cons, List.not_mem_nil, or_false] at part
    rcases part with rfl | rfl | rfl | rfl
    · split at inside
      · exact inside
      · cases inside
    all_goals exact List.mem_of_mem_filter inside

theorem hasRoom_of_recovered {k : PoolKey} (mem : k ∈ recovered groups pool requestedModel now) :
    k.Clearable now ∧ k.hasRoom now = true := by
  unfold recovered at mem
  rw [List.mem_filter, decide_eq_true_eq] at mem
  obtain ⟨-, clearable, resolved⟩ := mem
  refine ⟨clearable, ?_⟩
  rw [← available_cleared clearable.1]
  exact (resolveCandidates_subset resolved).2

theorem degradedMatch_cleared (k : PoolKey) :
    degradedMatch groups requestedModel (k.cleared now) = degradedMatch groups requestedModel k :=
  rfl

theorem recovered_of_room {k : PoolKey} (inPool : k ∈ degradedPool groups pool requestedModel now)
    (room : k.hasRoom now = true) :
    k ∈ recovered groups pool requestedModel now
      ∧ ∀ other ∈ recovered groups pool requestedModel now,
        other ∈ degradedPool groups pool requestedModel now := by
  obtain ⟨mem, clearable, matched⟩ := mem_degradedPool.mp inPool
  have available : (k.cleared now).available now = true := by
    rw [available_cleared clearable.1, room]
  have inside : k.cleared now ∈ clearedPool pool now (PoolKey.Clearable now) :=
    mem_clearedPool mem clearable
  have matched' : degradedMatch groups requestedModel (k.cleared now) = true := by
    rw [degradedMatch_cleared, matched]
  have resolved := resolveCandidates_of_match inside available matched'
  unfold recovered
  rw [resolved]
  refine ⟨?_, fun other inside => ?_⟩
  · rw [List.mem_filter, decide_eq_true_eq, List.mem_filter, List.mem_filter]
    exact ⟨mem, clearable, ⟨inside, available⟩, matched'⟩
  · rw [List.mem_filter, decide_eq_true_eq] at inside
    obtain ⟨mem', clearable', among⟩ := inside
    exact mem_degradedPool.mpr ⟨mem', clearable', (List.mem_filter.mp among).2⟩

/-! ## The degraded key -/

theorem levels_degradedPool :
    Levels coolsBefore (degradedPool groups pool requestedModel now) := by
  have cools : ∀ k ∈ degradedPool groups pool requestedModel now,
      (∃ q, k.health.cooldownUntil = .finite q) ∨ k.health.cooldownUntil = .inf := by
    intro k mem
    have cooling := (mem_degradedPool.mp mem).2.1.2
    unfold PoolKey.cooling at cooling
    cases h : k.health.cooldownUntil with
    | finite q => exact .inl ⟨q, rfl⟩
    | inf => exact .inr rfl
    | negInf | nan =>
        rw [h] at cooling
        cases cooling
  refine ⟨fun x memx y memy => ?_, fun x memx y memy z memz => ?_⟩
  · unfold coolsBefore
    rcases cools x memx with ⟨a, hx⟩ | hx <;> rcases cools y memy with ⟨b, hy⟩ | hy
    all_goals rw [hx, hy]; simp [PyFloat.lt]
    exact le_of_lt
  · unfold coolsBefore
    rcases cools x memx with ⟨a, hx⟩ | hx <;> rcases cools y memy with ⟨b, hy⟩ | hy
      <;> rcases cools z memz with ⟨c, hz⟩ | hz
    all_goals rw [hx, hy, hz]; simp [PyFloat.lt]
    exact fun ba cb => cb.trans ba

theorem resolveDegraded_eq_some_iff {k : PoolKey} :
    resolveDegraded groups pool requestedModel now = some k
      ↔ IsFirstLeast coolsBefore (degradedPool groups pool requestedModel now) k :=
  firstLeast_eq_some_iff levels_degradedPool

theorem matches_of_degradedMatch {k : PoolKey}
    (matched : degradedMatch groups requestedModel k = true) :
    Matches groups requestedModel k := by
  unfold degradedMatch at matched
  split at matched
  case isTrue unnamed => exact .inl unnamed
  case isFalse _ =>
    split at matched
    case isTrue _ => exact .inr (.inl (by simpa using matched))
    case isFalse _ => exact .inr (.inr (.inl (by simpa using matched)))

/-! ## The attempt -/

theorem modelId_mem_order {k : PoolKey} {order : List ℕ}
    (failover : groups.failoverMemberOrder requestedModel = some order)
    (matched : degradedMatch groups requestedModel k = true) : k.modelId ∈ order := by
  unfold GroupTable.failoverMemberOrder at failover
  obtain ⟨group, found, given⟩ := Option.bind_eq_some_iff.mp failover
  obtain ⟨⟨-, filled⟩, rfl⟩ : (_ ∧ _) ∧ group.memberOrder = order := by
    split at given
    case isTrue good => exact ⟨good, Option.some.inj given⟩
    case isFalse _ => cases given
  have members : groups.members requestedModel = group.memberOrder := by
    unfold GroupTable.members
    rw [found]
    rfl
  have named : requestedModel ≠ "" := by
    rintro rfl
    rw [groups.unnamed] at found
    cases found
  unfold degradedMatch at matched
  rw [if_neg named, members, if_pos filled] at matched
  simpa using matched

variable {m : Moment} {c : Candidate} {order : Option (List ℕ)}

theorem pickKey_single :
    pickKey m.rating.score [c] = if m.rating.available c then some c else none := by
  split
  case isTrue available =>
    have chosen : pickKey m.rating.score [c] ≠ none := by
      intro none
      have low := pickKey_eq_none.mp none c (List.mem_singleton_self c)
      rw [Rating.score_le_iff, available] at low
      cases low
    obtain ⟨k, picked⟩ := Option.ne_none_iff_exists'.mp chosen
    rw [picked, List.mem_singleton.mp (pickKey_some picked).1]
  case isFalse unavailable =>
    refine pickKey_eq_none.mpr fun k mem => ?_
    rw [List.mem_singleton.mp mem]
    exact Rating.score_le_iff.mpr (by simpa using unavailable)

theorem scheduledKey_single (tier : ∀ mids ∈ order, c.modelId ∈ mids) :
    scheduledKey order [c] m ∅ = if m.rating.available c then some c else none := by
  have all : [c].filter (fun k => decide (k.keyId ∉ (∅ : Finset ℕ))) = [c] := by simp
  unfold scheduledKey
  cases order with
  | none =>
      dsimp only
      rw [all, pickKey_single]
  | some mids =>
      dsimp only
      rw [nextFailoverKey_eq_pickKey (tier mids rfl) (by simp), all, pickKey_single]

theorem roundKey_single (tier : ∀ mids ∈ order, c.modelId ∈ mids) :
    roundKey order [c] m ∅ = if m.rating.available c then some c else none := by
  rw [roundKey, if_pos rfl, scheduledKey_single tier]
  cases sticky : stickyKey [c] m with
  | none => rfl
  | some k =>
      have here := List.find?_some sticky
      have same := List.mem_singleton.mp (List.mem_of_find?_eq_some sticky)
      subst same
      rw [decide_eq_true_eq] at here
      rw [if_pos here.2, Option.some_or]

theorem nonstreamKey_single (tier : ∀ mids ∈ order, c.modelId ∈ mids)
    (admits : m.admits c = true) :
    nonstreamKey order [c] m = some c ↔ m.rating.available c = true := by
  unfold nonstreamKey firstSent
  rw [roundKey_single tier]
  split
  case isTrue available => exact iff_of_true (by simp [admits]) available
  case isFalse unavailable => exact iff_of_false (by simp) unavailable

theorem streamKey_single (tier : ∀ mids ∈ order, c.modelId ∈ mids)
    (admits : m.admits c = true) : streamKey order [c] m true = some c := by
  have chosen : (roundKey order [c] m ∅).or
      (if true = true then ([c].filter fun k => k.keyId ∉ (∅ : Finset ℕ)).head? else none)
      = some c := by
    rw [roundKey_single tier]
    split <;> simp
  unfold streamKey
  rw [List.length_singleton, firstSent, chosen, Option.bind_some, if_pos admits]

/-- **The degraded attempt serves a request exactly when the key that cools down first is open**:
it has room in its windows, and it is available again by the time it is scored. -/
theorem rescued_iff (groups : GroupTable) (pool : List PoolKey) (requestedModel : String)
    (now : ℚ) (m : Moment) :
    Rescued groups pool requestedModel now m ↔ CoolestOpen groups pool requestedModel now m := by
  have tier : ∀ k ∈ degradedPool groups pool requestedModel now,
      ∀ mids ∈ groups.failoverMemberOrder requestedModel, k.toCandidate.modelId ∈ mids :=
    fun k mem mids failover => modelId_mem_order failover (mem_degradedPool.mp mem).2.2
  constructor
  · intro rescued recoverable
    obtain ⟨k, mem, chosen, -, sends⟩ := rescued.chooses recoverable
    have least := resolveDegraded_eq_some_iff.mp chosen
    refine ⟨k, least, (hasRoom_of_recovered mem).2, fun admits => ?_⟩
    exact (nonstreamKey_single (tier k least.mem) admits).mp (sends admits).1
  · intro opens
    refine ⟨fun recoverable => ?_, fun k chosen => ?_⟩
    · obtain ⟨k, least, room, available⟩ := opens recoverable
      obtain ⟨mem, inside⟩ := recovered_of_room least.mem room
      refine ⟨k, mem, resolveDegraded_eq_some_iff.mpr least, fun other mem' => ?_,
        fun admits => ⟨?_, ?_⟩⟩
      · exact least.least levels_degradedPool other (inside other mem')
      · exact (nonstreamKey_single (tier k least.mem) admits).mpr (available admits)
      · exact streamKey_single (tier k least.mem) admits
    · have least := resolveDegraded_eq_some_iff.mp chosen
      exact matches_of_degradedMatch (mem_degradedPool.mp least.mem).2.2

end Law

/-- A key of the model `m` that cools down until the time 60. -/
def coolingKey : PoolKey where
  keyId := 1
  modelId := 1
  modelName := "m"
  aliases := ""
  health := { plainKey with status := .error, cooldownUntil := .finite 60 }

/-- No groups. -/
def noGroups : GroupTable := ⟨fun _ => none, rfl⟩

theorem rate_one_nonneg (k : Candidate) : (0 : ℚ) ≤ (fun _ => 1) k := zero_le_one

/-- Nothing has changed when the selection runs: the key still cools down. -/
def stillCooling : Moment where
  rating := ⟨fun _ => false, fun _ => 1, rate_one_nonneg⟩
  bound := none
  admits _ := true

/-- The non-streaming path sends no request. -/
theorem coolingKey_not_rescued : ¬ Rescued noGroups [coolingKey] "m" 50 stillCooling := by
  intro rescued
  have recoverable : Recoverable noGroups [coolingKey] "m" 50 :=
    ⟨fun _ => true, by decide +kernel, by decide +kernel⟩
  obtain ⟨k, mem, -, -, sends⟩ := rescued.chooses recoverable
  obtain rfl : k = coolingKey :=
    List.mem_singleton.mp (List.mem_of_mem_filter mem)
  exact absurd (sends rfl).1 (by decide +kernel)

end Zhongzhuan.Proxy
