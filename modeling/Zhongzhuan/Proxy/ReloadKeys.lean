import Zhongzhuan.Kit.Schedule
import Zhongzhuan.Proxy.KeyHealth

/-!
# Reloading the keys while requests hold them

The model of `reload_keys` in `proxy/handler.py` and of the keys that its loader,
`_load_keys_from_store`, makes.

A reload puts new objects in the place of the old ones.  A request that holds an old object goes on
calling its methods.  `KeyPool` has every object that was ever made for one positive key id, with
the one that is in the pool.  Ids are those of the rows of `api_keys`, and each new key is given
the state of the old one with its id, so that the keys of other ids play no part.

Between the load and the end of the replacement nothing is awaited, and a reload is one step.

The record that every call is entered in, whichever object it was made on, is `reference`.
A reload leaves in it what the source means to leave: limits that were learned stay, a cooldown
that is over takes the failures with it, a key that was not in the pool starts healthy.
`reload_reflects_iff` says in which runs the key in the pool is the one of the record.
-/

namespace Zhongzhuan.Proxy

open Kit

/-! ## The loader -/

/-- What `_load_keys_from_store` reads of the configuration. -/
structure KeyLimits where
  perKeyWindowSeconds : ℕ
  defaultRpmPerKey : ℤ
  defaultTpmPerKey : ℤ
  defaultRpdPerKey : ℤ

/-- A row of `key_health`, with the values that a snapshot stores. -/
structure SavedHealth where
  status : KeyStatus
  cooldownUntil : PyFloat
  rpmLimit : ℤ
  tpmLimit : ℤ
  successCount : ℕ
  failureCount : ℕ
  recent429Count : ℕ
  failureClass : Option FailureClass
  lastFailureAt : ℚ

/-- The limits in the row of a model. -/
structure ModelLimits where
  rpmLimit : ℤ
  tpmLimit : ℤ

/-- What the loader finds for an enabled key: its model and its saved health, if any. -/
structure KeyRow where
  model : Option ModelLimits
  saved : Option SavedHealth

/-- `model.rpm_limit if model and model.rpm_limit > 0 else default`. -/
def limitOr (limit : Option ℤ) (default : ℤ) : ℤ := (limit.filter (0 < ·)).getD default

namespace KeyHealth

/-- The saved health, entered in a key that was just made. -/
def restore (k : KeyHealth) (saved : SavedHealth) (madeAt : ℚ) : KeyHealth :=
  let k :=
    { k with
      status := saved.status
      cooldownUntil := saved.cooldownUntil
      successCount := saved.successCount
      totalFailures := saved.failureCount
      recent429Count := saved.recent429Count
      failureClass := saved.failureClass
      lastFailureAt := saved.lastFailureAt }
  let k := k.normalizeExpiredCooldown madeAt
  let k :=
    if 0 < saved.rpmLimit ∧ (k.rpmLimit = 0 ∨ saved.rpmLimit < k.rpmLimit) then
      { k with rpmLimit := saved.rpmLimit }
    else k
  if 0 < saved.tpmLimit then
    { k with
      tpmLimit :=
        if k.tpmLimit = 0 ∨ saved.tpmLimit < k.tpmLimit then saved.tpmLimit else k.tpmLimit
      tpmWindow := some (match k.tpmWindow with
        | none => .new 60 saved.tpmLimit madeAt
        | some w => { w with limit := saved.tpmLimit }) }
  else k

/-- The key that `_load_keys_from_store` makes of a row. -/
def load (limits : KeyLimits) (row : KeyRow) (madeAt : ℚ) : KeyHealth :=
  let rpmLimit := limitOr (row.model.map ModelLimits.rpmLimit) limits.defaultRpmPerKey
  let tpmLimit := limitOr (row.model.map ModelLimits.tpmLimit) limits.defaultTpmPerKey
  let k :=
    { fresh (.new limits.perKeyWindowSeconds rpmLimit madeAt) with
      rpmLimit := rpmLimit
      tpmLimit := tpmLimit
      tpmWindow := if 0 < tpmLimit then some (.new 60 tpmLimit madeAt) else none
      rpdLimit := limits.defaultRpdPerKey }
  match row.saved with
  | none => k
  | some saved => k.restore saved madeAt

/-! ## The reload -/

/-- The requests per minute that were learned. -/
def keepRequestLimit (nk old : KeyHealth) : KeyHealth :=
  if 0 < old.rpmLimit ∧ (nk.rpmLimit = 0 ∨ old.rpmLimit < nk.rpmLimit) then
    { nk with rpmLimit := old.rpmLimit }
  else nk

/-- The tokens per minute that were learned. -/
def keepTokenLimit (nk old : KeyHealth) : KeyHealth :=
  if 0 < old.tpmLimit ∧ (nk.tpmLimit = 0 ∨ old.tpmLimit < nk.tpmLimit) then
    { nk with
      tpmLimit := old.tpmLimit
      tpmWindow := nk.tpmWindow.map fun w => { w with limit := old.tpmLimit } }
  else nk

/-- The limits that were learned. -/
def keepLimits (nk old : KeyHealth) : KeyHealth :=
  (nk.keepRequestLimit old).keepTokenLimit old

/-- The eight assignments of a key that has failed. -/
def copyFailures (nk old : KeyHealth) : KeyHealth :=
  { nk with
    status := old.status
    cooldownUntil := old.cooldownUntil
    backoffLevel := old.backoffLevel
    failureClass := old.failureClass
    lastFailureAt := old.lastFailureAt
    consecutiveFailures := old.consecutiveFailures
    totalFailures := old.totalFailures
    recent429Count := old.recent429Count }

/-- The health that is kept. -/
def keepHealth (nk old : KeyHealth) (now : ℚ) : KeyHealth :=
  if old.status ≠ .healthy then
    if old.status = .invalid then nk.copyFailures old
    else if (PyFloat.finite now).lt old.cooldownUntil then nk.copyFailures old
    else nk
  else nk

/-- What the loop of `reload_keys` does with a key whose id was in the pool. -/
def carryOver (nk old : KeyHealth) (now : ℚ) : KeyHealth :=
  (nk.keepLimits old).keepHealth old now

/-- What it does with another. -/
def introduce (nk : KeyHealth) : KeyHealth :=
  { nk with
    status := .healthy
    cooldownUntil := .finite 0
    recent429Count := 0 }

end KeyHealth

/-! ## What the reload is meant to leave -/

/-- The window `w` with what `old` still counts. -/
def SlidingWindow.holding (w old : SlidingWindow) (now : ℚ) : SlidingWindow :=
  { w with
    buckets := (old.rotate now).buckets
    total := (old.rotate now).total }

/-- A window that counts what a new one counts. -/
def SlidingWindow.Idle (w old : SlidingWindow) (now : ℚ) : Prop :=
  (old.rotate now).buckets = w.buckets ∧ (old.rotate now).total = w.total

theorem SlidingWindow.holding_eq_iff {w old : SlidingWindow} {now : ℚ} :
    w.holding old now = w ↔ w.Idle old now := by
  constructor
  · intro same
    have sameBuckets : (w.holding old now).buckets = w.buckets := by rw [same]
    have sameTotal : (w.holding old now).total = w.total := by rw [same]
    exact ⟨sameBuckets, sameTotal⟩
  · rintro ⟨sameBuckets, sameTotal⟩
    simp only [holding, sameBuckets, sameTotal]

namespace KeyHealth

/-- A transient cooldown that is over. -/
def Lapsed (old : KeyHealth) (now : ℚ) : Prop :=
  (old.status = .error ∨ old.status = .rateLimited)
    ∧ (PyFloat.finite now).lt old.cooldownUntil = false

instance (old : KeyHealth) (now : ℚ) : Decidable (old.Lapsed now) :=
  inferInstanceAs (Decidable (_ ∧ _))

/-- Neither of the keys waits for anything. -/
def BothCool (nk old : KeyHealth) (now : ℚ) : Prop :=
  (PyFloat.finite now).lt old.cooldownUntil = false
    ∧ (PyFloat.finite now).lt nk.cooldownUntil = false

instance (nk old : KeyHealth) (now : ℚ) : Decidable (nk.BothCool old now) :=
  inferInstanceAs (Decidable (_ ∧ _))

/-- The failures, of which a cooldown that is over takes everything with it.  A healthy key may
wait as well, when a response told it to; what no longer matters may differ. -/
def rememberFailures (nk old : KeyHealth) (now : ℚ) : KeyHealth :=
  if old.Lapsed now then nk
  else
    { nk.copyFailures old with
      cooldownUntil :=
        if old.status = .healthy ∧ nk.BothCool old now then nk.cooldownUntil
        else old.cooldownUntil }

/-- A window of tokens that was made for a limit in a response stays. -/
def rememberTokens (w old : Option SlidingWindow) (now : ℚ) : Option SlidingWindow :=
  match w, old with
  | some w, some old => some (w.holding old now)
  | none, some old => some old
  | w, none => w

/-- The key `nk` as it is when every call that `old` has taken counts for it. -/
def remember (nk old : KeyHealth) (now : ℚ) : KeyHealth :=
  { nk.rememberFailures old now with
    successCount := old.successCount
    window := nk.window.holding old.window now
    tpmWindow := rememberTokens nk.tpmWindow old.tpmWindow now
    rpdCount := if old.rpdResetAt ≤ now ∨ old.rpdCount = 0 then nk.rpdCount else old.rpdCount
    rpdResetAt :=
      if old.rpdResetAt ≤ now ∨ old.rpdCount = 0 then nk.rpdResetAt else old.rpdResetAt }

/-- What the reload is meant to leave of the two keys. -/
def remembered (nk old : KeyHealth) (now : ℚ) : KeyHealth := (nk.keepLimits old).remember old now

/-- **The condition on a reload**: what it does not copy is the same in the key that was
loaded. -/
structure NothingLost (nk old : KeyHealth) (now : ℚ) : Prop where
  successes : nk.successCount = old.successCount
  /-- The failures of a key that is healthy again are not copied. -/
  failures : old.status = .healthy →
    nk.status = .healthy
      ∧ (nk.BothCool old now ∨ nk.cooldownUntil = old.cooldownUntil)
      ∧ nk.backoffLevel = old.backoffLevel
      ∧ nk.failureClass = old.failureClass
      ∧ nk.lastFailureAt = old.lastFailureAt
      ∧ nk.consecutiveFailures = old.consecutiveFailures
      ∧ nk.totalFailures = old.totalFailures
      ∧ nk.recent429Count = old.recent429Count
  requests : nk.window.Idle old.window now
  tokens : ∀ o, old.tpmWindow = some o → ∃ w, nk.tpmWindow = some w ∧ w.Idle o now
  /-- The day of the counter is over, or nothing was counted in it. -/
  day : old.rpdResetAt ≤ now ∨ old.rpdCount = 0

/-! ## What the copy loses -/

@[simp] theorem load_rpdCount (limits : KeyLimits) (row : KeyRow) (madeAt : ℚ) :
    (load limits row madeAt).rpdCount = 0 := by
  unfold load restore normalizeExpiredCooldown
  cases row.saved with
  | none => rfl
  | some saved =>
      dsimp only
      split_ifs <;> rfl

theorem keepHealth_of_lapsed {nk old : KeyHealth} {now : ℚ} (lapsed : old.Lapsed now) :
    nk.keepHealth old now = nk := by
  obtain ⟨transient, over'⟩ := lapsed
  have valid : old.status ≠ .invalid := by
    rcases transient with is | is <;> rw [is] <;> decide
  simp [keepHealth, valid, over']

theorem keepHealth_of_failed {nk old : KeyHealth} {now : ℚ} (failed : old.status ≠ .healthy)
    (lasting : ¬ old.Lapsed now) : nk.keepHealth old now = nk.copyFailures old := by
  rw [keepHealth, if_pos failed]
  split
  case isTrue _ => rfl
  case isFalse valid =>
    rw [if_pos]
    by_contra over'
    refine lasting ⟨?_, by simpa using over'⟩
    cases status : old.status with
    | healthy => exact absurd status failed
    | invalid => exact absurd status valid
    | error => exact .inl rfl
    | rateLimited => exact .inr rfl

theorem eq_rememberTokens_iff {w old : Option SlidingWindow} {now : ℚ} :
    w = rememberTokens w old now ↔ ∀ o, old = some o → ∃ w', w = some w' ∧ w'.Idle o now := by
  cases old with
  | none => simp [rememberTokens]
  | some o =>
      cases w with
      | none => simp [rememberTokens]
      | some w =>
          simp only [rememberTokens, Option.some.injEq, forall_eq', exists_eq_left']
          exact eq_comm.trans SlidingWindow.holding_eq_iff

theorem day_iff {nk old : KeyHealth} {now : ℚ} (fresh : nk.rpdCount = 0) :
    (nk.rpdCount = (if old.rpdResetAt ≤ now ∨ old.rpdCount = 0 then nk.rpdCount else old.rpdCount)
      ∧ nk.rpdResetAt
        = if old.rpdResetAt ≤ now ∨ old.rpdCount = 0 then nk.rpdResetAt else old.rpdResetAt)
      ↔ old.rpdResetAt ≤ now ∨ old.rpdCount = 0 := by
  constructor
  · rintro ⟨count, -⟩
    by_contra counts
    rw [if_neg counts, fresh] at count
    exact counts (.inr count.symm)
  · intro nothing
    rw [if_pos nothing, if_pos nothing]
    exact ⟨rfl, rfl⟩

/-- The counts of `nk`, in the key `k`. -/
def withCounts (k nk : KeyHealth) : KeyHealth :=
  { k with
    successCount := nk.successCount
    window := nk.window
    tpmWindow := nk.tpmWindow
    rpdCount := nk.rpdCount
    rpdResetAt := nk.rpdResetAt }

theorem keepHealth_withCounts (nk old : KeyHealth) (now : ℚ) :
    (nk.keepHealth old now).withCounts nk = nk.keepHealth old now := by
  unfold keepHealth
  split_ifs <;> rfl

theorem rememberFailures_withCounts (nk old : KeyHealth) (now : ℚ) :
    (nk.rememberFailures old now).withCounts nk = nk.rememberFailures old now := by
  unfold rememberFailures
  split_ifs <;> rfl

theorem keepHealth_eq_rememberFailures_iff {nk old : KeyHealth} {now : ℚ} :
    nk.keepHealth old now = nk.rememberFailures old now
      ↔ (old.status = .healthy →
          nk.status = .healthy
            ∧ (nk.BothCool old now ∨ nk.cooldownUntil = old.cooldownUntil)
            ∧ nk.backoffLevel = old.backoffLevel
            ∧ nk.failureClass = old.failureClass
            ∧ nk.lastFailureAt = old.lastFailureAt
            ∧ nk.consecutiveFailures = old.consecutiveFailures
            ∧ nk.totalFailures = old.totalFailures
            ∧ nk.recent429Count = old.recent429Count) := by
  by_cases healthy : old.status = .healthy
  case neg =>
    refine iff_of_true ?_ fun is => absurd is healthy
    by_cases lapsed : old.Lapsed now
    · rw [keepHealth_of_lapsed lapsed, rememberFailures, if_pos lapsed]
    · rw [keepHealth_of_failed healthy lapsed, rememberFailures, if_neg lapsed,
        if_neg fun is => healthy is.1]
      rfl
  case pos =>
    have lasting : ¬ old.Lapsed now := by
      rintro ⟨transient, -⟩
      simp [healthy] at transient
    have kept : nk.keepHealth old now = nk := if_neg (not_not.mpr healthy)
    rw [kept, rememberFailures, if_neg lasting]
    simp only [healthy, true_and, forall_const, KeyHealth.copyFailures]
    constructor
    · intro same
      have status := congrArg KeyHealth.status same
      have cooldown := congrArg KeyHealth.cooldownUntil same
      have level := congrArg KeyHealth.backoffLevel same
      have failureClass := congrArg KeyHealth.failureClass same
      have at' := congrArg KeyHealth.lastFailureAt same
      have consecutive := congrArg KeyHealth.consecutiveFailures same
      have total := congrArg KeyHealth.totalFailures same
      have recent := congrArg KeyHealth.recent429Count same
      refine ⟨status, ?_, level, failureClass, at', consecutive, total, recent⟩
      by_cases cool : nk.BothCool old now
      · exact .inl cool
      · exact .inr (by simpa [cool] using cooldown)
    · rintro ⟨status, cooldown, level, failureClass, at', consecutive, total, recent⟩
      have cooldown' :
          (if nk.BothCool old now then nk.cooldownUntil else old.cooldownUntil)
            = nk.cooldownUntil := by
        rcases cooldown with cool | same
        · exact if_pos cool
        · rw [same, ite_self]
      rw [cooldown', ← status, ← level, ← failureClass, ← at', ← consecutive, ← total, ← recent]

theorem keepHealth_eq_remember_iff {nk old : KeyHealth} {now : ℚ} (fresh : nk.rpdCount = 0) :
    nk.keepHealth old now = nk.remember old now ↔ nk.NothingLost old now := by
  constructor
  · intro same
    have failures : nk.keepHealth old now = nk.rememberFailures old now := by
      rw [← keepHealth_withCounts, same, ← rememberFailures_withCounts]
      rfl
    have counts : (nk.remember old now).withCounts nk = nk.remember old now := by
      rw [← same, keepHealth_withCounts]
    have successes := congrArg KeyHealth.successCount counts
    have requests := congrArg KeyHealth.window counts
    have tokens := congrArg KeyHealth.tpmWindow counts
    have count := congrArg KeyHealth.rpdCount counts
    have resetAt := congrArg KeyHealth.rpdResetAt counts
    exact ⟨successes, keepHealth_eq_rememberFailures_iff.mp failures,
      SlidingWindow.holding_eq_iff.mp requests.symm, eq_rememberTokens_iff.mp tokens,
      (day_iff fresh).mp ⟨count, resetAt⟩⟩
  · rintro ⟨successes, failures, requests, tokens, day⟩
    have same := keepHealth_eq_rememberFailures_iff.mpr failures
    have requests' := SlidingWindow.holding_eq_iff.mpr requests
    have tokens' := eq_rememberTokens_iff.mpr tokens
    obtain ⟨count, resetAt⟩ := (day_iff fresh).mpr day
    calc nk.keepHealth old now
        = (nk.rememberFailures old now).withCounts nk := by rw [← same, keepHealth_withCounts]
      _ = nk.remember old now := by
          rw [withCounts, remember, ← successes, requests', ← tokens', ← count, ← resetAt]

theorem nothingLost_keepRequestLimit {nk old : KeyHealth} {now : ℚ} :
    (nk.keepRequestLimit old).NothingLost old now ↔ nk.NothingLost old now := by
  unfold keepRequestLimit
  split
  case isFalse _ => exact Iff.rfl
  case isTrue _ =>
    constructor
    all_goals
      rintro ⟨successes, failures, requests, tokens, day⟩
      exact ⟨successes, failures, requests, tokens, day⟩

theorem nothingLost_keepTokenLimit {nk old : KeyHealth} {now : ℚ} :
    (nk.keepTokenLimit old).NothingLost old now ↔ nk.NothingLost old now := by
  unfold keepTokenLimit
  split
  case isFalse _ => exact Iff.rfl
  case isTrue _ =>
    constructor
    · rintro ⟨successes, failures, requests, tokens, day⟩
      refine ⟨successes, failures, requests, fun o isSome => ?_, day⟩
      obtain ⟨w, made, idle⟩ := tokens o isSome
      obtain ⟨w', loaded, rfl⟩ := Option.map_eq_some_iff.mp made
      exact ⟨w', loaded, idle⟩
    · rintro ⟨successes, failures, requests, tokens, day⟩
      refine ⟨successes, failures, requests, fun o isSome => ?_, day⟩
      obtain ⟨w, loaded, idle⟩ := tokens o isSome
      exact ⟨{ w with limit := old.tpmLimit }, Option.map_eq_some_iff.mpr ⟨w, loaded, rfl⟩, idle⟩

theorem carryOver_eq_remembered_iff {nk old : KeyHealth} {now : ℚ} (fresh : nk.rpdCount = 0) :
    nk.carryOver old now = nk.remembered old now ↔ nk.NothingLost old now := by
  have fresh' : (nk.keepLimits old).rpdCount = 0 := by
    unfold keepLimits keepTokenLimit keepRequestLimit
    split_ifs <;> exact fresh
  exact (keepHealth_eq_remember_iff fresh').trans
    (nothingLost_keepTokenLimit.trans nothingLost_keepRequestLimit)

end KeyHealth

/-! ## The pool -/

/-- A call on a key object. -/
inductive HeldCall
  | method (at' : ℚ) (event : KeyEvent)
  /-- `key.window.allow(1)`, which counts a request if it allows it. -/
  | allow (at' : ℚ)
deriving DecidableEq, Repr

namespace HeldCall

/-- What the call makes of the object. -/
def apply (r : HeaderReaders) (k : KeyHealth) : HeldCall → KeyHealth
  | .method at' event => k.handle r (at', event)
  | .allow at' => { k with window := (k.window.allow 1 at').1 }

/-- A call with news of the key.  The others look at it, and tidy it up. -/
def Reports : HeldCall → Bool
  | .method _ .isAvailable | .method _ .normalizeExpiredCooldown => false
  | _ => true

end HeldCall

/-- Everything there is of one key id. -/
structure KeyPool where
  /-- The objects, in the order in which they were made. -/
  objects : List KeyHealth
  /-- The one in the pool. -/
  current : Option ℕ
  /-- The key that has taken every call since it came into the pool. -/
  reference : Option KeyHealth
deriving DecidableEq, Repr

/-- One step of the handler. -/
inductive PoolStep
  /-- A call by a request that holds the object. -/
  | call (object : ℕ) (c : HeldCall)
  /-- A reload, with what the loader found for the id. -/
  | reload (row : Option KeyRow) (madeAt now : ℚ)

namespace KeyPool

/-- The key in the pool. -/
def key (s : KeyPool) : Option KeyHealth := s.current.bind fun object => s.objects[object]?

/-- The pool before the first step. -/
def start (k : Option KeyHealth) : KeyPool := ⟨k.toList, k.map fun _ => 0, k⟩

/-- The pool after a reload. -/
def replace (s : KeyPool) (limits : KeyLimits) (row : KeyRow) (madeAt now : ℚ) : KeyPool :=
  let nk := KeyHealth.load limits row madeAt
  { objects := s.objects ++ [(s.key.map fun old => nk.carryOver old now).getD nk.introduce]
    current := some s.objects.length
    reference :=
      some ((s.reference.map fun old => nk.remembered old now).getD nk.introduce) }

variable (r : HeaderReaders) (limits : KeyLimits)

/-- One step.  An object that was never made is held by nobody. -/
def step (s : KeyPool) : PoolStep → KeyPool
  | .call object c =>
    if object < s.objects.length then
      { s with
        objects := s.objects.modify object (c.apply r)
        reference :=
          if c.Reports ∨ s.current = some object then s.reference.map (c.apply r)
          else s.reference }
    else s
  | .reload (some row) madeAt now => s.replace limits row madeAt now
  | .reload none _ _ => { s with current := none, reference := none }

/-- The key in the pool is the one that has taken every call. -/
def UpToDate (s : KeyPool) : Prop := s.key = s.reference

instance (s : KeyPool) : Decidable s.UpToDate := inferInstanceAs (Decidable (_ = _))

/-- **The condition on a step**: news of the key is told to the object in the pool, or would change
nothing there, and a reload loses nothing. -/
def Reflects (s : KeyPool) : PoolStep → Prop
  | .call object c =>
    object < s.objects.length → c.Reports → s.current ≠ some object →
      ∀ k, s.key = some k → c.apply r k = k
  | .reload (some row) madeAt now =>
    ∀ old, s.key = some old → (KeyHealth.load limits row madeAt).NothingLost old now
  | .reload none _ _ => True

/-! ## The runs -/

variable {s : KeyPool} {r limits}

theorem key_start (k : Option KeyHealth) : (start k).key = k := by
  cases k <;> rfl

theorem key_modify (s : KeyPool) (object : ℕ) (f : KeyHealth → KeyHealth)
    (reference : Option KeyHealth) :
    key { s with objects := s.objects.modify object f, reference := reference }
      = if s.current = some object then s.key.map f else s.key := by
  unfold key
  cases s.current with
  | none => rfl
  | some here =>
      simp only [Option.bind_some, Option.some.injEq, List.getElem?_modify]
      by_cases same : here = object
      · simp [same]
      · have other : ¬ object = here := fun is => same is.symm
        simp [same, other]

theorem key_replace (s : KeyPool) (limits : KeyLimits) (row : KeyRow) (madeAt now : ℚ) :
    (s.replace limits row madeAt now).key
      = some ((s.key.map fun old =>
          (KeyHealth.load limits row madeAt).carryOver old now).getD
            (KeyHealth.load limits row madeAt).introduce) := by
  simp [key, replace]

/-- **A call leaves the key in the pool behind just when it brings news that another object is
told.** -/
theorem upToDate_call (good : s.UpToDate) (object : ℕ) (c : HeldCall) :
    (s.step r limits (.call object c)).UpToDate ↔ s.Reflects r limits (.call object c) := by
  have same : s.key = s.reference := good
  by_cases held : object < s.objects.length
  case neg =>
    have idle : s.step r limits (.call object c) = s := if_neg held
    rw [idle]
    exact iff_of_true good fun held' => absurd held' held
  case pos =>
    simp only [UpToDate, step, Reflects, held, if_true, key_modify, ← same, forall_const]
    by_cases own : s.current = some object
    · simp [own]
    · by_cases reports : c.Reports
      · rw [if_neg own, if_pos (.inl reports)]
        cases s.key with
        | none => simp
        | some k =>
            simp only [Option.map_some, Option.some.injEq, forall_eq']
            exact ⟨fun same _ _ => same.symm, fun same => (same reports own).symm⟩
      · simp [reports, own]

theorem upToDate_reload (good : s.UpToDate) (row : Option KeyRow) (madeAt now : ℚ) :
    (s.step r limits (.reload row madeAt now)).UpToDate
      ↔ s.Reflects r limits (.reload row madeAt now) := by
  have same : s.key = s.reference := good
  cases row with
  | none => exact iff_of_true rfl trivial
  | some row =>
      simp only [UpToDate, step, Reflects, key_replace]
      simp only [replace, ← same, Option.some.injEq]
      cases s.key with
      | none => simp
      | some old =>
          simp only [Option.map_some, Option.getD_some, Option.some.injEq, forall_eq']
          exact KeyHealth.carryOver_eq_remembered_iff (KeyHealth.load_rpdCount limits row madeAt)

end KeyPool

open KeyPool

/-- **Every call is reflected in the key of the pool, in every state of the run, just when no news
is told to an object that was replaced and no reload loses anything.** -/
theorem reload_reflects_iff (r : HeaderReaders) (limits : KeyLimits) (k : Option KeyHealth)
    (sched : List PoolStep) :
    (∀ pre post, sched = pre ++ post → (runSchedule (step r limits) (start k) pre).UpToDate)
      ↔ Along (step r limits) (Reflects r limits) (start k) sched := by
  have first : (start k).UpToDate := key_start k
  refine always_iff_along (fun _ => True) (fun _ _ _ => trivial) (fun s a _ good => ?_) trivial
    first sched
  cases a with
  | call object c => exact upToDate_call good object c
  | reload row madeAt now => exact upToDate_reload good row madeAt now

/-- The limits of a proxy that sets none. -/
def noLimits : KeyLimits := ⟨60, 0, 0, 0⟩

/-- A key without a model of its own and without a saved health. -/
def bareRow : KeyRow := ⟨none, none⟩

/-- The pool is replaced, and then the provider refuses the key to a request of before. -/
def refusedAfterReload : List PoolStep :=
  [.reload (some bareRow) 5 5, .call 0 (.method 10 .authFailure)]

/-- The key in the pool is still offered, and the record says that it is invalid. -/
theorem refusedAfterReload_not_reflected :
    ¬ (∀ pre post, refusedAfterReload = pre ++ post →
        (runSchedule (step plainReaders noLimits) (start (some plainKey)) pre).UpToDate)
      ∧ (runSchedule (step plainReaders noLimits) (start (some plainKey))
          refusedAfterReload).key.map (fun k => (k.isAvailable 11).2) = some true := by
  refine ⟨fun always => ?_, by decide +kernel⟩
  exact absurd (always refusedAfterReload [] rfl) (by decide +kernel)

end Zhongzhuan.Proxy
