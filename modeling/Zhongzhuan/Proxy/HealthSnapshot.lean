import Zhongzhuan.Kit.Dict
import Zhongzhuan.Kit.Schedule
import Zhongzhuan.Proxy.KeyHealth

/-!
# Snapshots of the health of the keys

The model of `_health_snapshot_once` in `proxy/handler.py`, with `_health_fingerprint` and
`store/key_health.py`.

A round compares every key of the pool with what it last saved, or, when it is forced or has saved
nothing yet, with the rows it reads back, and writes the keys that differ.  Requests use the keys
while the round waits for the database; what a round knows of a key is how it finds it when its
turn comes.

The comparison is of fingerprints.  A fingerprint with a `nan` equals itself here; no row of the
database holds one.
-/

namespace Zhongzhuan.Proxy

open Kit

/-! ## The table -/

/-- `KeyHealthRow`, as the database may give it back; `none` is `NULL`. -/
structure KeyHealthRow where
  status : Option String
  cooldownUntil : Option PyFloat
  rpmLimit : Option ℤ
  tpmLimit : Option ℤ
  successCount : Option ℤ
  failureCount : Option ℤ
  recent429Count : Option ℤ
  failureClass : Option String
  lastFailureAt : Option PyFloat
deriving DecidableEq, Repr

/-- The nine values that are compared. -/
structure Fingerprint where
  status : String
  cooldownUntil : PyFloat
  rpmLimit : ℤ
  tpmLimit : ℤ
  successCount : ℤ
  failureCount : ℤ
  recent429Count : ℤ
  failureClass : String
  lastFailureAt : PyFloat
deriving DecidableEq, Repr

/-- `row_to_fingerprint`. -/
def KeyHealthRow.toFingerprint (row : KeyHealthRow) : Fingerprint where
  status := row.status.getD ""
  cooldownUntil := row.cooldownUntil.getD (.finite 0)
  rpmLimit := row.rpmLimit.getD 0
  tpmLimit := row.tpmLimit.getD 0
  successCount := row.successCount.getD 0
  failureCount := row.failureCount.getD 0
  recent429Count := row.recent429Count.getD 0
  failureClass := row.failureClass.getD ""
  lastFailureAt := row.lastFailureAt.getD (.finite 0)

/-- The text of a status. -/
def KeyStatus.text : KeyStatus → String
  | .healthy => "healthy"
  | .rateLimited => "rate_limited"
  | .invalid => "invalid"
  | .error => "error"

/-- The text of a class. -/
def FailureClass.text : FailureClass → String
  | .permanent => "permanent"
  | .banned => "banned"
  | .balance => "balance"
  | .rateLimit => "rate_limit"
  | .transient => "transient"

namespace KeyHealth

/-- The label of the last failure, or the empty string. -/
def failureText (k : KeyHealth) : String := (k.failureClass.map FailureClass.text).getD ""

/-- `_health_fingerprint`. -/
def fingerprint (k : KeyHealth) : Fingerprint where
  status := k.status.text
  cooldownUntil := k.cooldownUntil
  rpmLimit := k.rpmLimit
  tpmLimit := k.tpmLimit
  successCount := k.successCount
  failureCount := k.totalFailures
  recent429Count := k.recent429Count
  failureClass := k.failureText
  lastFailureAt := .finite k.lastFailureAt

/-- The row that a round saves. -/
def healthRow (k : KeyHealth) : KeyHealthRow where
  status := k.status.text
  cooldownUntil := k.cooldownUntil
  rpmLimit := k.rpmLimit
  tpmLimit := k.tpmLimit
  successCount := some k.successCount
  failureCount := some k.totalFailures
  recent429Count := some k.recent429Count
  failureClass := k.failureText
  lastFailureAt := some (.finite k.lastFailureAt)

@[simp] theorem toFingerprint_healthRow (k : KeyHealth) :
    k.healthRow.toFingerprint = k.fingerprint := rfl

end KeyHealth

/-! ## A round -/

/-- A key when its turn comes, the time, and whether `save_health` succeeds. -/
structure Visit where
  keyId : ℤ
  key : KeyHealth
  now : ℚ
  saves : Bool

/-- The key after `normalize_expired_cooldown`. -/
def Visit.settled (v : Visit) : KeyHealth := v.key.normalizeExpiredCooldown v.now

/-- The keys of the pool, in its order.  A positive id is that of a row of `api_keys`. -/
structure Visits where
  list : List Visit
  distinct : list.Pairwise fun v w => 0 < v.keyId → v.keyId ≠ w.keyId

/-- The table and what the handler knows of it. -/
structure Snapshots where
  /-- `key_health`. -/
  table : ℤ → Option KeyHealthRow
  /-- `_health_last_saved`. -/
  lastSaved : Dict ℤ Fingerprint
  /-- The rows written in the round. -/
  written : ℕ

namespace Snapshots

/-- The fingerprint in the table. -/
def stored (s : Snapshots) (keyId : ℤ) : Option Fingerprint :=
  (s.table keyId).map KeyHealthRow.toFingerprint

/-- `save_health`, and the new baseline if it succeeds. -/
def save (s : Snapshots) (v : Visit) : Snapshots :=
  if v.saves then
    { table := Function.update s.table v.keyId (some v.settled.healthRow)
      lastSaved := s.lastSaved.set v.keyId v.settled.fingerprint
      written := s.written + 1 }
  else s

/-- The body of the loop.  `truth` is what was read back, if anything was. -/
def visit (truth : Option (ℤ → Option Fingerprint)) (s : Snapshots) (v : Visit) : Snapshots :=
  if v.keyId ≤ 0 then s
  else
    match truth with
    | some truth =>
      if truth v.keyId = some v.settled.fingerprint then
        { s with lastSaved := s.lastSaved.set v.keyId v.settled.fingerprint }
      else s.save v
    | none =>
      if s.lastSaved.get? v.keyId = some v.settled.fingerprint then s else s.save v

/-- What the round reads back.  `readBack` says whether `load_all_health` succeeds. -/
def truth (s : Snapshots) (forceFull readBack : Bool) : Option (ℤ → Option Fingerprint) :=
  let reconcile := forceFull || s.lastSaved.entries.isEmpty
  if reconcile && readBack then some s.stored else none

/-- `_health_snapshot_once`. -/
def snapshotOnce (s : Snapshots) (forceFull readBack : Bool) (visits : Visits) : Snapshots :=
  visits.list.foldl (visit (s.truth forceFull readBack)) { s with written := 0 }

/-! ## One key in a round -/

variable {s s' : Snapshots} {truth : Option (ℤ → Option Fingerprint)} {v : Visit} {keyId : ℤ}

/-- The two sides agree on everything a round knows of a key. -/
structure SameAt (s s' : Snapshots) (keyId : ℤ) : Prop where
  table : s.table keyId = s'.table keyId
  lastSaved : s.lastSaved.get? keyId = s'.lastSaved.get? keyId

theorem SameAt.refl (s : Snapshots) (keyId : ℤ) : s.SameAt s keyId := ⟨rfl, rfl⟩

theorem SameAt.trans {s'' : Snapshots} (first : s.SameAt s' keyId)
    (second : s'.SameAt s'' keyId) : s.SameAt s'' keyId :=
  ⟨first.table.trans second.table, first.lastSaved.trans second.lastSaved⟩

theorem SameAt.stored_eq (same : s.SameAt s' keyId) : s.stored keyId = s'.stored keyId := by
  rw [stored, stored, same.table]

theorem save_sameAt_of_ne (s : Snapshots) (other : keyId ≠ v.keyId) :
    (s.save v).SameAt s keyId := by
  unfold save
  split
  case isTrue _ =>
    exact ⟨Function.update_of_ne other .., Dict.get?_set_of_ne _ _ other⟩
  case isFalse _ => exact .refl s keyId

theorem visit_sameAt_of_ne (s : Snapshots) (other : 0 < v.keyId → keyId ≠ v.keyId) :
    (s.visit truth v).SameAt s keyId := by
  unfold visit
  split
  case isTrue _ => exact .refl s keyId
  case isFalse positive =>
    have other' := other (not_le.mp positive)
    split
    · split
      · exact ⟨rfl, Dict.get?_set_of_ne _ _ other'⟩
      · exact save_sameAt_of_ne s other'
    · split
      · exact .refl s keyId
      · exact save_sameAt_of_ne s other'

theorem save_sameAt_of_sameAt (same : s.SameAt s' v.keyId) :
    (s.save v).SameAt (s'.save v) v.keyId := by
  unfold save
  split
  · constructor <;> simp
  · exact same

theorem visit_sameAt_of_sameAt (same : s.SameAt s' v.keyId) :
    (s.visit truth v).SameAt (s'.visit truth v) v.keyId := by
  unfold visit
  split
  · exact same
  split
  · split
    · exact ⟨same.table, by simp⟩
    · exact save_sameAt_of_sameAt same
  · rw [same.lastSaved]
    split
    · exact same
    · exact save_sameAt_of_sameAt same

/-! ## All keys -/

theorem foldl_sameAt_of_ne {visits : List Visit}
    (other : ∀ v ∈ visits, 0 < v.keyId → keyId ≠ v.keyId) (s : Snapshots) :
    (visits.foldl (visit truth) s).SameAt s keyId := by
  induction visits generalizing s with
  | nil => exact .refl s keyId
  | cons v visits ih =>
      have rest := ih (fun w mem => other w (List.mem_cons_of_mem v mem)) (s.visit truth v)
      exact rest.trans (visit_sameAt_of_ne s (other v (List.mem_cons_self ..)))

theorem foldl_sameAt_visit {visits : List Visit}
    (distinct : visits.Pairwise fun v w => 0 < v.keyId → v.keyId ≠ w.keyId)
    (mem : v ∈ visits) (positive : 0 < v.keyId) (s : Snapshots) :
    (visits.foldl (visit truth) s).SameAt (s.visit truth v) v.keyId := by
  induction visits generalizing s with
  | nil => exact absurd mem List.not_mem_nil
  | cons w visits ih =>
      obtain ⟨apart, distinct'⟩ := List.pairwise_cons.mp distinct
      rw [List.foldl_cons]
      rcases List.mem_cons.mp mem with rfl | later
      · exact foldl_sameAt_of_ne (fun u mem' _ => apart u mem' positive) (s.visit truth v)
      · have other : 0 < w.keyId → v.keyId ≠ w.keyId := fun positive' same =>
          apart v later positive' same.symm
        have before : (s.visit truth w).SameAt s v.keyId := visit_sameAt_of_ne s other
        exact (ih distinct' later (s.visit truth w)).trans (visit_sameAt_of_sameAt before)

/-! ## What is stored after a round -/

@[simp] theorem stored_save (saves : v.saves = true) :
    (s.save v).stored v.keyId = some v.settled.fingerprint := by
  simp [save, saves, stored]

/-- A key that is compared with its row is stored; a key that is compared with the baseline is
stored unless the baseline is wrong. -/
theorem stored_visit_iff (positive : 0 < v.keyId) (saves : v.saves = true)
    (readBack : ∀ t, truth = some t → t v.keyId = s.stored v.keyId) :
    (s.visit truth v).stored v.keyId = some v.settled.fingerprint
      ↔ truth.isSome ∨ (s.lastSaved.get? v.keyId = some v.settled.fingerprint →
          s.stored v.keyId = some v.settled.fingerprint) := by
  unfold visit
  rw [if_neg (not_le.mpr positive)]
  cases truth with
  | some t =>
      refine iff_of_true ?_ (.inl rfl)
      dsimp only
      split
      case isTrue same => exact (readBack t rfl).symm.trans same
      case isFalse _ => exact stored_save saves
  | none =>
      dsimp only
      split
      case isTrue same => simp [same]
      case isFalse differs => simp [stored_save saves, differs]

/-- Every baseline is what the table has. -/
def Honest (s : Snapshots) : Prop :=
  ∀ keyId fp, s.lastSaved.get? keyId = some fp → s.stored keyId = some fp

theorem visit_honest (honest : s.Honest)
    (readBack : ∀ t, truth = some t → t v.keyId = s.stored v.keyId) {fp : Fingerprint}
    (baseline : (s.visit truth v).lastSaved.get? v.keyId = some fp) :
    (s.visit truth v).stored v.keyId = some fp := by
  have saved : (s.save v).lastSaved.get? v.keyId = some fp →
      (s.save v).stored v.keyId = some fp := by
    intro baseline
    unfold save at baseline ⊢
    split at baseline
    case isTrue saves =>
      rw [if_pos saves]
      rw [Dict.get?_set_self] at baseline
      simpa [stored] using baseline
    case isFalse fails =>
      rw [if_neg fails]
      exact honest _ _ baseline
  unfold visit at baseline ⊢
  split at baseline
  case isTrue idle =>
    rw [if_pos idle]
    exact honest _ _ baseline
  case isFalse positive =>
    rw [if_neg positive]
    cases truth with
    | some t =>
        dsimp only at baseline ⊢
        split at baseline
        case isTrue same =>
          rw [if_pos same]
          rw [Dict.get?_set_self] at baseline
          exact ((readBack t rfl).symm.trans same).trans baseline
        case isFalse differs =>
          rw [if_neg differs]
          exact saved baseline
    | none =>
        dsimp only at baseline ⊢
        split at baseline
        case isTrue same =>
          rw [if_pos same]
          exact honest _ _ baseline
        case isFalse differs =>
          rw [if_neg differs]
          exact saved baseline

theorem truth_eq_stored {forceFull readBack : Bool} {t : ℤ → Option Fingerprint}
    (some' : s.truth forceFull readBack = some t) : t = s.stored := by
  unfold truth at some'
  dsimp only at some'
  split at some'
  · exact (Option.some.inj some').symm
  · cases some'

theorem snapshotOnce_sameAt_visit {visits : Visits} (mem : v ∈ visits.list)
    (positive : 0 < v.keyId) (forceFull readBack : Bool) :
    (s.snapshotOnce forceFull readBack visits).SameAt
      (s.visit (s.truth forceFull readBack) v) v.keyId :=
  (foldl_sameAt_visit visits.distinct mem positive _).trans
    (visit_sameAt_of_sameAt ⟨rfl, rfl⟩)

theorem snapshotOnce_honest (honest : s.Honest) (forceFull readBack : Bool) (visits : Visits) :
    (s.snapshotOnce forceFull readBack visits).Honest := by
  intro keyId fp baseline
  by_cases seen : ∃ v ∈ visits.list, 0 < v.keyId ∧ v.keyId = keyId
  · obtain ⟨v, mem, positive, rfl⟩ := seen
    have same := snapshotOnce_sameAt_visit (s := s) mem positive forceFull readBack
    rw [same.stored_eq]
    rw [same.lastSaved] at baseline
    refine visit_honest honest (fun t some' => ?_) baseline
    rw [truth_eq_stored some']
  · have same : (s.snapshotOnce forceFull readBack visits).SameAt { s with written := 0 } keyId :=
      foldl_sameAt_of_ne
        (fun v mem positive same => seen ⟨v, mem, positive, same.symm⟩) _
    rw [same.stored_eq]
    rw [same.lastSaved] at baseline
    exact honest keyId fp baseline

/-- One round with what it meets: whether it is forced, whether the read succeeds, and the keys. -/
structure RoundInput where
  forceFull : Bool
  readBack : Bool
  visits : Visits

/-- A round as a step. -/
def round (s : Snapshots) (input : RoundInput) : Snapshots :=
  s.snapshotOnce input.forceFull input.readBack input.visits

/-- The process as it starts, with the table it finds. -/
def start (table : ℤ → Option KeyHealthRow) : Snapshots := ⟨table, .empty, 0⟩

end Snapshots

open Snapshots

/-- **After a forced round in which every save succeeds every key is stored as it is, just when the
read succeeded or no baseline vouches for a row that is different; and a baseline never vouches for
one in any run in which nobody else writes.** -/
theorem health_snapshot_fresh (s : Snapshots) (visits : Visits)
    (saves : ∀ v ∈ visits.list, v.saves = true) (readBack : Bool) :
    ((∀ v ∈ visits.list, 0 < v.keyId →
        (s.snapshotOnce true readBack visits).stored v.keyId = some v.settled.fingerprint)
      ↔ readBack = true ∨ ∀ v ∈ visits.list, 0 < v.keyId →
          s.lastSaved.get? v.keyId = some v.settled.fingerprint →
            s.stored v.keyId = some v.settled.fingerprint)
      ∧ ∀ table rounds, (runSchedule round (start table) rounds).Honest := by
  constructor
  · have each : ∀ v ∈ visits.list, 0 < v.keyId →
        ((s.snapshotOnce true readBack visits).stored v.keyId = some v.settled.fingerprint
          ↔ readBack = true ∨ (s.lastSaved.get? v.keyId = some v.settled.fingerprint →
              s.stored v.keyId = some v.settled.fingerprint)) := by
      intro v mem positive
      rw [(snapshotOnce_sameAt_visit mem positive true readBack).stored_eq,
        stored_visit_iff positive (saves v mem) fun t some' => by rw [truth_eq_stored some']]
      cases readBack <;> simp [truth]
    constructor
    · intro stored
      by_cases read : readBack = true
      · exact .inl read
      · exact .inr fun v mem positive =>
          ((each v mem positive).mp (stored v mem positive)).resolve_left read
    · rintro (read | right) v mem positive
      · exact (each v mem positive).mpr (.inl read)
      · exact (each v mem positive).mpr (.inr (right v mem positive))
  · intro table rounds
    exact runSchedule_invariant Honest
      (fun s input honest => s.snapshotOnce_honest honest input.forceFull input.readBack
        input.visits)
      (fun _ _ baseline => by cases baseline) rounds

/-- A pool of one key whose saves succeed. -/
def onePool : Visits := ⟨[⟨1, plainKey, 0, true⟩], List.pairwise_singleton ..⟩

/-- The row of the key was changed behind the process, which has saved what it still is. -/
def drifted : Snapshots where
  table keyId :=
    if keyId = 1 then some { plainKey.healthRow with successCount := some 999 } else none
  lastSaved := Dict.empty.set 1 plainKey.fingerprint
  written := 0

/-- When the rows cannot be read back the forced round leaves the row as it is. -/
theorem drifted_stays_stale :
    ¬ ∀ v ∈ onePool.list, 0 < v.keyId →
      (drifted.snapshotOnce true false onePool).stored v.keyId = some v.settled.fingerprint := by
  intro fresh
  exact absurd (fresh _ (List.mem_singleton.mpr rfl) (by decide)) (by decide +kernel)

theorem health_snapshot_fresh_drifted :
    (drifted.snapshotOnce true true onePool).stored 1
      = some (⟨1, plainKey, 0, true⟩ : Visit).settled.fingerprint := by
  have saves : ∀ v ∈ onePool.list, v.saves = true := by
    intro v mem
    rw [List.mem_singleton.mp mem]
  have fresh := ((health_snapshot_fresh drifted onePool saves true).1).mpr (.inl rfl)
  exact fresh ⟨1, plainKey, 0, true⟩ (List.mem_singleton.mpr rfl) (by decide)

end Zhongzhuan.Proxy
