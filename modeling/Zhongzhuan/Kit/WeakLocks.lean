import Mathlib

/-!
# Locks in a weak table

A table that makes a lock for a key when it is asked for one, hands out the same lock as long as
anybody has it, and forgets it when nobody has it any more: a dictionary with weak values, under
reference counting.

* `LockTable.obtain`, `acquire` and `leave` are the operations of a user.
* `LockTable.Sound` is the invariant: the entry of a key is the lock of every user of the key, so
  that it cannot be forgotten and made anew while one of them waits.
* `LockTable.Sound.exclusive`: of the users of one key at most one holds the lock.
-/

namespace Zhongzhuan.Kit

universe u v

/-- The locks, who has them and who holds them.  A lock is the number under which it was made. -/
structure LockTable (κ : Type u) (τ : Type v) where
  /-- The lock of a key that is not forgotten. -/
  entry : κ → Option ℕ
  /-- The next lock. -/
  made : ℕ
  /-- The users that have a lock, waiting for it or holding it. -/
  users : Finset τ
  lockOf : τ → ℕ
  holder : ℕ → Option τ

namespace LockTable

variable {κ : Type u} {τ : Type v} [DecidableEq κ] [DecidableEq τ] (key : τ → κ)

/-- Nobody has asked for a lock yet. -/
def empty : LockTable κ τ := ⟨fun _ => none, 0, ∅, fun _ => 0, fun _ => none⟩

variable (T : LockTable κ τ) (t : τ)

/-- A user is given the lock of its key, a new one if there is none. -/
def obtain : LockTable κ τ :=
  if t ∈ T.users then T
  else
    match T.entry (key t) with
    | some lock =>
      { T with
        users := insert t T.users
        lockOf := Function.update T.lockOf t lock }
    | none =>
      { T with
        entry := Function.update T.entry (key t) (some T.made)
        made := T.made + 1
        users := insert t T.users
        lockOf := Function.update T.lockOf t T.made }

/-- A user can take the lock it has. -/
def CanAcquire : Prop := t ∈ T.users ∧ T.holder (T.lockOf t) = none

instance : Decidable (T.CanAcquire t) := inferInstanceAs (Decidable (_ ∧ _))

/-- A user takes its lock. -/
def acquire : LockTable κ τ :=
  if T.CanAcquire t then { T with holder := Function.update T.holder (T.lockOf t) (some t) } else T

/-- A user has its lock and holds it. -/
def Holds : Prop := t ∈ T.users ∧ T.holder (T.lockOf t) = some t

/-- A user gives the lock back, if it holds it, and drops it; nobody else has it and it is
forgotten. -/
def leave : LockTable κ τ :=
  if t ∈ T.users then
    { T with
      entry :=
        if ∃ u ∈ T.users.erase t, T.lockOf u = T.lockOf t then T.entry
        else Function.update T.entry (key t) none
      users := T.users.erase t
      holder :=
        if T.holder (T.lockOf t) = some t then Function.update T.holder (T.lockOf t) none
        else T.holder }
  else T

/-- The invariant. -/
structure Sound : Prop where
  /-- The lock of a user is the entry of its key. -/
  alive : ∀ t ∈ T.users, T.entry (key t) = some (T.lockOf t)
  old : ∀ k lock, T.entry k = some lock → lock < T.made
  /-- No two keys share a lock. -/
  apart : ∀ k k' lock, T.entry k = some lock → T.entry k' = some lock → k = k'
  /-- A lock is held by one that has it. -/
  held : ∀ lock t, T.holder lock = some t → t ∈ T.users ∧ T.lockOf t = lock

theorem sound_empty : (empty : LockTable κ τ).Sound key := by
  constructor <;> simp [empty]

variable {key T t}

theorem Sound.exclusive (sound : T.Sound key) {u : τ} (holds : T.Holds t) (holds' : T.Holds u)
    (same : key t = key u) : t = u := by
  have one : T.lockOf t = T.lockOf u := by
    have mine := sound.alive t holds.1
    rw [same, sound.alive u holds'.1] at mine
    exact (Option.some.inj mine).symm
  have both := holds.2
  rw [one, holds'.2] at both
  exact (Option.some.inj both).symm

theorem Sound.obtain (sound : T.Sound key) (t : τ) : (T.obtain key t).Sound key := by
  unfold LockTable.obtain
  split
  case isTrue _ => exact sound
  case isFalse absent =>
    -- a user keeps its lock when another one obtains one
    have others : ∀ u ∈ T.users, ∀ lock, Function.update T.lockOf t lock u = T.lockOf u := by
      intro u mem lock
      exact Function.update_of_ne (by rintro rfl; exact absent mem) _ _
    have held : ∀ made lock u, T.holder lock = some u →
        u ∈ insert t T.users ∧ Function.update T.lockOf t made u = lock := by
      intro made lock u holds
      obtain ⟨mem, same⟩ := sound.held lock u holds
      exact ⟨Finset.mem_insert_of_mem mem, (others u mem made).trans same⟩
    split
    case h_1 lock found =>
      refine ⟨?_, sound.old, sound.apart, held lock⟩
      intro u mem
      rcases Finset.mem_insert.mp mem with rfl | mem
      · simpa using found
      · exact (sound.alive u mem).trans (congrArg some (others u mem lock).symm)
    case h_2 missing =>
      refine ⟨?_, ?_, ?_, held T.made⟩
      · intro u mem
        rcases Finset.mem_insert.mp mem with rfl | mem
        · simp
        · have other : key u ≠ key t := by
            intro same
            have alive := sound.alive u mem
            rw [same, missing] at alive
            cases alive
          dsimp only
          rw [Function.update_of_ne other, others u mem]
          exact sound.alive u mem
      · intro k lock found
        dsimp only at found
        by_cases same : k = key t
        · obtain rfl : T.made = lock := by simpa [same] using found
          exact Nat.lt_succ_self _
        · rw [Function.update_of_ne same] at found
          exact Nat.lt_succ_of_lt (sound.old k lock found)
      · intro k k' lock found found'
        dsimp only at found found'
        by_cases same : k = key t
        · by_cases same' : k' = key t
          · rw [same, same']
          · rw [Function.update_of_ne same'] at found'
            obtain rfl : T.made = lock := by simpa [same] using found
            exact absurd (sound.old k' _ found') (lt_irrefl _)
        · rw [Function.update_of_ne same] at found
          by_cases same' : k' = key t
          · obtain rfl : T.made = lock := by simpa [same'] using found'
            exact absurd (sound.old k _ found) (lt_irrefl _)
          · rw [Function.update_of_ne same'] at found'
            exact sound.apart k k' lock found found'

theorem Sound.acquire (sound : T.Sound key) (t : τ) : (T.acquire t).Sound key := by
  unfold LockTable.acquire
  split
  case isTrue can =>
    refine ⟨sound.alive, sound.old, sound.apart, ?_⟩
    intro lock u holds
    by_cases same : lock = T.lockOf t
    · subst same
      obtain rfl : t = u := by simpa using holds
      exact ⟨can.1, rfl⟩
    · exact sound.held lock u (by simpa [Function.update_of_ne same] using holds)
  case isFalse _ => exact sound

theorem Sound.leave (sound : T.Sound key) (t : τ) : (T.leave key t).Sound key := by
  unfold LockTable.leave
  split
  case isTrue mem =>
    have fewer : ∀ k lock, (if ∃ u ∈ T.users.erase t, T.lockOf u = T.lockOf t then T.entry
        else Function.update T.entry (key t) none) k = some lock → T.entry k = some lock := by
      intro k lock found
      split at found
      case isTrue _ => exact found
      case isFalse _ =>
        by_cases same : k = key t
        · simp [same] at found
        · simpa [Function.update_of_ne same] using found
    refine ⟨?_, ?_, ?_, ?_⟩
    · intro u inside
      obtain ⟨other, user⟩ := Finset.mem_erase.mp inside
      have alive := sound.alive u user
      dsimp only
      split
      case isTrue _ => exact alive
      case isFalse last =>
        have apart : key u ≠ key t := by
          intro same
          rw [same, sound.alive t mem] at alive
          exact last ⟨u, inside, (Option.some.inj alive).symm⟩
        rwa [Function.update_of_ne apart]
    · exact fun k lock found => sound.old k lock (fewer k lock found)
    · exact fun k k' lock found found' =>
        sound.apart k k' lock (fewer k lock found) (fewer k' lock found')
    · intro lock u holds
      have before : T.holder lock = some u ∧ u ≠ t := by
        dsimp only at holds
        split at holds
        case isTrue own =>
          by_cases same : lock = T.lockOf t
          · simp [same] at holds
          · rw [Function.update_of_ne same] at holds
            refine ⟨holds, ?_⟩
            rintro rfl
            exact same (sound.held lock u holds).2.symm
        case isFalse other =>
          refine ⟨holds, ?_⟩
          rintro rfl
          exact other ((sound.held lock u holds).2.symm ▸ holds)
      obtain ⟨user, same⟩ := sound.held lock u before.1
      exact ⟨Finset.mem_erase.mpr ⟨before.2, user⟩, same⟩
  case isFalse _ => exact sound

/-! ## What an operation does to the other users -/

theorem holds_obtain {u : τ} (holds : T.Holds u) : (T.obtain key t).Holds u := by
  unfold LockTable.obtain
  split
  case isTrue _ => exact holds
  case isFalse absent =>
    have other : u ≠ t := by
      rintro rfl
      exact absent holds.1
    split <;> exact ⟨Finset.mem_insert_of_mem holds.1, by
      simpa [Function.update_of_ne other] using holds.2⟩

theorem holds_acquire {u : τ} (holds : T.Holds u) : (T.acquire t).Holds u := by
  unfold LockTable.acquire
  split
  case isTrue can =>
    have other : T.lockOf u ≠ T.lockOf t := by
      intro same
      have free := can.2
      rw [← same, holds.2] at free
      cases free
    exact ⟨holds.1, by simpa [Function.update_of_ne other] using holds.2⟩
  case isFalse _ => exact holds

theorem holds_self_acquire (can : T.CanAcquire t) : (T.acquire t).Holds t := by
  unfold LockTable.acquire
  rw [if_pos can]
  exact ⟨can.1, by simp⟩

theorem holds_leave {u : τ} (holds : T.Holds u) (other : u ≠ t) : (T.leave key t).Holds u := by
  unfold LockTable.leave
  split
  case isTrue _ =>
    refine ⟨Finset.mem_erase.mpr ⟨other, holds.1⟩, ?_⟩
    dsimp only
    split
    case isTrue own =>
      have apart : T.lockOf u ≠ T.lockOf t := by
        intro same
        rw [← same, holds.2] at own
        exact other (Option.some.inj own)
      rw [Function.update_of_ne apart]
      exact holds.2
    case isFalse _ => exact holds.2
  case isFalse _ => exact holds

end LockTable

end Zhongzhuan.Kit
