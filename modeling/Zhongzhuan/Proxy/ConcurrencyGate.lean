import Mathlib
import Zhongzhuan.Kit.Schedule

/-!
# The concurrency gate

The model of `ConcurrencyGate` (`proxy/concurrency.py`): pools of slots, each with an
`asyncio.Condition`, and the scopes that take a slot of some pools and give it back.

* A `GateVisit` is one use of a scope.  What it does between two points where it is suspended is one
  function on the pools and the visit: `acquireAll`, `look`, `giveBack`.
* The events are what the event loop does to a suspended visit: run it, notify it, let its time run
  out, cancel it.  A condition may wake a waiter without a reason, so a notification may come at
  any time.
* `gate_run`: no pool has more holders than its size, and all slots come back just when no
  `release` is cancelled while it waits for the lock of the pool.

A pool that is made when it is first used is there from the start, with all its slots.  The
clock only says whether a deadline has passed.  `submit_persist` and `close` are left out.
-/

namespace Zhongzhuan.Proxy

open Kit

/-- `GateConfig`. -/
structure GateConfig where
  globalLimit : ℤ := 64
  tenantLimit : ℤ := 0
  modelLimit : ℤ := 0
  backgroundLimit : ℤ := 8
  toolPoolSize : ℤ := 8
deriving DecidableEq

inductive GatePool
  | global
  | tenant (tenant : String)
  | model (model : String)
  | tool
  | background
deriving DecidableEq

inductive GateScope
  | model (tenant model : String)
  | tool
  | background
deriving DecidableEq

namespace GateConfig

variable (config : GateConfig)

def size : GatePool → ℤ
  | .global => config.globalLimit
  | .tenant _ => config.tenantLimit
  | .model _ => config.modelLimit
  | .tool => config.toolPoolSize
  | .background => config.backgroundLimit

/-- The pools that a scope takes a slot of, in order; a limit of zero is no limit. -/
def pools : GateScope → List GatePool
  | .model tenant model =>
    .global :: ((if config.tenantLimit ≤ 0 then [] else [.tenant tenant])
      ++ if config.modelLimit ≤ 0 then [] else [.model model])
  | .tool => [.tool]
  | .background => [.background]

end GateConfig

/-- `_TimedSlotPool`: the free slots, whether the lock of its condition is held, and how many wait
for the lock. -/
structure TimedSlotPool where
  free : ℤ
  locked : Bool
  queue : ℕ
deriving DecidableEq

/-- Who wants the lock has to wait. -/
def TimedSlotPool.contended (pool : TimedSlotPool) : Bool := pool.locked || decide (0 < pool.queue)

/-- Why a wait has ended. -/
inductive Waking
  | notified
  | timedOut
  | cancelled
deriving DecidableEq

/-- Where a visit is suspended. -/
inductive GatePhase
  /-- `async with self._cond` in `acquire` -/
  | entering
  /-- the task that is to wait has not started, the lock is held -/
  | parking
  | parked
  | woken (why : Waking)
  /-- after the wait, for the lock -/
  | relocking (why : Waking)
  | relocked (why : Waking)
  | inside
  /-- `async with self._cond` in `release` -/
  | leaving
  | left
deriving DecidableEq

/-- One use of a scope: the pools it has a slot of, the last one first, and those that it wants. -/
structure GateVisit where
  phase : GatePhase
  taken : List GatePool
  wanted : List GatePool
deriving DecidableEq

abbrev Gate := GatePool → TimedSlotPool

namespace Gate

variable (gate : Gate) (p : GatePool)

def addFree (n : ℤ) : Gate := Function.update gate p { gate p with free := (gate p).free + n }

def setLocked (locked : Bool) : Gate := Function.update gate p { gate p with locked := locked }

def addWaiter : Gate := Function.update gate p { gate p with queue := (gate p).queue + 1 }

def dropWaiter : Gate := Function.update gate p { gate p with queue := (gate p).queue - 1 }

/-- The loop of `_Hold.release`, and of the `except` branch of `acquire_model`, up to a lock that it
has to wait for. -/
def giveBack (gate : Gate) : List GatePool → Gate × GateVisit
  | [] => (gate, ⟨.left, [], []⟩)
  | p :: rest =>
    if (gate p).contended then (gate.addWaiter p, ⟨.leaving, p :: rest, []⟩)
    else giveBack (gate.addFree p 1) rest

/-- `acquire_model` from one pool on, up to where it is suspended. -/
def acquireAll (gate : Gate) (expired : Bool) (taken : List GatePool) :
    List GatePool → Gate × GateVisit
  | [] => (gate, ⟨.inside, taken, []⟩)
  | p :: rest =>
    if (gate p).contended then (gate.addWaiter p, ⟨.entering, taken, p :: rest⟩)
    else if 0 < (gate p).free then acquireAll (gate.addFree p (-1)) expired (p :: taken) rest
    else if expired then gate.giveBack taken
    else (gate.setLocked p true, ⟨.parking, taken, p :: rest⟩)

/-- The loop of `acquire`, by who has the lock of `p`. -/
def look (expired : Bool) (taken rest : List GatePool) : Gate × GateVisit :=
  if 0 < (gate p).free then (gate.addFree p (-1)).acquireAll expired (p :: taken) rest
  else if expired then gate.giveBack taken
  else (gate.setLocked p true, ⟨.parking, taken, p :: rest⟩)

end Gate

/-- What happens to a suspended visit. -/
inductive GateEvent
  | run (expired : Bool)
  | notify
  | timeout
  | cancel
deriving DecidableEq

/-- The reason after one more event. -/
def Waking.after (why : Waking) : GateEvent → Waking
  | .timeout => if why = .notified then .timedOut else why
  | .cancel => .cancelled
  | _ => why

namespace GateVisit

/-- What an event does; one that cannot happen does nothing. -/
def turn (gate : Gate) (v : GateVisit) (e : GateEvent) : Gate × GateVisit :=
  match v.phase, v.wanted, e with
  | .entering, p :: rest, .run expired =>
    if (gate p).locked then (gate, v) else (gate.dropWaiter p).look p expired v.taken rest
  | .entering, p :: _, .cancel => (gate.dropWaiter p).giveBack v.taken
  -- the waiter starts: `wait` gives the lock up
  | .parking, p :: _, .run _ => (gate.setLocked p false, { v with phase := .parked })
  | .parking, _ :: _, .timeout => (gate, { v with phase := .relocked .timedOut })
  | .parking, _ :: _, .cancel => (gate, { v with phase := .relocked .cancelled })
  | .parked, _ :: _, .notify => (gate, { v with phase := .woken .notified })
  | .parked, _ :: _, .timeout => (gate, { v with phase := .woken .timedOut })
  | .parked, _ :: _, .cancel => (gate, { v with phase := .woken .cancelled })
  | .woken why, p :: _, .run _ =>
    if (gate p).contended then (gate.addWaiter p, { v with phase := .relocking why })
    else (gate.setLocked p true, { v with phase := .relocked why })
  | .relocking why, p :: _, .run _ =>
    if (gate p).locked then (gate, v)
    else ((gate.dropWaiter p).setLocked p true, { v with phase := .relocked why })
  | .relocked why, p :: rest, .run expired =>
    match why with
    | .notified => (gate.setLocked p false).look p expired v.taken rest
    | .timedOut => (gate.setLocked p false).look p true v.taken rest
    | .cancelled => (gate.setLocked p false).giveBack v.taken
  | .woken why, _ :: _, e => (gate, { v with phase := .woken (why.after e) })
  | .relocking why, _ :: _, e => (gate, { v with phase := .relocking (why.after e) })
  | .relocked why, _ :: _, e => (gate, { v with phase := .relocked (why.after e) })
  | .inside, _, .run _ | .inside, _, .cancel => gate.giveBack v.taken
  | .leaving, _, .run _ =>
    match v.taken with
    | p :: rest =>
      if (gate p).locked then (gate, v)
      else ((gate.dropWaiter p).addFree p 1).giveBack rest
    | [] => (gate, v)
  -- the rest of the loop is not run
  | .leaving, _, .cancel =>
    match v.taken with
    | p :: _ => (gate.dropWaiter p, ⟨.left, [], []⟩)
    | [] => (gate, v)
  | _, _, _ => (gate, v)

end GateVisit

/-- The gate with all its visits. -/
structure GateState where
  gate : Gate
  visits : List GateVisit

inductive GateAction
  | enter (scope : GateScope) (expired : Bool)
  | visit (index : ℕ) (event : GateEvent)
deriving DecidableEq

namespace GateState

variable (config : GateConfig)

def start : GateState := ⟨fun p => ⟨config.size p, false, 0⟩, []⟩

def step (s : GateState) : GateAction → GateState
  | .enter scope expired =>
    let r := s.gate.acquireAll expired [] (config.pools scope)
    ⟨r.1, s.visits ++ [r.2]⟩
  | .visit i e =>
    match s.visits[i]? with
    | none => s
    | some v =>
      let r := v.turn s.gate e
      ⟨r.1, s.visits.set i r.2⟩

/-- How many slots of a pool are held. -/
def holders (s : GateState) (p : GatePool) : ℕ := (s.visits.map fun v => v.taken.count p).sum

/-- A visit is cancelled while it waits for a lock to give a slot back. -/
def CutsShort (s : GateState) : GateAction → Prop
  | .enter .. => False
  | .visit i e => e = .cancel ∧ ∃ v, s.visits[i]? = some v ∧ v.phase = .leaving

end GateState

/-! ## One visit -/

namespace Gate

variable (gate : Gate) (p q : GatePool)

theorem free_addFree (n : ℤ) :
    (gate.addFree p n q).free = (gate q).free + if q = p then n else 0 := by
  unfold addFree
  by_cases same : q = p
  · rw [same, Function.update_self, if_pos rfl]
  · rw [Function.update_of_ne same, if_neg same, add_zero]

theorem free_update {pool : TimedSlotPool} (free : pool.free = (gate p).free) :
    (Function.update gate p pool q).free = (gate q).free := by
  by_cases same : q = p
  · rw [same, Function.update_self, free]
  · rw [Function.update_of_ne same]

@[simp] theorem free_setLocked (locked : Bool) : (gate.setLocked p locked q).free = (gate q).free :=
  free_update gate p q rfl

@[simp] theorem free_addWaiter : (gate.addWaiter p q).free = (gate q).free :=
  free_update gate p q rfl

@[simp] theorem free_dropWaiter : (gate.dropWaiter p q).free = (gate q).free :=
  free_update gate p q rfl

end Gate

/-- The slots after something is done are those before it: each is free or with the visit. -/
structure Settles (gate : Gate) (taken : List GatePool) (r : Gate × GateVisit) : Prop where
  balance : ∀ p, (r.1 p).free + r.2.taken.count p = (gate p).free + taken.count p
  floor : ∀ p, 0 ≤ (r.1 p).free ∨ (gate p).free ≤ (r.1 p).free
  leaving : r.2.phase = .leaving → r.2.taken ≠ []
  left : r.2.phase = .left → r.2.taken = []

namespace Settles

variable {gate gate' : Gate} {taken : List GatePool} {r : Gate × GateVisit} {p : GatePool}

theorem of_free (settles : Settles gate' taken r) (same : ∀ q, (gate' q).free = (gate q).free) :
    Settles gate taken r where
  balance q := (settles.balance q).trans (by rw [same])
  floor q := by
    rw [← same]
    exact settles.floor q
  leaving := settles.leaving
  left := settles.left

theorem keep {v : GateVisit} (same : ∀ q, (gate' q).free = (gate q).free)
    (leaving : v.phase = .leaving → v.taken ≠ []) (left : v.phase = .left → v.taken = []) :
    Settles gate v.taken (gate', v) where
  balance q := by rw [same]
  floor q := .inr (same q).ge
  leaving := leaving
  left := left

theorem give {rest : List GatePool} (settles : Settles (gate.addFree p 1) rest r) :
    Settles gate (p :: rest) r where
  balance q := by
    rw [settles.balance q, Gate.free_addFree, List.count_cons]
    by_cases same : q = p
    · simp [same]
      ring
    · simp [same, Ne.symm same]
  floor q := by
    refine (settles.floor q).imp_right fun le => le_trans ?_ le
    rw [Gate.free_addFree]
    split
    · omega
    · omega
  leaving := settles.leaving
  left := settles.left

theorem giveBack (gate : Gate) (taken : List GatePool) :
    Settles gate taken (gate.giveBack taken) := by
  induction taken generalizing gate with
  | nil =>
    exact keep (v := ⟨.left, [], []⟩) (fun _ => rfl) (fun h => by cases h) (fun _ => rfl)
  | cons p rest ih =>
    rw [Gate.giveBack]
    split
    · exact keep (v := ⟨.leaving, p :: rest, []⟩) (fun q => Gate.free_addWaiter gate p q)
        (fun _ => List.cons_ne_nil _ _) (fun h => by cases h)
    · exact give (ih _)

theorem take (free : 0 < (gate p).free)
    (settles : Settles (gate.addFree p (-1)) (p :: taken) r) : Settles gate taken r where
  balance q := by
    rw [settles.balance q, Gate.free_addFree, List.count_cons]
    by_cases same : q = p
    · simp [same]
      ring
    · simp [same, Ne.symm same]
  floor q := by
    have floor := settles.floor q
    rw [Gate.free_addFree] at floor
    by_cases same : q = p
    · rw [same, if_pos rfl] at floor
      rw [same]
      omega
    · rw [if_neg same] at floor
      omega
  leaving := settles.leaving
  left := settles.left

theorem acquireAll (gate : Gate) (expired : Bool) (taken wanted : List GatePool) :
    Settles gate taken (gate.acquireAll expired taken wanted) := by
  induction wanted generalizing gate taken with
  | nil =>
    exact keep (v := ⟨.inside, taken, []⟩) (fun _ => rfl) (fun h => by cases h)
      (fun h => by cases h)
  | cons p rest ih =>
    rw [Gate.acquireAll]
    split_ifs with contended free late
    · exact keep (v := ⟨.entering, taken, p :: rest⟩) (fun q => Gate.free_addWaiter gate p q)
        (fun h => by cases h) (fun h => by cases h)
    · exact take free (ih _ _)
    · exact giveBack gate taken
    · exact keep (v := ⟨.parking, taken, p :: rest⟩) (fun q => Gate.free_setLocked gate p q true)
        (fun h => by cases h) (fun h => by cases h)

theorem look (gate : Gate) (p : GatePool) (expired : Bool) (taken rest : List GatePool) :
    Settles gate taken (gate.look p expired taken rest) := by
  rw [Gate.look]
  split_ifs with free late
  · exact take free (acquireAll ..)
  · exact giveBack gate taken
  · exact keep (v := ⟨.parking, taken, p :: rest⟩) (fun q => Gate.free_setLocked gate p q true)
      (fun h => by cases h) (fun h => by cases h)

theorem moved {v : GateVisit} {phase : GatePhase} (same : ∀ q, (gate' q).free = (gate q).free)
    (stays : phase ≠ .leaving) (here : phase ≠ .left) :
    Settles gate v.taken (gate', { v with phase := phase }) where
  balance q := by rw [same]
  floor q := .inr (same q).ge
  leaving h := absurd h stays
  left h := absurd h here

end Settles

theorem turn_settles (gate : Gate) {v : GateVisit} {e : GateEvent}
    (kept : ¬(e = .cancel ∧ v.phase = .leaving)) (leaving : v.phase = .leaving → v.taken ≠ [])
    (left : v.phase = .left → v.taken = []) : Settles gate v.taken (v.turn gate e) := by
  unfold GateVisit.turn
  split
  · split
    · exact .keep (fun _ => rfl) leaving left
    · exact (Settles.look ..).of_free fun q => Gate.free_dropWaiter ..
  · exact (Settles.giveBack ..).of_free fun q => Gate.free_dropWaiter ..
  · exact .moved (fun q => Gate.free_setLocked ..) (by decide) (by decide)
  · exact .moved (fun _ => rfl) (by decide) (by decide)
  · exact .moved (fun _ => rfl) (by decide) (by decide)
  · exact .moved (fun _ => rfl) (by decide) (by decide)
  · exact .moved (fun _ => rfl) (by decide) (by decide)
  · exact .moved (fun _ => rfl) (by decide) (by decide)
  · split
    · exact .moved (fun q => Gate.free_addWaiter ..) (fun h => by cases h) (fun h => by cases h)
    · exact .moved (fun q => Gate.free_setLocked ..) (fun h => by cases h) (fun h => by cases h)
  · split
    · exact .keep (fun _ => rfl) leaving left
    · refine .moved (fun q => ?_) (fun h => by cases h) (fun h => by cases h)
      rw [Gate.free_setLocked, Gate.free_dropWaiter]
  · split
    · exact (Settles.look ..).of_free fun q => Gate.free_setLocked ..
    · exact (Settles.look ..).of_free fun q => Gate.free_setLocked ..
    · exact (Settles.giveBack ..).of_free fun q => Gate.free_setLocked ..
  · exact .moved (fun _ => rfl) (fun h => by cases h) (fun h => by cases h)
  · exact .moved (fun _ => rfl) (fun h => by cases h) (fun h => by cases h)
  · exact .moved (fun _ => rfl) (fun h => by cases h) (fun h => by cases h)
  · exact Settles.giveBack ..
  · exact Settles.giveBack ..
  · split
    · next p rest taken =>
      split
      · exact .keep (fun _ => rfl) leaving left
      · rw [taken]
        exact (Settles.give (Settles.giveBack ..)).of_free fun q => Gate.free_dropWaiter gate p q
    · exact .keep (fun _ => rfl) leaving left
  · next here => exact absurd ⟨rfl, here⟩ kept
  · exact .keep (fun _ => rfl) leaving left

theorem turn_cut (gate : Gate) {v : GateVisit} (here : v.phase = .leaving)
    (some_slot : v.taken ≠ []) :
    (v.turn gate .cancel).2 = ⟨.left, [], []⟩
      ∧ ∀ p, ((v.turn gate .cancel).1 p).free = (gate p).free := by
  obtain ⟨p, rest, taken⟩ := List.exists_cons_of_ne_nil some_slot
  unfold GateVisit.turn
  rw [here, taken]
  exact ⟨rfl, fun q => Gate.free_dropWaiter ..⟩

/-! ## All visits -/

theorem sum_set {α : Type} {as : List α} {i : ℕ} {a : α} (here : as[i]? = some a) (b : α)
    (f : α → ℕ) : ((as.set i b).map f).sum + f a = (as.map f).sum + f b := by
  induction as generalizing i with
  | nil => cases here
  | cons c as ih =>
    cases i with
    | zero =>
      obtain rfl := Option.some.inj here
      simp only [List.set_cons_zero, List.map_cons, List.sum_cons]
      ring
    | succ i =>
      have rest := ih here
      simp only [List.set_cons_succ, List.map_cons, List.sum_cons]
      omega

namespace GateState

variable {config : GateConfig} {s : GateState} {a : GateAction} {p : GatePool}

/-- The slots that are free or held. -/
def balance (s : GateState) (p : GatePool) : ℤ := (s.gate p).free + s.holders p

/-- No slot is lost. -/
def Whole (config : GateConfig) (s : GateState) : Prop := ∀ p, s.balance p = config.size p

/-- No slot is made up, and a visit holds none when it has left. -/
structure Sound (config : GateConfig) (s : GateState) : Prop where
  bound : ∀ p, s.balance p ≤ config.size p
  floor : ∀ p, 0 ≤ (s.gate p).free ∨ config.size p ≤ (s.gate p).free
  leaving : ∀ v ∈ s.visits, v.phase = .leaving → v.taken ≠ []
  left : ∀ v ∈ s.visits, v.phase = .left → v.taken = []

theorem sound_start (config : GateConfig) : (start config).Sound config where
  bound p := by simp [start, balance, holders]
  floor p := .inr le_rfl
  leaving := List.forall_mem_nil _
  left := List.forall_mem_nil _

theorem Sound.of_gate (sound : s.Sound config) {s' : GateState}
    (bound : ∀ p, s'.balance p ≤ s.balance p)
    (floor : ∀ p, 0 ≤ (s'.gate p).free ∨ (s.gate p).free ≤ (s'.gate p).free)
    (visits : ∀ v ∈ s'.visits, (v.phase = .leaving → v.taken ≠ [])
      ∧ (v.phase = .left → v.taken = [])) : s'.Sound config where
  bound p := (bound p).trans (sound.bound p)
  floor p := by
    rcases floor p with free | more
    · exact .inl free
    · exact (sound.floor p).imp (le_trans · more) (le_trans · more)
  leaving v mem := (visits v mem).1
  left v mem := (visits v mem).2

theorem balance_enter {r : Gate × GateVisit} (settles : Settles s.gate [] r) (p : GatePool) :
    balance ⟨r.1, s.visits ++ [r.2]⟩ p = s.balance p := by
  have balance := settles.balance p
  rw [List.count_nil] at balance
  unfold GateState.balance holders
  rw [List.map_append, List.sum_append, List.map_singleton, List.sum_singleton]
  push_cast
  omega

theorem balance_visit {r : Gate × GateVisit} {i : ℕ} {v : GateVisit} (here : s.visits[i]? = some v)
    (settles : Settles s.gate v.taken r) (p : GatePool) :
    balance ⟨r.1, s.visits.set i r.2⟩ p = s.balance p := by
  have balance := settles.balance p
  have sum := sum_set here r.2 fun v => v.taken.count p
  unfold GateState.balance holders
  dsimp only at sum ⊢
  omega

theorem balance_cut {r : Gate × GateVisit} {i : ℕ} {v : GateVisit} (here : s.visits[i]? = some v)
    (gone : r.2 = ⟨.left, [], []⟩) (free : ∀ p, (r.1 p).free = (s.gate p).free) (p : GatePool) :
    balance ⟨r.1, s.visits.set i r.2⟩ p + v.taken.count p = s.balance p := by
  have sum := sum_set here r.2 fun v => v.taken.count p
  rw [gone] at sum
  unfold GateState.balance holders
  rw [gone, free]
  simp only [List.count_nil] at sum ⊢
  omega

theorem step_sound (sound : s.Sound config) (a : GateAction) :
    (s.step config a).Sound config ∧ (∀ p, (s.step config a).balance p ≤ s.balance p)
      ∧ ((∀ p, (s.step config a).balance p = s.balance p) ↔ ¬s.CutsShort a) := by
  have visits : ∀ v ∈ s.visits, (v.phase = .leaving → v.taken ≠ [])
      ∧ (v.phase = .left → v.taken = []) := fun v mem =>
    ⟨sound.leaving v mem, sound.left v mem⟩
  cases a with
  | enter scope expired =>
    have settles := Settles.acquireAll s.gate expired [] (config.pools scope)
    have balance : ∀ p, (s.step config (.enter scope expired)).balance p = s.balance p :=
      balance_enter settles
    refine ⟨sound.of_gate (fun p => (balance p).le) settles.floor ?_, fun p => (balance p).le, ?_⟩
    · exact List.forall_mem_append.mpr
        ⟨visits, List.forall_mem_singleton.mpr ⟨settles.leaving, settles.left⟩⟩
    · exact iff_of_true balance id
  | visit i e =>
    cases here : s.visits[i]? with
    | none =>
      have same : s.step config (.visit i e) = s := by
        simp only [step, here]
      rw [same]
      refine ⟨sound, fun _ => le_rfl, iff_of_true (fun _ => rfl) ?_⟩
      rintro ⟨-, v, there, -⟩
      rw [here] at there
      cases there
    | some v =>
      have mem := List.mem_of_getElem? here
      have stepped : s.step config (.visit i e)
          = ⟨(v.turn s.gate e).1, s.visits.set i (v.turn s.gate e).2⟩ := by
        simp only [step, here]
      rw [stepped]
      by_cases cut : e = .cancel ∧ v.phase = .leaving
      · obtain ⟨rfl, leaving⟩ := cut
        have some_slot := sound.leaving v mem leaving
        obtain ⟨gone, free⟩ := turn_cut s.gate leaving some_slot
        have lost := balance_cut here gone free
        have fewer : ∀ p, balance ⟨(v.turn s.gate .cancel).1,
            s.visits.set i (v.turn s.gate .cancel).2⟩ p ≤ s.balance p := by
          intro p
          have loss := lost p
          omega
        refine ⟨sound.of_gate fewer (fun p => .inr (free p).ge) fun w there => ?_, fewer, ?_⟩
        · rcases List.mem_or_eq_of_mem_set there with old | rfl
          · exact visits w old
          · rw [gone]
            exact ⟨fun h => GatePhase.noConfusion h, fun _ => rfl⟩
        · refine iff_of_false (fun same => ?_) (fun kept => kept ⟨rfl, v, here, leaving⟩)
          obtain ⟨p, held⟩ := List.exists_mem_of_ne_nil _ some_slot
          have loss := lost p
          have count := List.count_pos_iff.mpr held
          have unchanged := same p
          omega
      · have settles := turn_settles s.gate cut (sound.leaving v mem) (sound.left v mem)
        have balance := balance_visit here settles
        refine ⟨sound.of_gate (fun p => (balance p).le) settles.floor fun w there => ?_,
          fun p => (balance p).le, ?_⟩
        · rcases List.mem_or_eq_of_mem_set there with old | rfl
          · exact visits w old
          · exact ⟨settles.leaving, settles.left⟩
        · refine iff_of_true balance ?_
          rintro ⟨cancelled, w, there, leaving⟩
          rw [here] at there
          obtain rfl := Option.some.inj there
          exact cut ⟨cancelled, leaving⟩

/-- The state after these actions. -/
def reach (config : GateConfig) (sched : List GateAction) : GateState :=
  runSchedule (step config) (start config) sched

theorem reach_sound (config : GateConfig) (sched : List GateAction) :
    (reach config sched).Sound config :=
  runSchedule_invariant (Sound config) (fun _ a sound => (step_sound sound a).1)
    (sound_start config) sched

theorem whole_step (sound : s.Sound config) (a : GateAction) :
    (s.step config a).Whole config ↔ s.Whole config ∧ ¬s.CutsShort a := by
  obtain ⟨-, fewer, exact_step⟩ := step_sound sound a
  constructor
  · intro good
    have before : s.Whole config := fun p =>
      le_antisymm (sound.bound p) ((good p).ge.trans (fewer p))
    exact ⟨before, exact_step.mp fun p => (good p).trans (before p).symm⟩
  · rintro ⟨good, kept⟩ p
    rw [exact_step.mpr kept p, good p]

theorem reach_whole (config : GateConfig) (sched : List GateAction) :
    (reach config sched).Whole config
      ↔ Along (step config) (fun s a => ¬s.CutsShort a) (start config) sched := by
  have start_whole : (start config).Whole config := by
    intro p
    simp [start, balance, holders]
  have run := good_run_iff_along (Sound config) (fun _ a sound => (step_sound sound a).1)
    (fun _ a sound => whole_step sound a) (sound_start config) sched
  exact run.trans (and_iff_right start_whole)

/-- **No pool has more holders than its size, and when all visits have left, all slots are free
just when no `release` was cancelled while it waited for a lock.** -/
theorem gate_run (config : GateConfig) (sched : List GateAction) :
    (∀ p, ((reach config sched).holders p : ℤ) ≤ max (config.size p) 0)
      ∧ ((∀ v ∈ (reach config sched).visits, v.phase = .left) →
        ((∀ p, ((reach config sched).gate p).free = config.size p)
          ↔ Along (step config) (fun s a => ¬s.CutsShort a) (start config) sched)) := by
  have sound := reach_sound config sched
  constructor
  · intro p
    have bound := sound.bound p
    have floor := sound.floor p
    rw [balance] at bound
    omega
  · intro gone
    rw [← reach_whole]
    refine forall_congr' fun p => ?_
    have none_held : (reach config sched).holders p = 0 := by
      refine List.sum_eq_zero fun n mem => ?_
      obtain ⟨v, there, rfl⟩ := List.mem_map.mp mem
      rw [sound.left v there (gone v there), List.count_nil]
    rw [balance, none_held, Nat.cast_zero, add_zero]

/-- The second visit looks for the one slot, and has the lock when the first leaves; that one is
cancelled while it waits for the lock. -/
def cutRelease : List GateAction :=
  [.enter (.model "" "") false, .enter (.model "" "") false, .visit 0 (.run false),
    .visit 0 .cancel, .visit 1 (.run false), .visit 1 .timeout, .visit 1 (.run true),
    .visit 1 (.run true)]

theorem cutRelease_leaks :
    (∀ v ∈ (reach { globalLimit := 1 } cutRelease).visits, v.phase = .left)
      ∧ ((reach { globalLimit := 1 } cutRelease).gate .global).free = 0
      ∧ ({ globalLimit := 1 } : GateConfig).size .global = 1 := by
  decide

end GateState

end Zhongzhuan.Proxy
