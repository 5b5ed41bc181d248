import Zhongzhuan.Kit.Schedule

/-!
# `IdempotencyStore`: a reservation that another executor takes over

The model of `store/idempotency.py`, on the record of one workspace and one key.

* `insertReservation`, `reclaim`, `flip` and `replace` are the statements of `reserve` and
  `mark_executed`, and `lookup` is the read.
* `IdempotencyRun` is any number of executors that reserve the key and mark it executed, in any
  order and as often as they like.  A call reads the clock when it begins, and `_write` reads it
  again; each statement is one step, and any time can pass between two steps.

The terminal write asks for `state = in_flight` and not for the executor whose row it is, and
where it misses the whole row is replaced: `idempotency_intact_iff` says which runs keep the
record of a new holder and the outcome of a finished one all the same.
-/

namespace Zhongzhuan.Store

open Kit

universe u

/-! ## The record -/

/-- `state`; a conflict is never written. -/
inductive RecordState
  | inFlight
  | done
  deriving DecidableEq

/-- A row of `idempotency_records`. -/
structure IdempotencyRow where
  requestDigest : String
  responseId : String
  statusCode : ℤ
  state : RecordState
  createdAt : ℕ
  expiresAt : ℕ
  deriving DecidableEq

/-- `expires_at`, for a call that begins at `ts`; a record without a TTL does not expire. -/
def expiresAt (ts : ℕ) (ttlSeconds : ℤ) : ℕ := if 0 < ttlSeconds then ts + ttlSeconds.toNat else 0

/-- What `lookup` still sees at `now`. -/
def IdempotencyRow.Live (row : IdempotencyRow) (now : ℕ) : Prop :=
  row.expiresAt = 0 ∨ now < row.expiresAt

instance (row : IdempotencyRow) (now : ℕ) : Decidable (row.Live now) :=
  inferInstanceAs (Decidable (_ ∨ _))

/-- The arguments of `reserve`. -/
structure Reservation where
  responseId : String
  requestDigest : String
  ttlSeconds : ℤ
  deriving DecidableEq

/-- The arguments of `mark_executed`. -/
structure Completion where
  responseId : String
  statusCode : ℤ
  requestDigest : String
  ttlSeconds : ℤ
  deriving DecidableEq

/-- The row `reserve` writes. -/
def Reservation.row (r : Reservation) (ts : ℕ) : IdempotencyRow where
  requestDigest := r.requestDigest
  responseId := r.responseId
  statusCode := 0
  state := .inFlight
  createdAt := ts
  expiresAt := expiresAt ts r.ttlSeconds

/-- The row `_write` writes. -/
def Completion.row (m : Completion) (ts : ℕ) : IdempotencyRow where
  requestDigest := m.requestDigest
  responseId := m.responseId
  statusCode := m.statusCode
  state := .done
  createdAt := ts
  expiresAt := expiresAt ts m.ttlSeconds

/-- `lookup`. -/
def lookup (now : ℕ) (record : Option IdempotencyRow) : Option IdempotencyRow :=
  record.filter fun row => row.Live now

/-- The `INSERT` of `reserve`, under the primary key. -/
def insertReservation (r : Reservation) (ts : ℕ) : Option IdempotencyRow → Option IdempotencyRow
  | none => some (r.row ts)
  | some _ => none

/-- The conditional `UPDATE` of `reserve`: the row it writes over an expired one. -/
def reclaim (r : Reservation) (ts : ℕ) (record : Option IdempotencyRow) : Option IdempotencyRow :=
  if record.any fun row => 0 < row.expiresAt ∧ row.expiresAt ≤ ts then some (r.row ts) else none

/-- The conditional `UPDATE` of `mark_executed`: the row it makes of one that is in flight. -/
def flip (m : Completion) (ts : ℕ) : Option IdempotencyRow → Option IdempotencyRow
  | some row =>
    if row.state = .inFlight then
      some { row with
        responseId := m.responseId
        statusCode := m.statusCode
        state := .done
        requestDigest := if m.requestDigest ≠ "" then m.requestDigest else row.requestDigest
        expiresAt := expiresAt ts m.ttlSeconds }
    else none
  | none => none

/-! ## Executors -/

/-- What an executor does next, with the clock of its call. -/
inductive IdempotencyCall
  | idle
  | inserting (r : Reservation) (ts : ℕ)
  /-- The primary key refused the row. -/
  | reclaiming (r : Reservation) (ts : ℕ)
  | flipping (m : Completion) (ts : ℕ)
  /-- No row was flipped. -/
  | writing (m : Completion)
  | replacing (m : Completion) (ts : ℕ)
  deriving DecidableEq

/-- What became of the reservation of an executor. -/
inductive Standing
  | none
  | held
  /-- Another executor reserved the key since. -/
  | lost
  deriving DecidableEq

/-- A step of the run. -/
inductive IdempotencyStep (ι : Type u)
  | tick (seconds : ℕ)
  | reserve (e : ι) (r : Reservation)
  | insert (e : ι)
  | reclaim (e : ι)
  | mark (e : ι) (m : Completion)
  | flip (e : ι)
  | write (e : ι)
  | replace (e : ι)

/-- The clock, the record and the executors. -/
structure IdempotencyRun (ι : Type u) where
  now : ℕ
  record : Option IdempotencyRow
  call : ι → IdempotencyCall
  standing : ι → Standing

namespace IdempotencyRun

variable {ι : Type u} [DecidableEq ι]

def start (now : ℕ) (record : Option IdempotencyRow) : IdempotencyRun ι :=
  ⟨now, record, fun _ => .idle, fun _ => .none⟩

variable (s : IdempotencyRun ι)

def setCall (e : ι) (call : IdempotencyCall) : IdempotencyRun ι :=
  { s with call := Function.update s.call e call }

/-- `reserve` returns `True` to the executor. -/
def grant (e : ι) (row : IdempotencyRow) : IdempotencyRun ι :=
  { s.setCall e .idle with
    record := some row
    standing := fun d => if d = e then .held else if s.standing d = .none then .none else .lost }

/-- `mark_executed` is over. -/
def settle (e : ι) (row : IdempotencyRow) : IdempotencyRun ι :=
  { s.setCall e .idle with record := some row }

/-- One step; a step that is not possible changes nothing. -/
def step (s : IdempotencyRun ι) : IdempotencyStep ι → IdempotencyRun ι
  | .tick seconds => { s with now := s.now + seconds }
  | .reserve e r => if s.call e = .idle then s.setCall e (.inserting r s.now) else s
  | .insert e =>
    match s.call e with
    | .inserting r ts =>
      match insertReservation r ts s.record with
      | some row => s.grant e row
      | none => s.setCall e (.reclaiming r ts)
    | _ => s
  | .reclaim e =>
    match s.call e with
    | .reclaiming r ts =>
      match Store.reclaim r ts s.record with
      | some row => s.grant e row
      | none => s.setCall e .idle
    | _ => s
  | .mark e m => if s.call e = .idle then s.setCall e (.flipping m s.now) else s
  | .flip e =>
    match s.call e with
    | .flipping m ts =>
      match Store.flip m ts s.record with
      | some row => s.settle e row
      | none => s.setCall e (.writing m)
    | _ => s
  | .write e =>
    match s.call e with
    | .writing m => s.setCall e (.replacing m s.now)
    | _ => s
  | .replace e =>
    match s.call e with
    | .replacing m ts => s.settle e (m.row ts)
    | _ => s

/-! ## The law -/

/-- The executor whose `mark_executed` issues the statement. -/
def marker : IdempotencyStep ι → Option ι
  | .flip e => some e
  | .replace e => some e
  | _ => none

/-- The record is done and not expired. -/
def Finished : Prop := ∃ row, s.record = some row ∧ row.state = .done ∧ row.Live s.now

/-- `response_id` and `request_digest` of the record. -/
def outcome : Option (String × String) :=
  s.record.map fun row => (row.responseId, row.requestDigest)

/-- **The law of the store**: a statement of a `mark_executed` whose executor lost its reservation
leaves the record as it is, and the outcome of a finished record stays until it expires. -/
structure Intact (s : IdempotencyRun ι) (sched : List (IdempotencyStep ι)) : Prop where
  kept : ∀ pre a post, sched = pre ++ a :: post → ∀ e, marker a = some e →
    (runSchedule step s pre).standing e = .lost →
      ((runSchedule step s pre).step a).record = (runSchedule step s pre).record
  frozen : FrozenWhile step Finished outcome s sched

/-- The condition on a statement of `mark_executed`: the conditional `UPDATE` of an executor that
lost its reservation finds no row in flight, its `REPLACE` finds the row it writes, and no
`REPLACE` finds a finished record with another outcome. -/
def Harmless (s : IdempotencyRun ι) : IdempotencyStep ι → Prop
  | .flip e =>
    ∀ m ts, s.call e = .flipping m ts → s.standing e = .lost →
      ∀ row, s.record = some row → row.state = .done
  | .replace e =>
    ∀ m ts, s.call e = .replacing m ts →
      (s.standing e = .lost → s.record = some (m.row ts))
        ∧ ∀ row, s.record = some row → row.state = .done → row.Live s.now →
          row.responseId = m.responseId ∧ row.requestDigest = m.requestDigest
  | _ => True

/-- The clock of a call is not ahead. -/
def Timely : Prop := ∀ e r ts, s.call e = .reclaiming r ts ∨ s.call e = .inserting r ts → ts ≤ s.now

variable {s}

theorem timely_setCall (timely : s.Timely) {e : ι} {call : IdempotencyCall}
    (own : ∀ r ts, call = .reclaiming r ts ∨ call = .inserting r ts → ts ≤ s.now) :
    (s.setCall e call).Timely := by
  intro d r ts reading
  by_cases same : d = e
  · subst same
    exact own r ts (by simpa [setCall] using reading)
  · exact timely d r ts (by simpa [setCall, Function.update_of_ne same] using reading)

theorem timely_step (timely : s.Timely) (a : IdempotencyStep ι) : (s.step a).Timely := by
  have idle : ∀ e, (s.setCall e .idle).Timely := fun e => timely_setCall timely (by simp)
  cases a with
  | tick seconds =>
      intro e r ts reading
      exact (timely e r ts reading).trans (Nat.le_add_right ..)
  | reserve e r =>
      simp only [step]
      split
      case isTrue _ =>
        apply timely_setCall timely
        rintro r ts (reading | reading) <;> cases reading
        exact le_rfl
      case isFalse _ => exact timely
  | insert e =>
      simp only [step]
      split
      case h_1 r ts inserting =>
        split
        case h_1 row _ => exact idle e
        case h_2 _ =>
          apply timely_setCall timely
          rintro r' ts' (reading | reading) <;> cases reading
          exact timely e r ts (.inr inserting)
      case h_2 _ => exact timely
  | reclaim e =>
      simp only [step]
      split
      case h_1 r ts _ => split <;> exact idle e
      case h_2 _ => exact timely
  | mark e m =>
      simp only [step]
      split
      case isTrue _ => exact timely_setCall timely (by simp)
      case isFalse _ => exact timely
  | flip e =>
      simp only [step]
      split
      case h_1 m ts _ =>
        split
        case h_1 row _ => exact idle e
        case h_2 _ => exact timely_setCall timely (by simp)
      case h_2 _ => exact timely
  | write e =>
      simp only [step]
      split
      case h_1 m _ => exact timely_setCall timely (by simp)
      case h_2 _ => exact timely
  | replace e =>
      simp only [step]
      split
      case h_1 m ts _ => exact idle e
      case h_2 _ => exact timely

/-! ## What a step does to the record -/

theorem insertReservation_eq_some {r : Reservation} {ts : ℕ} {record : Option IdempotencyRow}
    {row : IdempotencyRow} (inserted : insertReservation r ts record = some row) :
    record = none ∧ row = r.row ts := by
  cases record with
  | none => exact ⟨rfl, (Option.some.inj inserted).symm⟩
  | some _ => cases inserted

theorem reclaim_eq_some {r : Reservation} {ts : ℕ} {record : Option IdempotencyRow}
    {row : IdempotencyRow} (reclaimed : Store.reclaim r ts record = some row) :
    row = r.row ts ∧ ∃ old, record = some old ∧ 0 < old.expiresAt ∧ old.expiresAt ≤ ts := by
  cases record with
  | none => cases reclaimed
  | some old =>
      simp only [Store.reclaim, Option.any_some, decide_eq_true_eq] at reclaimed
      split at reclaimed
      case isTrue expired => exact ⟨(Option.some.inj reclaimed).symm, old, rfl, expired⟩
      case isFalse _ => cases reclaimed

theorem flip_eq_some {m : Completion} {ts : ℕ} {record : Option IdempotencyRow}
    {row : IdempotencyRow} (flipped : Store.flip m ts record = some row) :
    row.state = .done ∧ ∃ old, record = some old ∧ old.state = .inFlight := by
  cases record with
  | none => cases flipped
  | some old =>
      simp only [Store.flip] at flipped
      split at flipped
      case isTrue inFlight =>
        obtain rfl := Option.some.inj flipped
        exact ⟨rfl, old, rfl, inFlight⟩
      case isFalse _ => cases flipped

theorem flip_eq_none {m : Completion} {ts : ℕ} {record : Option IdempotencyRow} :
    Store.flip m ts record = none ↔ ∀ row, record = some row → row.state = .done := by
  cases record with
  | none => simp [Store.flip]
  | some row =>
      simp only [Store.flip, Option.some.injEq, forall_eq']
      cases state : row.state <;> simp

theorem harmless_iff (timely : s.Timely) (a : IdempotencyStep ι) :
    ((∀ e, marker a = some e → s.standing e = .lost → (s.step a).record = s.record)
      ∧ (s.Finished → (s.step a).outcome = s.outcome)) ↔ s.Harmless a := by
  cases a with
  | flip e =>
      simp only [marker, Option.some.injEq, forall_eq', step, Harmless]
      split
      case h_2 other =>
        exact ⟨fun _ m ts flipping => absurd flipping (other m ts),
          fun _ => ⟨fun _ => rfl, fun _ => rfl⟩⟩
      case h_1 m ts flipping =>
        split
        case h_1 row flipped =>
          -- the row was in flight, and is not any more
          obtain ⟨finished, old, found, inFlight⟩ := flip_eq_some flipped
          have changed : (s.settle e row).record ≠ s.record := by
            intro same
            have eq : row = old := Option.some.inj (same.trans found)
            rw [eq, inFlight] at finished
            cases finished
          constructor
          · rintro ⟨kept, -⟩ m' ts' - lost
            exact absurd (kept lost) changed
          · intro harmless
            refine ⟨fun lost => ?_, ?_⟩
            · have finished' := harmless m ts flipping lost old found
              rw [inFlight] at finished'
              cases finished'
            · rintro ⟨row', found', finished', -⟩
              obtain rfl := Option.some.inj (found.symm.trans found')
              rw [inFlight] at finished'
              cases finished'
        case h_2 missed =>
          refine ⟨fun _ m' ts' _ _ => flip_eq_none.mp missed, fun _ => ⟨fun _ => rfl, fun _ => rfl⟩⟩
  | replace e =>
      simp only [marker, Option.some.injEq, forall_eq', step, Harmless]
      split
      case h_2 other =>
        exact ⟨fun _ m ts replacing => absurd replacing (other m ts),
          fun _ => ⟨fun _ => rfl, fun _ => rfl⟩⟩
      case h_1 m ts replacing =>
        constructor
        · rintro ⟨kept, frozen⟩ m' ts' replacing'
          obtain ⟨rfl, rfl⟩ : m = m' ∧ ts = ts' := by simpa [replacing] using replacing'
          refine ⟨fun lost => (kept lost).symm, ?_⟩
          intro row found finished live
          have same := frozen ⟨row, found, finished, live⟩
          simp only [outcome, settle, Completion.row, found, Option.map_some, Option.some.injEq,
            Prod.mk.injEq] at same
          exact ⟨same.1.symm, same.2.symm⟩
        · intro harmless
          obtain ⟨kept, frozen⟩ := harmless m ts replacing
          refine ⟨fun lost => (kept lost).symm, ?_⟩
          rintro ⟨row, found, finished, live⟩
          obtain ⟨response, digest⟩ := frozen row found finished live
          simp [outcome, settle, Completion.row, found, response, digest]
  | insert e =>
      simp only [marker, reduceCtorEq, false_implies, implies_true, true_and, step, Harmless,
        iff_true]
      rintro ⟨row, found, -⟩
      split
      case h_1 r ts _ =>
        split
        case h_1 row' inserted =>
          rw [(insertReservation_eq_some inserted).1] at found
          cases found
        case h_2 _ => rfl
      case h_2 _ => rfl
  | reclaim e =>
      simp only [marker, reduceCtorEq, false_implies, implies_true, true_and, step, Harmless,
        iff_true]
      rintro ⟨row, found, -, live⟩
      split
      case h_1 r ts reclaiming =>
        split
        case h_1 row' reclaimed =>
          -- a row that expired by the clock of the call has expired
          obtain ⟨-, old, found', positive, expired⟩ := reclaim_eq_some reclaimed
          obtain rfl := Option.some.inj (found.symm.trans found')
          have past := timely e r ts (.inl reclaiming)
          unfold IdempotencyRow.Live at live
          omega
        case h_2 _ => rfl
      case h_2 _ => rfl
  | tick seconds => simp [marker, Harmless, step, outcome]
  | _ e =>
      simp only [marker, reduceCtorEq, false_implies, implies_true, true_and, step, Harmless,
        iff_true]
      intro _
      split <;> rfl

end IdempotencyRun

open IdempotencyRun

variable {ι : Type u} [DecidableEq ι]

/-- **The runs that keep the law are those all of whose terminal writes are harmless.** -/
theorem idempotency_intact_iff (now : ℕ) (record : Option IdempotencyRow)
    (sched : List (IdempotencyStep ι)) :
    Intact (start now record) sched ↔ Along step Harmless (start now record) sched := by
  have timely : (start now record : IdempotencyRun ι).Timely := by
    intro e r ts reading
    simp [start] at reading
  rw [← along_congr Timely (fun s a timely => timely_step timely a)
    (fun s a timely => harmless_iff timely a) timely sched, along_and]
  constructor
  · rintro ⟨kept, frozen⟩
    exact ⟨along_iff_split.mpr kept, frozenWhile_iff_along.mp frozen⟩
  · rintro ⟨kept, frozen⟩
    exact ⟨along_iff_split.mp kept, frozenWhile_iff_along.mpr frozen⟩

/-- An executor reserves for ten seconds and comes back after twenty, when another one has the
reservation. -/
def slowExecutor : List (IdempotencyStep Bool) :=
  [.reserve false ⟨"resp_a#0", "d", 10⟩, .insert false, .tick 20,
    .reserve true ⟨"resp_b#0", "d", 10⟩, .insert true, .reclaim true,
    .mark false ⟨"resp_a#0", 200, "d", 86400⟩, .flip false]

/-- The record of the new holder is done under the name of the old one. -/
theorem slowExecutor_not_intact : ¬ Intact (start 1000 none) slowExecutor := by
  intro intact
  have kept := intact.kept (slowExecutor.take 7) (.flip false) [] rfl false rfl rfl
  exact absurd kept (by decide)

end Zhongzhuan.Store
