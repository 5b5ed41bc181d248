import Zhongzhuan.Kit.Buckets
import Zhongzhuan.Proxy.KeyHealth

/-!
# What a sliding window remembers

`SlidingWindow` turns its ring by the whole seconds since the last rotation, and then starts to
count from the current reading: the fraction of a second in between is left out.  So the ring
turns more slowly than the clock, and the more so the oftener it is looked at.

* `WindowRun` is a window together with the calls whose units each bucket holds.
* `Rotations` is where the rotations stand.  It depends on the readings of the clock only.
* `WindowRun.Lawful` is what holds after every call: a bucket holds what was recorded in its turn.
* `WindowRun.allow_bounded`: no more than the limit is granted in any `W - 1` seconds.
* `WindowRun.forgets_iff`: when usage older than `W + 1` seconds is forgotten.
-/

namespace Zhongzhuan.Proxy

open Kit

/-! ## Rotations -/

/-- Where the rotations of a window stand. -/
structure Rotations where
  /-- The reading of the last one. -/
  last : ℚ
  /-- The whole seconds by which they have turned the ring. -/
  turns : ℤ
  /-- The fractions of a second that they have left out. -/
  dropped : ℚ
deriving DecidableEq

namespace Rotations

/-- No rotation yet. -/
def start (now : ℚ) : Rotations :=
  ⟨now, 0, 0⟩

/-- The clock reads `now`. -/
def next (r : Rotations) (now : ℚ) : Rotations :=
  if ⌊now - r.last⌋ ≤ 0 then r
  else
    { last := now
      turns := r.turns + ⌊now - r.last⌋
      dropped := r.dropped + Int.fract (now - r.last) }

variable {r : Rotations} {now : ℚ}

theorem next_of_lt (soon : ⌊now - r.last⌋ ≤ 0) : r.next now = r :=
  if_pos soon

theorem next_of_le (due : ¬ ⌊now - r.last⌋ ≤ 0) :
    r.next now =
      ⟨now, r.turns + ⌊now - r.last⌋, r.dropped + Int.fract (now - r.last)⟩ :=
  if_neg due

theorem now_lt_next (r : Rotations) (now : ℚ) : now < (r.next now).last + 1 := by
  by_cases soon : ⌊now - r.last⌋ ≤ 0
  · rw [next_of_lt soon]
    have small : ⌊now - r.last⌋ < 1 := by omega
    have short : now - r.last < ((1 : ℤ) : ℚ) := Int.floor_lt.mp small
    push_cast at short
    linarith
  · rw [next_of_le soon]
    exact lt_add_one now

theorem next_le_now (past : r.last ≤ now) : (r.next now).last ≤ now := by
  by_cases soon : ⌊now - r.last⌋ ≤ 0
  · rwa [next_of_lt soon]
  · exact (next_of_le soon ▸ le_rfl)

/-- Since `r` the clock has gone on by whole turns and the fractions left out between them. -/
structure Since (r t : Rotations) : Prop where
  turns : r.turns ≤ t.turns
  dropped : r.dropped ≤ t.dropped
  elapsed : t.last - r.last = ((t.turns - r.turns : ℤ) : ℚ) + (t.dropped - r.dropped)

theorem Since.refl (r : Rotations) : Since r r :=
  ⟨le_rfl, le_rfl, by simp⟩

theorem Since.next {t : Rotations} (since : Since r t) (now : ℚ) : Since r (t.next now) := by
  by_cases soon : ⌊now - t.last⌋ ≤ 0
  · rwa [next_of_lt soon]
  · rw [next_of_le soon]
    have turned := since.turns
    refine ⟨by show r.turns ≤ t.turns + _; omega, ?_, ?_⟩
    · have left := Int.fract_nonneg (now - t.last)
      have before := since.dropped
      linarith
    · calc now - r.last
          = (t.last - r.last) + (⌊now - t.last⌋ + Int.fract (now - t.last)) := by
            rw [Int.floor_add_fract]
            ring
        _ = _ := by
            rw [since.elapsed]
            push_cast
            ring

theorem Since.le_turns_iff {t : Rotations} (since : Since r t) (W : ℕ) :
    r.turns + W ≤ t.turns ↔ t.dropped - r.dropped ≤ t.last - r.last - W := by
  rw [since.elapsed, ← Int.cast_le (R := ℚ)]
  push_cast
  constructor
  · intro enough
    linarith
  · intro room
    linarith

theorem Since.turns_le {t : Rotations} (since : Since r t) :
    ((t.turns - r.turns : ℤ) : ℚ) ≤ t.last - r.last := by
  have left := since.dropped
  rw [since.elapsed]
  linarith

end Rotations

/-! ## A window and what its buckets hold -/

/-- A call of a window, with what its caller passes. -/
inductive WindowCall
  | allow (n : ℤ)
  | add (n : ℤ)
  | currentUsage
deriving DecidableEq

/-- What the call leaves of the window. -/
def SlidingWindow.handle (w : SlidingWindow) (now : ℚ) : WindowCall → SlidingWindow
  | .allow n => (w.allow n now).1
  | .add n => w.add n now
  | .currentUsage => (w.currentUsage now).1

/-- What `_rotate` makes of a ring of buckets, whatever they hold. -/
def SlidingWindow.turned {M : Type} [AddCommMonoid M] (w : SlidingWindow) (now : ℚ)
    (ring : List M) : List M :=
  let elapsed := ⌊now - w.lastRotate⌋
  if elapsed ≤ 0 then ring
  else if (w.windowSeconds : ℤ) ≤ elapsed then List.replicate w.windowSeconds 0
  else Buckets.turn^[elapsed.toNat] ring

/-- The units that one call has recorded. -/
structure WindowEntry where
  time : ℚ
  units : ℤ
  /-- Where the rotations stood. -/
  mark : Rotations
deriving DecidableEq

namespace WindowEntry

/-- The turn in which the units were recorded. -/
def turn (e : WindowEntry) : ℤ :=
  e.mark.turns

end WindowEntry

/-- A window with its past. -/
structure WindowRun where
  window : SlidingWindow
  /-- For each bucket the calls whose units it holds. -/
  entries : List (Multiset WindowEntry)
  /-- Everything recorded so far. -/
  log : List WindowEntry
  rotations : Rotations

namespace WindowRun

/-- A new window. -/
def start (W : ℕ) (limit : ℤ) (now : ℚ) : WindowRun where
  window := SlidingWindow.new W limit now
  entries := List.replicate W 0
  log := []
  rotations := Rotations.start now

/-- `_rotate`. -/
def rotate (s : WindowRun) (now : ℚ) : WindowRun :=
  { s with
    window := s.window.rotate now
    entries := s.window.turned now s.entries
    rotations := s.rotations.next now }

/-- `n` units go into the newest bucket. -/
def record (s : WindowRun) (now : ℚ) (n : ℤ) : WindowRun :=
  let entry : WindowEntry := ⟨now, n, s.rotations⟩
  { s with
    window := s.window.count n
    entries := Buckets.put s.entries {entry}
    log := s.log ++ [entry] }

/-- A call: `allow` records its units when it answers `True`, `add` when there are any. -/
def handle (s : WindowRun) (now : ℚ) : WindowCall → WindowRun
  | .allow n => if (s.window.allow n now).2 then (s.rotate now).record now n else s.rotate now
  | .add n => if n ≤ 0 then s.rotate now else (s.rotate now).record now n
  | .currentUsage => s.rotate now

/-- The calls in turn, each with the reading of the clock. -/
def run (W : ℕ) (limit : ℤ) (began : ℚ) (calls : List (ℚ × WindowCall)) : WindowRun :=
  calls.foldl (fun s call => s.handle call.1 call.2) (start W limit began)

theorem run_concat (W : ℕ) (limit : ℤ) (began : ℚ) (calls : List (ℚ × WindowCall))
    (call : ℚ × WindowCall) :
    run W limit began (calls ++ [call]) = (run W limit began calls).handle call.1 call.2 := by
  simp [run]

/-! ## What holds after every call -/

/-- What holds after a call at `now`. -/
structure Lawful (W : ℕ) (s : WindowRun) (now : ℚ) : Prop where
  size : s.window.windowSeconds = W
  last : s.window.lastRotate = s.rotations.last
  past : s.rotations.last ≤ now
  buckets : s.window.buckets =
    Buckets.lastTurns WindowEntry.turn WindowEntry.units s.rotations.turns s.log W
  entries : s.entries =
    Buckets.lastTurns WindowEntry.turn (fun e => {e}) s.rotations.turns s.log W
  total : s.window.total = s.window.buckets.sum
  since : ∀ e ∈ s.log, e.mark.Since s.rotations
  time : ∀ e ∈ s.log, e.mark.last ≤ e.time ∧ e.time < e.mark.last + 1 ∧ e.time ≤ now

namespace Lawful

variable {W : ℕ} {s : WindowRun} {now : ℚ}

theorem start (W : ℕ) (limit : ℤ) (now : ℚ) : Lawful W (WindowRun.start W limit now) now where
  size := rfl
  last := rfl
  past := le_rfl
  buckets := (Buckets.lastTurns_of_old fun e mem => absurd mem List.not_mem_nil).symm
  entries := (Buckets.lastTurns_of_old fun e mem => absurd mem List.not_mem_nil).symm
  total := by simp [WindowRun.start, SlidingWindow.new]
  since := fun e mem => absurd mem List.not_mem_nil
  time := fun e mem => absurd mem List.not_mem_nil

theorem upto (lawful : Lawful W s now) : ∀ e ∈ s.log, e.turn ≤ s.rotations.turns :=
  fun e mem => (lawful.since e mem).turns

theorem turned_lastTurns (lawful : Lawful W s now) (pos : 0 < W) {M : Type} [AddCommMonoid M]
    (amount : WindowEntry → M) (now' : ℚ) :
    s.window.turned now' (Buckets.lastTurns WindowEntry.turn amount s.rotations.turns s.log W) =
      Buckets.lastTurns WindowEntry.turn amount (s.rotations.next now').turns s.log W := by
  have upto := lawful.upto
  unfold SlidingWindow.turned
  rw [lawful.last, lawful.size]
  by_cases soon : ⌊now' - s.rotations.last⌋ ≤ 0
  · rw [if_pos soon, Rotations.next_of_lt soon]
  · rw [if_neg soon, Rotations.next_of_le soon]
    by_cases long : (W : ℤ) ≤ ⌊now' - s.rotations.last⌋
    · rw [if_pos long]
      refine (Buckets.lastTurns_of_old fun e mem => ?_).symm
      have := upto e mem
      show e.turn + W ≤ s.rotations.turns + _
      omega
    · rw [if_neg long, Buckets.iterate_turn_lastTurns upto pos,
        Int.toNat_of_nonneg (by omega)]

theorem iterate_shift (w : SlidingWindow) (k : ℕ) :
    (SlidingWindow.shift^[k] w).buckets = Buckets.turn^[k] w.buckets := by
  induction k with
  | zero => rfl
  | succ k ih =>
    rw [Function.iterate_succ_apply', Function.iterate_succ_apply', ← ih]
    rfl

theorem rotate_buckets (w : SlidingWindow) (now : ℚ) :
    (w.rotate now).buckets = w.turned now w.buckets := by
  simp only [SlidingWindow.rotate, SlidingWindow.turned]
  split
  · rfl
  · split
    · rfl
    · exact iterate_shift w _

theorem total_shift {w : SlidingWindow} (total : w.total = w.buckets.sum) :
    w.shift.total = w.shift.buckets.sum := by
  cases buckets : w.buckets with
  | nil => simp [SlidingWindow.shift, total, buckets]
  | cons oldest rest => simp [SlidingWindow.shift, total, buckets]

theorem total_iterate {w : SlidingWindow} (total : w.total = w.buckets.sum) (k : ℕ) :
    (SlidingWindow.shift^[k] w).total = (SlidingWindow.shift^[k] w).buckets.sum := by
  induction k with
  | zero => exact total
  | succ k ih =>
    rw [Function.iterate_succ_apply']
    exact total_shift ih

theorem total_rotate {w : SlidingWindow} (total : w.total = w.buckets.sum) (now : ℚ) :
    (w.rotate now).total = (w.rotate now).buckets.sum := by
  simp only [SlidingWindow.rotate]
  split
  · exact total
  · split
    · simp
    · exact total_iterate total _

theorem iterate_shift_size (w : SlidingWindow) (k : ℕ) :
    (SlidingWindow.shift^[k] w).windowSeconds = w.windowSeconds ∧
      (SlidingWindow.shift^[k] w).limit = w.limit := by
  induction k with
  | zero => exact ⟨rfl, rfl⟩
  | succ k ih =>
    rw [Function.iterate_succ_apply']
    exact ih

theorem rotate_size (w : SlidingWindow) (now : ℚ) :
    (w.rotate now).windowSeconds = w.windowSeconds ∧ (w.rotate now).limit = w.limit := by
  simp only [SlidingWindow.rotate]
  split
  · exact ⟨rfl, rfl⟩
  · split
    · exact ⟨rfl, rfl⟩
    · exact iterate_shift_size w _

theorem rotate_last {w : SlidingWindow} {r : Rotations} (same : w.lastRotate = r.last)
    (now : ℚ) : (w.rotate now).lastRotate = (r.next now).last := by
  simp only [SlidingWindow.rotate, Rotations.next, same]
  split
  · exact same
  · split <;> rfl

theorem rotate (lawful : Lawful W s now) (pos : 0 < W) {now' : ℚ} (later : now ≤ now') :
    Lawful W (s.rotate now') now' where
  size := (rotate_size s.window now').1.trans lawful.size
  last := rotate_last lawful.last now'
  past := Rotations.next_le_now (lawful.past.trans later)
  buckets := by
    have turned := lawful.turned_lastTurns pos WindowEntry.units now'
    rw [← lawful.buckets] at turned
    exact (rotate_buckets s.window now').trans turned
  entries := by
    have turned := lawful.turned_lastTurns pos (fun e => ({e} : Multiset WindowEntry)) now'
    rwa [← lawful.entries] at turned
  total := total_rotate lawful.total now'
  since := fun e mem => (lawful.since e mem).next now'
  time := fun e mem => by
    obtain ⟨after, before, seen⟩ := lawful.time e mem
    exact ⟨after, before, seen.trans later⟩

theorem total_count {w : SlidingWindow} (total : w.total = w.buckets.sum)
    (some_ : w.buckets ≠ []) (n : ℤ) : (w.count n).total = (w.count n).buckets.sum := by
  obtain ⟨older, newest, split⟩ := List.eq_nil_or_concat w.buckets |>.resolve_left some_
  simp [SlidingWindow.count, total, split, add_assoc]

theorem put_lastTurns (s : WindowRun) (now : ℚ) (n : ℤ) (pos : 0 < W) {M : Type}
    [AddCommMonoid M] (amount : WindowEntry → M) :
    Buckets.put (Buckets.lastTurns WindowEntry.turn amount s.rotations.turns s.log W)
        (amount ⟨now, n, s.rotations⟩) =
      Buckets.lastTurns WindowEntry.turn amount s.rotations.turns (s.record now n).log W := by
  refine Buckets.put_lastTurns (e := WindowEntry.mk now n s.rotations) ?_ pos
  rfl

theorem record (lawful : Lawful W s now) (pos : 0 < W) (fresh : now < s.rotations.last + 1)
    (n : ℤ) : Lawful W (s.record now n) now where
  size := lawful.size
  last := lawful.last
  past := lawful.past
  buckets := by
    have here := put_lastTurns s now n pos WindowEntry.units
    rw [← lawful.buckets] at here
    exact here
  entries := by
    have here := put_lastTurns s now n pos (fun e => ({e} : Multiset WindowEntry))
    rw [← lawful.entries] at here
    exact here
  total := by
    refine total_count lawful.total ?_ n
    rw [lawful.buckets, ← List.length_pos_iff, Buckets.length_lastTurns]
    exact pos
  since := fun e mem => by
    rcases List.mem_append.mp mem with old | new
    · exact lawful.since e old
    · rw [List.mem_singleton.mp new]
      exact Rotations.Since.refl _
  time := fun e mem => by
    rcases List.mem_append.mp mem with old | new
    · exact lawful.time e old
    · rw [List.mem_singleton.mp new]
      exact ⟨lawful.past, fresh, le_rfl⟩

theorem handle (lawful : Lawful W s now) (pos : 0 < W) {now' : ℚ} (later : now ≤ now')
    (call : WindowCall) : Lawful W (s.handle now' call) now' := by
  have rotated := lawful.rotate pos later
  have recorded := rotated.record pos (Rotations.now_lt_next s.rotations now')
  cases call with
  | allow n =>
    simp only [WindowRun.handle]
    split
    · exact recorded n
    · exact rotated
  | add n =>
    simp only [WindowRun.handle]
    split
    · exact rotated
    · exact recorded n
  | currentUsage => exact rotated

end Lawful

/-- The reading of the last call, or of the constructor. -/
def lastReading (began : ℚ) (calls : List (ℚ × WindowCall)) : ℚ :=
  (calls.getLast?.map Prod.fst).getD began

@[simp] theorem lastReading_concat (began : ℚ) (calls : List (ℚ × WindowCall))
    (call : ℚ × WindowCall) : lastReading began (calls ++ [call]) = call.1 := by
  simp [lastReading]

/-- The clock does not go back. -/
def Ordered (began : ℚ) (calls : List (ℚ × WindowCall)) : Prop :=
  (began :: calls.map Prod.fst).Pairwise (· ≤ ·)

theorem Ordered.of_concat {began : ℚ} {calls : List (ℚ × WindowCall)}
    {call : ℚ × WindowCall} (ordered : Ordered began (calls ++ [call])) :
    Ordered began calls ∧ lastReading began calls ≤ call.1 := by
  unfold Ordered at ordered
  rw [List.map_append, ← List.cons_append, List.pairwise_append] at ordered
  refine ⟨ordered.1, ordered.2.2 _ ?_ _ (by simp)⟩
  rcases List.eq_nil_or_concat calls with rfl | ⟨before, last, rfl⟩
  · simp [lastReading]
  · simp

theorem lawful_run {W : ℕ} (pos : 0 < W) (limit : ℤ) (began : ℚ)
    (calls : List (ℚ × WindowCall)) (ordered : Ordered began calls) :
    Lawful W (run W limit began calls) (lastReading began calls) := by
  induction calls using List.reverseRecOn with
  | nil => exact Lawful.start W limit began
  | append_singleton calls call ih =>
    obtain ⟨before, later⟩ := ordered.of_concat
    rw [run_concat, lastReading_concat]
    exact (ih before).handle pos later call.2

/-! ## What the buckets hold -/

namespace Lawful

variable {W : ℕ} {s : WindowRun} {now : ℚ}

theorem total_eq (lawful : Lawful W s now) :
    s.window.total =
      ((s.log.filter (s.rotations.turns < ·.turn + W)).map WindowEntry.units).sum := by
  rw [lawful.total, lawful.buckets, Buckets.sum_lastTurns lawful.upto]

theorem sum_entries (lawful : Lawful W s now) :
    s.entries.sum = (s.log.filter (s.rotations.turns < ·.turn + W) : List WindowEntry) := by
  rw [lawful.entries, Buckets.sum_lastTurns lawful.upto]
  generalize s.log.filter (s.rotations.turns < ·.turn + W) = held
  induction held with
  | nil => rfl
  | cons e held ih => rw [List.map_cons, List.sum_cons, ih, Multiset.singleton_add]; rfl

theorem mem_entries (lawful : Lawful W s now) {e : WindowEntry} :
    e ∈ s.entries.sum ↔ e ∈ s.log ∧ s.rotations.turns < e.turn + W := by
  rw [lawful.sum_entries, Multiset.mem_coe, List.mem_filter, decide_eq_true_eq]

theorem total_entries (lawful : Lawful W s now) :
    s.window.total = (s.entries.sum.map WindowEntry.units).sum := by
  rw [lawful.total_eq, lawful.sum_entries, Multiset.map_coe, Multiset.sum_coe]

theorem held_of_recent (lawful : Lawful W s now) {e : WindowEntry} (mem : e ∈ s.log)
    (recent : now - (W - 1) ≤ e.time) : s.rotations.turns < e.turn + W := by
  have turns := (lawful.since e mem).turns_le
  obtain ⟨-, before, -⟩ := lawful.time e mem
  have past := lawful.past
  have few : ((s.rotations.turns - e.mark.turns : ℤ) : ℚ) < ((W : ℤ) : ℚ) := by
    push_cast at turns ⊢
    linarith
  have := Int.cast_lt.mp few
  show s.rotations.turns < e.mark.turns + W
  omega

end Lawful

/-! ## Old usage -/

/-- No unit that the buckets hold at `t` was recorded before `t - (W + 1)`. -/
def Forgets (W : ℕ) (s : WindowRun) (t : ℚ) : Prop :=
  ∀ e ∈ s.entries.sum, e.units ≠ 0 → t - (W + 1) ≤ e.time

/-- The fractions of a second that the rotations have left out since a unit was recorded, which
is more than `W + 1` seconds ago, are no more than the time between the two rotations exceeds `W`
by. -/
def FewDropped (W : ℕ) (s : WindowRun) (t : ℚ) : Prop :=
  ∀ e ∈ s.log, e.units ≠ 0 → e.time < t - (W + 1) →
    s.rotations.dropped - e.mark.dropped ≤ s.rotations.last - e.mark.last - W

theorem Lawful.forgets_iff {W : ℕ} {s : WindowRun} {t : ℚ} (lawful : Lawful W s t) :
    Forgets W s t ↔ FewDropped W s t := by
  constructor
  · intro forgets e mem units old
    rw [← (lawful.since e mem).le_turns_iff]
    by_contra held
    have kept := lawful.mem_entries.mpr ⟨mem, not_le.mp held⟩
    exact absurd (forgets e kept units) (not_le.mpr old)
  · intro few e kept units
    obtain ⟨mem, held⟩ := lawful.mem_entries.mp kept
    by_contra old
    have gone := few e mem units (not_le.mp old)
    rw [← (lawful.since e mem).le_turns_iff] at gone
    exact absurd held (not_lt.mpr gone)

/-- **Old usage is forgotten when the rotations have left out little.**  What `current_usage`
reports at `t` is the units of the entries in the buckets, and none of them is from before
`t - (W + 1)` exactly when the fractions of a second left out since then are few. -/
theorem currentUsage_forgets {W : ℕ} (pos : 1 ≤ W) (limit : ℤ) (began : ℚ)
    {calls : List (ℚ × WindowCall)} {t : ℚ}
    (ordered : Ordered began (calls ++ [(t, .currentUsage)])) :
    let s := run W limit began (calls ++ [(t, .currentUsage)])
    ((run W limit began calls).window.currentUsage t).2 =
        (s.entries.sum.map WindowEntry.units).sum ∧
      (Forgets W s t ↔ FewDropped W s t) := by
  have lawful := lawful_run pos limit began _ ordered
  rw [lastReading_concat] at lawful
  refine ⟨?_, lawful.forgets_iff⟩
  rw [← lawful.total_entries, run_concat]
  rfl

theorem currentUsage_forgets_minute :
    let s := run 60 0 0 [(0, .add 5), (30, .allow 1), (61, .currentUsage)]
    ((run 60 0 0 [(0, .add 5), (30, .allow 1)]).window.currentUsage 61).2 =
        (s.entries.sum.map WindowEntry.units).sum ∧
      (Forgets 60 s 61 ↔ FewDropped 60 s 61) :=
  currentUsage_forgets (by decide) 0 0 (by unfold Ordered; decide +kernel)

/-- A request recorded at second 0, and a look at the window every 1.9 seconds after it. -/
def slowLooks : List (ℚ × WindowCall) :=
  (0, .allow 1) :: (List.range 40).map fun k => ((k + 1) * (19 / 10), .currentUsage)

/-- The window of a minute still counts the request after 76 seconds, and a key with this limit
is not available. -/
theorem slowLooks_remember :
    Ordered 0 slowLooks ∧ lastReading 0 slowLooks = 76 ∧
      ¬ Forgets 60 (run 60 1 0 slowLooks) 76 ∧
      (({ KeyHealth.fresh (run 60 1 0 slowLooks).window with rpmLimit := 1 }).isAvailable 76).2 =
        false := by
  have held : (⟨0, 1, ⟨0, 0, 0⟩⟩ : WindowEntry) ∈ (run 60 1 0 slowLooks).entries.sum := by
    decide +kernel
  refine ⟨by unfold Ordered; decide +kernel, by decide +kernel, fun forgets => ?_,
    by decide +kernel⟩
  exact absurd (forgets _ held (by decide)) (by norm_num)

/-! ## What is granted -/

/-- Calls of `allow` alone. -/
def allows (calls : List (ℚ × ℤ)) : List (ℚ × WindowCall) :=
  calls.map fun call => (call.1, .allow call.2)

theorem allows_concat (calls : List (ℚ × ℤ)) (call : ℚ × ℤ) :
    allows (calls ++ [call]) = allows calls ++ [(call.1, .allow call.2)] := by
  simp [allows]

/-- What calls of `allow` with a positive limit keep. -/
structure Bounded (limit : ℤ) (s : WindowRun) : Prop where
  same : s.window.limit = limit
  nonneg : ∀ e ∈ s.log, 0 ≤ e.units
  total : s.window.total ≤ limit

theorem units_le {log : List WindowEntry} (nonneg : ∀ e ∈ log, 0 ≤ e.units)
    {p q : WindowEntry → Bool} (fewer : ∀ e ∈ log, p e → q e) :
    ((log.filter p).map WindowEntry.units).sum ≤ ((log.filter q).map WindowEntry.units).sum := by
  have both : log.filter p = (log.filter q).filter p := by
    rw [List.filter_filter]
    refine List.filter_congr fun e mem => ?_
    by_cases holds : p e
    · simp [holds, fewer e mem holds]
    · simp [holds]
  rw [both]
  refine (List.filter_sublist.map _).sum_le_sum fun n mem => ?_
  obtain ⟨e, held, rfl⟩ := List.mem_map.mp mem
  exact nonneg e (List.mem_of_mem_filter held)

theorem Lawful.total_rotate_le {W : ℕ} {s : WindowRun} {now now' : ℚ} (lawful : Lawful W s now)
    (pos : 0 < W) (later : now ≤ now') (nonneg : ∀ e ∈ s.log, 0 ≤ e.units) :
    (s.rotate now').window.total ≤ s.window.total := by
  have turns := ((Rotations.Since.refl s.rotations).next now').turns
  rw [(lawful.rotate pos later).total_eq, lawful.total_eq]
  refine units_le nonneg fun e _ held => ?_
  have held' : (s.rotations.next now').turns < e.turn + W := of_decide_eq_true held
  exact decide_eq_true (turns.trans_lt held')

theorem Bounded.allow {W : ℕ} {limit : ℤ} {s : WindowRun} {now now' : ℚ}
    (bounded : Bounded limit s) (limited : 0 < limit) (lawful : Lawful W s now) (pos : 0 < W)
    (later : now ≤ now') {n : ℤ} (nonneg : 0 ≤ n) : Bounded limit (s.handle now' (.allow n)) := by
  have rotated : Bounded limit (s.rotate now') :=
    ⟨(Lawful.rotate_size s.window now').2.trans bounded.same, bounded.nonneg,
      (lawful.total_rotate_le pos later bounded.nonneg).trans bounded.total⟩
  simp only [handle]
  split
  · case isTrue granted =>
    refine ⟨rotated.same, fun e mem => ?_, ?_⟩
    · rcases List.mem_append.mp mem with old | new
      · exact bounded.nonneg e old
      · rw [List.mem_singleton.mp new]
        exact nonneg
    · -- `allow` answered `True`, so there was room
      have limit_ : (s.window.rotate now').limit = limit := rotated.same
      by_contra over_
      have full : 0 < (s.window.rotate now').limit ∧
          (s.window.rotate now').limit < (s.window.rotate now').total + n := by
        rw [limit_]
        exact ⟨limited, not_le.mp over_⟩
      rw [SlidingWindow.allow, if_pos full] at granted
      exact absurd granted Bool.false_ne_true
  · exact rotated

theorem bounded_run {W : ℕ} (pos : 0 < W) {limit : ℤ} (limited : 0 < limit) (began : ℚ)
    (calls : List (ℚ × ℤ)) (ordered : Ordered began (allows calls))
    (nonneg : ∀ call ∈ calls, 0 ≤ call.2) : Bounded limit (run W limit began (allows calls)) := by
  induction calls using List.reverseRecOn with
  | nil => exact ⟨rfl, fun e mem => absurd mem List.not_mem_nil, limited.le⟩
  | append_singleton calls call ih =>
    rw [allows_concat] at ordered ⊢
    obtain ⟨before, later⟩ := Ordered.of_concat ordered
    have bounded := ih before fun c mem => nonneg c (List.mem_append_left _ mem)
    rw [run_concat]
    exact bounded.allow limited (lawful_run pos limit began _ before) pos later
      (nonneg call (by simp))

/-- The units granted at readings from `a` to `a + (W - 1)`. -/
def grantedFrom (s : WindowRun) (W : ℕ) (a : ℚ) : ℤ :=
  ((s.log.filter fun e => a ≤ e.time ∧ e.time ≤ a + (W - 1)).map WindowEntry.units).sum

theorem Lawful.grantedFrom_le {W : ℕ} {s : WindowRun} {now a : ℚ} (lawful : Lawful W s now)
    (nonneg : ∀ e ∈ s.log, 0 ≤ e.units) (lasts : now ≤ a + (W - 1)) :
    s.grantedFrom W a ≤ s.window.total := by
  rw [lawful.total_eq]
  refine units_le nonneg fun e mem inside => ?_
  have from_ : a ≤ e.time := (of_decide_eq_true inside).1
  exact decide_eq_true (lawful.held_of_recent mem (by linarith))

theorem grantedFrom_handle (s : WindowRun) (W : ℕ) {a now : ℚ} (after : a + (W - 1) < now)
    (call : WindowCall) : (s.handle now call).grantedFrom W a = s.grantedFrom W a := by
  have outside (n : ℤ) : ((s.rotate now).record now n).grantedFrom W a = s.grantedFrom W a := by
    have late : ¬ (a ≤ now ∧ now ≤ a + (W - 1)) := fun inside => absurd inside.2 (not_le.mpr after)
    simp [grantedFrom, record, rotate, List.filter_append, late]
  cases call with
  | allow n =>
    simp only [handle]
    split
    · exact outside n
    · rfl
  | add n =>
    simp only [handle]
    split
    · rfl
    · exact outside n
  | currentUsage => rfl

/-- **Calls of `allow` keep to the limit.**  The total is the sum of the buckets, from zero to the
limit, and what is granted in any closed interval of `W - 1` seconds is within the limit. -/
theorem allow_bounded {W : ℕ} (pos : 1 ≤ W) {limit : ℤ} (limited : 0 < limit) (began : ℚ)
    {calls : List (ℚ × ℤ)} (ordered : Ordered began (allows calls))
    (nonneg : ∀ call ∈ calls, 0 ≤ call.2) :
    let s := run W limit began (allows calls)
    s.window.total = s.window.buckets.sum ∧ 0 ≤ s.window.total ∧ s.window.total ≤ limit ∧
      ∀ a : ℚ, s.grantedFrom W a ≤ limit := by
  have lawful := lawful_run pos limit began _ ordered
  have bounded := bounded_run pos limited began calls ordered nonneg
  refine ⟨lawful.total, ?_, bounded.total, fun a => ?_⟩
  · rw [lawful.total_eq]
    refine List.sum_nonneg fun n mem => ?_
    obtain ⟨e, held, rfl⟩ := List.mem_map.mp mem
    exact bounded.nonneg e (List.mem_of_mem_filter held)
  · -- back to the last call of the interval
    clear lawful bounded
    induction calls using List.reverseRecOn with
    | nil => exact limited.le
    | append_singleton calls call ih =>
      have lawful := lawful_run pos limit began _ ordered
      have bounded := bounded_run pos limited began _ ordered nonneg
      rw [allows_concat] at lawful bounded ordered ⊢
      rcases le_or_gt call.1 (a + (W - 1)) with lasts | after
      · rw [lastReading_concat] at lawful
        exact (lawful.grantedFrom_le bounded.nonneg lasts).trans bounded.total
      · rw [run_concat, grantedFrom_handle _ W after]
        exact ih ordered.of_concat.1 fun c mem => nonneg c (List.mem_append_left _ mem)

theorem allow_bounded_minute :
    let s := run 60 2 0 (allows [(0, 1), (59 / 2, 1), (59, 1), (61, 1)])
    s.window.total = s.window.buckets.sum ∧ 0 ≤ s.window.total ∧ s.window.total ≤ 2 ∧
      ∀ a : ℚ, s.grantedFrom 60 a ≤ 2 :=
  allow_bounded (by decide) (by decide) 0 (by unfold Ordered; decide +kernel) (by decide)

end WindowRun

end Zhongzhuan.Proxy
