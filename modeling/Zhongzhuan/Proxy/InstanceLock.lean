import Zhongzhuan.Kit.Schedule
import Zhongzhuan.Kit.Text

/-!
# The instance lock

The model of `acquire_instance_lock` and `InstanceLock.release` in `proxy/concurrency.py`, for any
number of processes at one path.  A step is one call on the file system, or the probe for a pid;
between any two of them others may move, and a process may die, also while it writes its pid.

A file has an identity of its own: what is written goes to the file that was created, whether or
not it is still the one at the path.

* What was read is not looked at again before the file is removed, and a release removes whatever
  is at the path.  `lockLaw_of_orderly` says which runs keep the lock exclusive all the same.
* A file that no pid can be read from is never removed.  `lockRecovers_iff` says from which files a
  later start recovers.
-/

namespace Zhongzhuan.Proxy

open Kit

/-! ## The file -/

/-- `str(owner)`. -/
def pidText (pid : ℕ) : List Char := Nat.toDigits 10 pid

/-- `_read_lock_pid` of what is at the path.  The signs, underscores and other digits that `int`
takes as well are never written. -/
def readLockPid (text : Option (List Char)) : Option ℕ :=
  text.bind fun text =>
    if isAsciiDigits (strip text) then intOfDigits (strip text) else none

section Digits

variable {text : List Char} {pid : ℕ}

theorem isAsciiDigit_of_mem_pidText {c : Char} (mem : c ∈ pidText pid) : isAsciiDigit c = true := by
  have digit := Nat.isDigit_of_mem_toDigits (by decide) (by decide) mem
  simp only [Char.isDigit, Bool.and_eq_true, decide_eq_true_eq] at digit
  simp only [isAsciiDigit, Bool.and_eq_true, decide_eq_true_eq]
  exact digit

theorem isSpace_of_isAsciiDigit {c : Char} (digit : isAsciiDigit c = true) : isSpace c = false := by
  simp only [isAsciiDigit, Bool.and_eq_true, decide_eq_true_eq, Char.le_def,
    UInt32.le_iff_toNat_le] at digit
  have low : 48 ≤ c.toNat := digit.1
  have high : c.toNat ≤ 57 := digit.2
  unfold isSpace
  simp only [Bool.or_eq_false_iff, Bool.and_eq_false_iff, decide_eq_false_iff_not,
    beq_eq_false_iff_ne]
  omega

theorem strip_of_digits (digits : ∀ c ∈ text, isAsciiDigit c = true) : strip text = text := by
  have front : ∀ {cs : List Char}, (∀ c ∈ cs, isAsciiDigit c = true) →
      cs.dropWhile isSpace = cs := by
    intro cs all
    cases cs with
    | nil => rfl
    | cons c cs =>
      exact List.dropWhile_cons_of_neg
        (by rw [isSpace_of_isAsciiDigit (all c List.mem_cons_self)]; exact Bool.false_ne_true)
  rw [strip, front digits, front fun c mem => digits c (List.mem_reverse.mp mem),
    List.reverse_reverse]

theorem isAsciiDigits_pidText : isAsciiDigits (pidText pid) = true := by
  have nonempty : pidText pid ≠ [] := Nat.toDigits_ne_nil
  rw [isAsciiDigits, Bool.and_eq_true, List.all_eq_true]
  exact ⟨by simpa using nonempty, fun c mem => isAsciiDigit_of_mem_pidText mem⟩

theorem readLockPid_pidText :
    readLockPid (some (pidText pid)) = if maxStrDigits < (pidText pid).length then none
      else some pid := by
  change (if isAsciiDigits (strip (pidText pid)) then intOfDigits (strip (pidText pid))
    else none) = _
  rw [strip_of_digits fun c mem => isAsciiDigit_of_mem_pidText mem, if_pos isAsciiDigits_pidText,
    intOfDigits]
  have value : (pidText pid).foldl (fun n c => 10 * n + (c.toNat - '0'.toNat)) 0 = pid :=
    Nat.ofDigitChars_ten_toDigits
  rw [value]

theorem eq_of_readLockPid {n : ℕ} (read : readLockPid (some (pidText pid)) = some n) :
    n = pid := by
  rw [readLockPid_pidText] at read
  split at read
  · cases read
  · exact (Option.some.inj read).symm

end Digits

/-! ## Processes -/

/-- How a call of `acquire_instance_lock` ended. -/
inductive AcquireResult
  | returned
  /-- `MultiInstanceError`. -/
  | inUse (pid : ℕ)
  /-- The `FileExistsError` of `O_EXCL`. -/
  | fileExists
deriving DecidableEq, Repr

/-- Where a process is in `acquire_instance_lock`. -/
inductive AcquirePhase
  | idle
  /-- A foreign pid was read from a file, and is to be probed. -/
  | probing (file pid : ℕ)
  /-- The file that was read is to be removed. -/
  | stealing (file : ℕ)
  | creating
  /-- The file was created, and the pid is to be written to it. -/
  | writing (file : ℕ)
deriving DecidableEq, Repr

/-- The file a phase speaks of. -/
def AcquirePhase.file? : AcquirePhase → Option ℕ
  | .probing file _ | .stealing file | .writing file => some file
  | .idle | .creating => none

/-- A process. -/
structure LockProcess where
  alive : Bool
  phase : AcquirePhase
  /-- Locks it acquired and has not released. -/
  held : ℕ
  /-- Locks it has released. -/
  released : ℕ
  result : Option AcquireResult
deriving DecidableEq, Repr

/-- The path, the files that were ever created, and the processes by their pids. -/
structure LockState where
  path : Option ℕ
  content : ℕ → List Char
  creator : ℕ → ℕ
  nextFile : ℕ
  proc : ℕ → LockProcess

/-- One thing that happens. -/
inductive LockStep
  /-- The next call of `acquire_instance_lock`. -/
  | acquire (pid : ℕ)
  /-- `release`, of a lock that is held or of one that was released before. -/
  | release (pid : ℕ) (again : Bool)
  | die (pid : ℕ)
  /-- The process dies while it writes, after some characters. -/
  | tear (pid count : ℕ)
deriving DecidableEq, Repr

/-- Who takes a step. -/
def LockStep.actor : LockStep → ℕ
  | .acquire pid | .release pid _ | .die pid | .tear pid _ => pid

namespace LockState

/-- No file, and none of the processes that are alive has done anything. -/
def start (live : ℕ → Bool) : LockState where
  path := none
  content := fun _ => []
  creator := fun _ => 0
  nextFile := 0
  proc := fun pid => ⟨live pid, .idle, 0, 0, none⟩

variable (s : LockState) (pid : ℕ)

/-- The text at the path. -/
def text : Option (List Char) := s.path.map s.content

def setProc (change : LockProcess → LockProcess) : LockState :=
  { s with proc := Function.update s.proc pid (change (s.proc pid)) }

/-- The process goes on to another phase. -/
def goTo (phase : AcquirePhase) : LockState := s.setProc pid fun p => { p with phase := phase }

/-- The call raises. -/
def raise (result : AcquireResult) : LockState :=
  s.setProc pid fun p => { p with phase := .idle, result := some result }

/-- The next step of `acquire_instance_lock`. -/
def acquire : LockState :=
  match (s.proc pid).phase with
  | .idle =>
    match s.path, readLockPid s.text with
    | some file, some existing =>
      s.goTo pid (if existing = pid then .stealing file else .probing file existing)
    | _, _ => s.goTo pid .creating
  | .probing file existing =>
    if (s.proc existing).alive then s.raise pid (.inUse existing)
    else s.goTo pid (.stealing file)
  | .stealing _ => { s.goTo pid .creating with path := none }
  | .creating =>
    match s.path with
    | some _ => s.raise pid .fileExists
    | none =>
      { s.goTo pid (.writing s.nextFile) with
        path := some s.nextFile
        content := Function.update s.content s.nextFile []
        creator := Function.update s.creator s.nextFile pid
        nextFile := s.nextFile + 1 }
  | .writing file =>
    { s.setProc pid fun p =>
        { p with phase := .idle, held := p.held + 1, result := some .returned } with
      content := Function.update s.content file (pidText pid) }

/-- `InstanceLock.release`. -/
def release (again : Bool) : LockState :=
  if again then if 0 < (s.proc pid).released then { s with path := none } else s
  else if 0 < (s.proc pid).held then
    { s.setProc pid fun p => { p with held := p.held - 1, released := p.released + 1 } with
      path := none }
  else s

/-- The process dies. -/
def die : LockState := s.setProc pid fun p => { p with alive := false }

/-- The process dies while it writes. -/
def tear (count : ℕ) : LockState :=
  match (s.proc pid).phase with
  | .writing file =>
    { s.die pid with content := Function.update s.content file ((pidText pid).take count) }
  | _ => s

/-- One step; the dead take none. -/
def step (s : LockState) : LockStep → LockState
  | .acquire pid => if (s.proc pid).alive then s.acquire pid else s
  | .release pid again => if (s.proc pid).alive then s.release pid again else s
  | .die pid => s.die pid
  | .tear pid count => if (s.proc pid).alive then s.tear pid count else s

/-! ## The law of the lock -/

/-- At most one live process holds a lock it has not released. -/
def OneHolder (s : LockState) : Prop :=
  ∀ p q, (s.proc p).alive = true → (s.proc q).alive = true →
    0 < (s.proc p).held → 0 < (s.proc q).held → p = q

/-- A release does not remove the file of another live holder. -/
def SparesOthers (s : LockState) (a : LockStep) : Prop :=
  ∀ pid again, a = .release pid again → ∀ file, s.path = some file → s.creator file ≠ pid →
    (s.proc (s.creator file)).alive = true → 0 < (s.proc (s.creator file)).held →
      (s.step a).path = some file

/-- A file is removed to be replaced only while it is the one that was read; a process that holds
the lock does not acquire it again; and a lock is released a second time only while there is no
file. -/
structure Orderly (s : LockState) (a : LockStep) : Prop where
  fresh : ∀ pid file, a = .acquire pid → (s.proc pid).alive = true →
    (s.proc pid).phase = .stealing file → s.path = none ∨ s.path = some file
  once : ∀ pid, a = .acquire pid → (s.proc pid).alive = true → (s.proc pid).phase = .idle →
    (s.proc pid).held = 0
  single : ∀ pid, a = .release pid true → (s.proc pid).alive = true → s.path = none

/-- What holds along orderly runs. -/
structure Sound (s : LockState) : Prop where
  known : ∀ file, s.path = some file → file < s.nextFile
  named : ∀ pid file, (s.proc pid).phase.file? = some file → file < s.nextFile
  /-- Whoever is in the middle of acquiring holds nothing. -/
  busy : ∀ pid, (s.proc pid).alive = true → (s.proc pid).phase ≠ .idle → (s.proc pid).held = 0
  holder : ∀ pid, (s.proc pid).alive = true → 0 < (s.proc pid).held →
    (s.proc pid).held = 1 ∧ ∃ file, s.path = some file ∧ s.creator file = pid
  writer : ∀ pid file, (s.proc pid).alive = true → (s.proc pid).phase = .writing file →
    s.path = some file ∧ s.creator file = pid
  /-- The file of a live process is at the path only while it writes or holds. -/
  owner : ∀ file, s.path = some file → (s.proc (s.creator file)).alive = true →
    0 < (s.proc (s.creator file)).held
      ∨ (s.proc (s.creator file)).phase = .writing file
  written : ∀ file, file < s.nextFile → (s.proc (s.creator file)).alive = true →
    s.content file = [] ∨ s.content file = pidText (s.creator file)
  probed : ∀ pid file existing, (s.proc pid).alive = true →
    (s.proc pid).phase = .probing file existing →
      s.creator file = existing ∨ (s.proc (s.creator file)).alive = false
  stale : ∀ pid file, (s.proc pid).alive = true → (s.proc pid).phase = .stealing file →
    (s.proc (s.creator file)).alive = false

/-! ## Orderly runs -/

section Steps

variable {s : LockState} {pid q : ℕ} {change : LockProcess → LockProcess}

theorem setProc_self : (s.setProc pid change).proc pid = change (s.proc pid) :=
  Function.update_self ..

theorem setProc_of_ne (other : q ≠ pid) : (s.setProc pid change).proc q = s.proc q :=
  Function.update_of_ne other ..

theorem setProc_proc : (s.setProc pid change).proc q
    = if q = pid then change (s.proc pid) else s.proc q :=
  Function.update_apply ..

@[simp] theorem setProc_path : (s.setProc pid change).path = s.path := rfl

@[simp] theorem setProc_content : (s.setProc pid change).content = s.content := rfl

@[simp] theorem setProc_creator : (s.setProc pid change).creator = s.creator := rfl

@[simp] theorem setProc_nextFile : (s.setProc pid change).nextFile = s.nextFile := rfl

theorem Sound.setProc (sound : s.Sound) (alive : (change (s.proc pid)).alive = true →
      (s.proc pid).alive = true)
    (held : (change (s.proc pid)).held = (s.proc pid).held)
    (named : ∀ file, (change (s.proc pid)).phase.file? = some file → file < s.nextFile)
    (busy : (change (s.proc pid)).alive = true → (change (s.proc pid)).phase ≠ .idle →
      (s.proc pid).held = 0)
    (writing : ∀ file, (change (s.proc pid)).alive = true →
      ((change (s.proc pid)).phase = .writing file ↔ (s.proc pid).phase = .writing file))
    (probed : ∀ file existing, (change (s.proc pid)).alive = true →
      (change (s.proc pid)).phase = .probing file existing →
        s.creator file = existing ∨ (s.proc (s.creator file)).alive = false)
    (stale : ∀ file, (change (s.proc pid)).alive = true →
      (change (s.proc pid)).phase = .stealing file → (s.proc (s.creator file)).alive = false) :
    (s.setProc pid change).Sound := by
  -- whoever was dead stays dead
  have dead : ∀ q, (s.proc q).alive = false → ((s.setProc pid change).proc q).alive = false := by
    intro q gone
    by_cases same : q = pid
    · subst same
      rw [setProc_self]
      by_contra living
      rw [alive (by simpa using living)] at gone
      cases gone
    · rwa [setProc_of_ne same]
  constructor
  case known => exact sound.known
  case named =>
    intro q file
    by_cases same : q = pid
    · subst same
      rw [setProc_self]
      exact named file
    · rw [setProc_of_ne same]
      exact sound.named q file
  case busy =>
    intro q
    by_cases same : q = pid
    · subst same
      rw [setProc_self, held]
      exact busy
    · rw [setProc_of_ne same]
      exact sound.busy q
  case holder =>
    intro q
    by_cases same : q = pid
    · subst same
      rw [setProc_self, held]
      exact fun living => sound.holder q (alive living)
    · rw [setProc_of_ne same]
      exact sound.holder q
  case writer =>
    intro q file
    by_cases same : q = pid
    · subst same
      rw [setProc_self]
      exact fun living here => sound.writer q file (alive living) ((writing file living).mp here)
    · rw [setProc_of_ne same]
      exact sound.writer q file
  case owner =>
    intro file here
    rw [setProc_path] at here
    rw [setProc_creator]
    by_cases same : s.creator file = pid
    · intro living
      have owner := sound.owner file here
      rw [same] at living owner ⊢
      rw [setProc_self] at living ⊢
      rw [held]
      exact (owner (alive living)).imp_right (writing file living).mpr
    · rw [setProc_of_ne same]
      exact sound.owner file here
  case written =>
    intro file old living
    rw [setProc_creator] at living
    refine sound.written file old ?_
    by_contra gone
    rw [dead _ (by simpa using gone)] at living
    cases living
  case probed =>
    intro q file existing
    by_cases same : q = pid
    · subst same
      rw [setProc_self]
      exact fun living here => (probed file existing living here).imp_right (dead _)
    · rw [setProc_of_ne same]
      exact fun living here => (sound.probed q file existing living here).imp_right (dead _)
  case stale =>
    intro q file
    by_cases same : q = pid
    · subst same
      rw [setProc_self]
      exact fun living here => dead _ (stale file living here)
    · rw [setProc_of_ne same]
      exact fun living here => dead _ (sound.stale q file living here)

theorem Sound.unlink (sound : s.Sound)
    (gone : ∀ file, s.path = some file → (s.proc (s.creator file)).alive = false) :
    ({ s with path := none } : LockState).Sound := by
  have nobody : ∀ {q file}, (s.proc q).alive = true → s.path = some file → s.creator file = q →
      False := by
    rintro q file living here rfl
    rw [gone file here] at living
    cases living
  constructor
  case known => rintro file ⟨⟩
  case named => exact sound.named
  case busy => exact sound.busy
  case holder =>
    intro q living holds
    obtain ⟨-, file, here, creator⟩ := sound.holder q living holds
    exact (nobody living here creator).elim
  case writer =>
    intro q file living here
    obtain ⟨path, creator⟩ := sound.writer q file living here
    exact (nobody living path creator).elim
  case owner => rintro file ⟨⟩
  case written => exact sound.written
  case probed => exact sound.probed
  case stale => exact sound.stale

theorem Sound.vacant (sound : s.Sound) (none : s.path = none) (living : (s.proc q).alive = true) :
    (s.proc q).held = 0 ∧ ∀ file, (s.proc q).phase ≠ .writing file := by
  constructor
  · by_contra holds
    obtain ⟨-, file, here, -⟩ := sound.holder q living (Nat.pos_of_ne_zero holds)
    rw [none] at here
    cases here
  · intro file writes
    have here := (sound.writer q file living writes).1
    rw [none] at here
    cases here

theorem Sound.create (sound : s.Sound) (none : s.path = none)
    (living : (s.proc pid).alive = true) :
    ({ s.goTo pid (.writing s.nextFile) with
        path := some s.nextFile
        content := Function.update s.content s.nextFile []
        creator := Function.update s.creator s.nextFile pid
        nextFile := s.nextFile + 1 } : LockState).Sound := by
  have vacant := fun q => @Sound.vacant s q sound none
  obtain ⟨known, named, busy, holder, writer, owner, written, probed, stale⟩ := sound
  constructor
  all_goals simp only [goTo, setProc_proc, Function.update_apply]
  case known => grind
  case named => grind [AcquirePhase.file?]
  case busy => grind
  case holder => grind
  case writer => grind
  case owner => grind
  case written => grind
  case probed => grind [AcquirePhase.file?]
  case stale => grind [AcquirePhase.file?]

theorem Sound.write (sound : s.Sound) {file : ℕ} (living : (s.proc pid).alive = true)
    (writing : (s.proc pid).phase = .writing file) :
    ({ s.setProc pid fun p =>
        { p with phase := .idle, held := p.held + 1, result := some .returned } with
        content := Function.update s.content file (pidText pid) } : LockState).Sound := by
  have nothing : (s.proc pid).held = 0 := sound.busy pid living (by simp [writing])
  obtain ⟨here, mine⟩ := sound.writer pid file living writing
  obtain ⟨known, named, busy, holder, writer, owner, written, probed, stale⟩ := sound
  constructor
  all_goals simp only [setProc_proc, setProc_path, setProc_creator, setProc_nextFile,
    Function.update_apply]
  case known => exact known
  case named => grind [AcquirePhase.file?]
  case busy => grind
  case holder => grind
  case writer => grind
  case owner => grind
  case written => grind
  case probed => grind
  case stale => grind

theorem Sound.letGo (sound : s.Sound) (living : (s.proc pid).alive = true)
    (holds : 0 < (s.proc pid).held) :
    ({ s.setProc pid fun p => { p with held := p.held - 1, released := p.released + 1 } with
        path := none } : LockState).Sound := by
  obtain ⟨once, file, here, mine⟩ := sound.holder pid living holds
  obtain ⟨known, named, busy, holder, writer, owner, written, probed, stale⟩ := sound
  constructor
  all_goals simp only [setProc_proc, setProc_content, setProc_creator, setProc_nextFile]
  case known => simp
  case named => grind
  case busy => grind
  case holder => grind
  case writer => grind
  case owner => simp
  case written => grind
  case probed => grind
  case stale => grind

theorem Sound.die (sound : s.Sound) : (s.die pid).Sound := by
  apply sound.setProc
  all_goals simp
  exact fun file => sound.named pid file

theorem Sound.tear (sound : s.Sound) (living : (s.proc pid).alive = true) (count : ℕ) :
    (s.tear pid count).Sound := by
  unfold LockState.tear
  cases phase : (s.proc pid).phase with
  | writing file =>
    have mine := (sound.writer pid file living phase).2
    have dies := @Sound.die s pid sound
    have gone : ((s.die pid).proc pid).alive = false := by rw [LockState.die, setProc_self]
    obtain ⟨known, named, busy, holder, writer, owner, written, probed, stale⟩ := dies
    refine ⟨known, named, busy, holder, writer, owner, ?_, probed, stale⟩
    intro i below alive
    by_cases same : i = file
    · subst same
      change ((s.die pid).proc (s.creator i)).alive = true at alive
      rw [mine, gone] at alive
      cases alive
    · have kept := written i below alive
      change Function.update s.content file _ i = [] ∨ Function.update s.content file _ i = _
      rwa [Function.update_of_ne same]
  | _ => exact sound

theorem Sound.read (sound : s.Sound) {file existing : ℕ} (here : s.path = some file)
    (read : readLockPid s.text = some existing) :
    s.creator file = existing ∨ (s.proc (s.creator file)).alive = false := by
  rw [text, here] at read
  rw [← Bool.not_eq_true, or_iff_not_imp_right, not_not]
  intro living
  rcases sound.written file (sound.known file here) living with empty | whole
  · rw [Option.map_some, empty] at read
    cases read
  · rw [Option.map_some, whole] at read
    exact (eq_of_readLockPid read).symm

theorem Sound.goRead (sound : s.Sound) (living : (s.proc pid).alive = true)
    (idle : (s.proc pid).phase = .idle) (nothing : (s.proc pid).held = 0) {file existing : ℕ}
    (here : s.path = some file) (read : readLockPid s.text = some existing) :
    (s.goTo pid (if existing = pid then .stealing file else .probing file existing)).Sound := by
  have maker := sound.read here read
  split
  case isTrue own =>
    subst own
    -- a live maker holds the lock or writes, and this process does neither
    have gone : (s.proc (s.creator file)).alive = false := by
      rcases maker with mine | gone
      · have owner := sound.owner file here
        simp [mine, nothing, idle, living] at owner
      · exact gone
    apply sound.setProc
    all_goals simp [AcquirePhase.file?, nothing, idle]
    · exact sound.known file here
    · exact fun _ => gone
  case isFalse =>
    apply sound.setProc
    all_goals simp [AcquirePhase.file?, nothing, idle]
    · exact sound.known file here
    · exact fun _ => maker

theorem Sound.acquire (sound : s.Sound) (living : (s.proc pid).alive = true)
    (orderly : Orderly s (.acquire pid)) : (s.acquire pid).Sound := by
  unfold LockState.acquire
  cases phase : (s.proc pid).phase with
  | idle =>
    have nothing := orderly.once pid rfl living phase
    have vacantly : (s.goTo pid .creating).Sound := by
      apply sound.setProc
      all_goals simp [AcquirePhase.file?, nothing, phase]
    cases here : s.path with
    | none => exact vacantly
    | some file =>
      cases read : readLockPid s.text with
      | none => exact vacantly
      | some existing => exact sound.goRead living phase nothing here read
  | probing file existing =>
    have nothing : (s.proc pid).held = 0 := sound.busy pid living (by simp [phase])
    have below := sound.named pid file (by rw [phase]; rfl)
    dsimp only
    split
    case isTrue =>
      apply sound.setProc
      all_goals simp [AcquirePhase.file?, phase]
    case isFalse gone =>
      have stale : (s.proc (s.creator file)).alive = false := by
        rcases sound.probed pid file existing living phase with maker | dead
        · rw [maker]
          simpa using gone
        · exact dead
      apply sound.setProc
      all_goals simp [AcquirePhase.file?, nothing, phase]
      · exact below
      · exact fun _ => stale
  | stealing file =>
    have nothing : (s.proc pid).held = 0 := sound.busy pid living (by simp [phase])
    have stale := sound.stale pid file living phase
    have goes : (s.goTo pid .creating).Sound := by
      apply sound.setProc
      all_goals simp [AcquirePhase.file?, nothing, phase]
    refine goes.unlink fun file' here => ?_
    have same : file' = file := by
      rcases orderly.fresh pid file rfl living phase with none | some
      · exact absurd (none.symm.trans here) (by simp)
      · exact Option.some.inj (here.symm.trans some)
    subst same
    have other : s.creator file' ≠ pid := by
      intro mine
      rw [mine, living] at stale
      cases stale
    rw [goTo, setProc_creator, setProc_of_ne other]
    exact stale
  | creating =>
    cases here : s.path with
    | some file =>
      apply sound.setProc
      all_goals simp [AcquirePhase.file?, phase]
    | none => exact sound.create here living
  | writing file => exact sound.write living phase

theorem Sound.release (sound : s.Sound) (living : (s.proc pid).alive = true) {again : Bool}
    (orderly : Orderly s (.release pid again)) : (s.release pid again).Sound := by
  unfold LockState.release
  cases again with
  | true =>
    have none := orderly.single pid rfl living
    have same : ({ s with path := Option.none } : LockState) = s := by rw [← none]
    simp only [if_true, same, ite_self]
    exact sound
  | false =>
    simp only [Bool.false_eq_true, if_false]
    split
    case isTrue holds => exact sound.letGo living holds
    case isFalse => exact sound

theorem Sound.step (sound : s.Sound) (a : LockStep) (orderly : Orderly s a) :
    (s.step a).Sound := by
  cases a with
  | acquire pid =>
    rw [LockState.step]
    split
    case isTrue living => exact sound.acquire living orderly
    case isFalse => exact sound
  | release pid again =>
    rw [LockState.step]
    split
    case isTrue living => exact sound.release living orderly
    case isFalse => exact sound
  | die pid => exact sound.die
  | tear pid count =>
    rw [LockState.step]
    split
    case isTrue living => exact sound.tear living count
    case isFalse => exact sound

theorem Sound.start (live : ℕ → Bool) : (start live).Sound := by
  constructor
  all_goals simp [LockState.start, AcquirePhase.file?]

theorem Sound.oneHolder (sound : s.Sound) : s.OneHolder := by
  intro p q living living' holds holds'
  obtain ⟨-, file, here, creator⟩ := sound.holder p living holds
  obtain ⟨-, file', here', creator'⟩ := sound.holder q living' holds'
  obtain rfl := Option.some.inj (here.symm.trans here')
  exact creator.symm.trans creator'

theorem Sound.sparesOthers (sound : s.Sound) {a : LockStep} (orderly : Orderly s a) :
    s.SparesOthers a := by
  rintro pid again rfl file here foreign living holds
  rw [LockState.step]
  split
  case isFalse => exact here
  case isTrue alive =>
    unfold LockState.release
    cases again with
    | true =>
      have none := orderly.single pid rfl alive
      rw [none] at here
      cases here
    | false =>
      simp only [Bool.false_eq_true, if_false]
      split
      case isFalse => exact here
      case isTrue own =>
        exact absurd (sound.oneHolder _ pid living alive holds own) foreign

end Steps

/-- What is asked of a run: one holder at any time, and no release at another's cost. -/
structure LockLaw (live : ℕ → Bool) (sched : List LockStep) : Prop where
  one : ∀ pre post, sched = pre ++ post → (runSchedule step (start live) pre).OneHolder
  spares : Along step SparesOthers (start live) sched

/-- **In orderly runs the lock is exclusive, and no release removes another holder's file.** -/
theorem lockLaw_of_orderly (live : ℕ → Bool) (sched : List LockStep)
    (orderly : Along step Orderly (start live) sched) : LockLaw live sched := by
  constructor
  case one =>
    rintro pre post rfl
    have sound := runSchedule_of_along Sound (fun _ a sound orderly => sound.step a orderly)
      (Sound.start live) ((along_append ..).mp orderly).1
    exact sound.oneHolder
  case spares =>
    exact along_mono Sound (fun _ a sound orderly => sound.step a orderly)
      (fun _ _ sound orderly => sound.sparesOthers orderly) (Sound.start live) orderly

/-- The processes 2 and 3 both find the file of the dead process 1; 2 replaces it and holds the
lock, and 3 then removes what 2 wrote. -/
def bothSteal : List LockStep :=
  [.acquire 1, .acquire 1, .acquire 1, .die 1,
    .acquire 2, .acquire 2, .acquire 3, .acquire 3,
    .acquire 2, .acquire 2, .acquire 2, .acquire 3, .acquire 3, .acquire 3]

theorem bothSteal_two_holders : ¬ LockLaw (fun _ => true) bothSteal := by
  intro law
  have one := law.one bothSteal [] rfl 2 3 (by decide +kernel) (by decide +kernel)
    (by decide +kernel) (by decide +kernel)
  exact absurd one (by decide)

/-- One process after another. -/
def inTurn : List LockStep := [.acquire 1, .acquire 1, .acquire 1, .release 1 false, .acquire 2]

theorem Orderly.of_path {s : LockState} {pid : ℕ} (here : s.path = (s.proc pid).phase.file?)
    (nothing : (s.proc pid).held = 0) : Orderly s (.acquire pid) where
  fresh := by
    rintro _ file ⟨⟩ - phase
    right
    rw [here, phase]
    rfl
  once := by
    rintro _ ⟨⟩ - -
    exact nothing
  single := by rintro _ ⟨⟩

theorem inTurn_law : LockLaw (fun _ => true) inTurn := by
  refine lockLaw_of_orderly _ _ ⟨?_, ?_, ?_, ⟨?_, ?_, ?_⟩, ?_, trivial⟩
  · exact .of_path (by decide +kernel) (by decide +kernel)
  · exact .of_path (by decide +kernel) (by decide +kernel)
  · exact .of_path (by decide +kernel) (by decide +kernel)
  · rintro _ _ ⟨⟩
  · rintro _ ⟨⟩
  · rintro _ ⟨⟩
  · exact .of_path (by decide +kernel) (by decide +kernel)

/-! ## Recovery -/

/-- The rest of a call of `acquire_instance_lock` while nobody else moves. -/
def finish (pid : ℕ) : ℕ → LockState → LockState
  | 0, s => s
  | n + 1, s =>
    if (s.proc pid).phase = .idle then s else finish pid n (s.step (.acquire pid))

/-- A call of `acquire_instance_lock` while nobody else moves: at most five steps. -/
def acquireAlone (s : LockState) (pid : ℕ) : LockState :=
  finish pid 4 (s.step (.acquire pid))

section Alone

variable {s : LockState} {pid n : ℕ}

theorem finish_idle (idle : (s.proc pid).phase = .idle) : finish pid n s = s := by
  cases n with
  | zero => rfl
  | succ n => exact if_pos idle

theorem finish_busy (busy : (s.proc pid).phase ≠ .idle) (living : (s.proc pid).alive = true) :
    finish pid (n + 1) s = finish pid n (s.acquire pid) := by
  rw [finish, if_neg busy, step, if_pos living]

theorem acquire_creates (phase : (s.proc pid).phase = .creating) (vacant : s.path = none) :
    (s.acquire pid).path = some s.nextFile
      ∧ (s.acquire pid).proc pid = { s.proc pid with phase := .writing s.nextFile } := by
  rw [LockState.acquire]
  simp only [phase, vacant]
  exact ⟨trivial, setProc_self⟩

theorem acquire_writes {file : ℕ} (phase : (s.proc pid).phase = .writing file)
    (here : s.path = some file) :
    (s.acquire pid).text = some (pidText pid)
      ∧ ((s.acquire pid).proc pid).phase = .idle
      ∧ ((s.acquire pid).proc pid).result = some .returned := by
  rw [LockState.acquire]
  simp only [phase, text, here, setProc_path, setProc_self, Option.map_some,
    Function.update_self, and_self]

theorem acquire_raises {result : AcquireResult} (raises : s.acquire pid = s.raise pid result) :
    finish pid n (s.acquire pid) = s.raise pid result
      ∧ ((s.raise pid result).proc pid).result = some result := by
  have self : (s.raise pid result).proc pid
      = { s.proc pid with phase := .idle, result := some result } := setProc_self
  rw [raises, finish_idle (by rw [self]), self]
  exact ⟨rfl, rfl⟩

/-- The call has returned the lock, and the file holds the pid. -/
def Acquired (s : LockState) (pid : ℕ) : Prop :=
  (s.proc pid).phase = .idle ∧ (s.proc pid).result = some .returned
    ∧ s.text = some (pidText pid)

theorem finish_creating (living : (s.proc pid).alive = true)
    (phase : (s.proc pid).phase = .creating) :
    (finish pid (n + 2) s).Acquired pid ↔ s.path = none := by
  rw [finish_busy (by simp [phase]) living]
  cases here : s.path with
  | some file =>
    have raises : s.acquire pid = s.raise pid .fileExists := by
      rw [LockState.acquire]
      simp only [phase, here]
    obtain ⟨ends, result⟩ := @acquire_raises s pid (n + 1) _ raises
    rw [ends, Acquired, result]
    simp
  | none =>
    obtain ⟨path, proc⟩ := acquire_creates phase here
    have phase' : ((s.acquire pid).proc pid).phase = .writing s.nextFile := by rw [proc]
    obtain ⟨text, idle, result⟩ := acquire_writes phase' path
    rw [finish_busy (by simp [phase']) (by rw [proc]; exact living), finish_idle idle]
    exact iff_of_true ⟨idle, result, text⟩ rfl

theorem finish_stealing {file : ℕ} (living : (s.proc pid).alive = true)
    (phase : (s.proc pid).phase = .stealing file) : (finish pid (n + 3) s).Acquired pid := by
  have steals : s.acquire pid = { s.goTo pid .creating with path := none } := by
    rw [LockState.acquire]
    simp only [phase]
  have proc : (s.acquire pid).proc pid = { s.proc pid with phase := .creating } := by
    rw [steals]
    change (s.goTo pid .creating).proc pid = _
    rw [goTo, setProc_self]
  rw [finish_busy (by simp [phase]) living,
    finish_creating (by rw [proc]; exact living) (by rw [proc]), steals]

/-- **A call that runs alone returns the lock just when it finds no file, or one with a pid that
is its own or a dead process's.** -/
theorem acquireAlone_iff (living : (s.proc pid).alive = true)
    (idle : (s.proc pid).phase = .idle) :
    (s.acquireAlone pid).Acquired pid
      ↔ s.path = none
        ∨ ∃ n, readLockPid s.text = some n ∧ (n = pid ∨ (s.proc n).alive = false) := by
  rw [acquireAlone, step, if_pos living]
  have goes : ∀ phase, ((s.goTo pid phase).proc pid) = { s.proc pid with phase := phase } :=
    fun _ => setProc_self
  have creates : s.acquire pid = s.goTo pid .creating →
      ((finish pid 4 (s.acquire pid)).Acquired pid ↔ s.path = none) := by
    intro first
    rw [first]
    exact finish_creating (by rw [goes]; exact living) (by rw [goes])
  cases here : s.path with
  | none =>
    have first : s.acquire pid = s.goTo pid .creating := by
      rw [LockState.acquire]
      simp only [idle, here]
    rw [creates first, here]
    simp
  | some file =>
    cases read : readLockPid s.text with
    | none =>
      have first : s.acquire pid = s.goTo pid .creating := by
        rw [LockState.acquire]
        simp only [idle, here, read]
      rw [creates first, here]
      simp
    | some existing =>
      have first : s.acquire pid = s.goTo pid
          (if existing = pid then .stealing file else .probing file existing) := by
        rw [LockState.acquire]
        simp only [idle, here, read]
      rw [first]
      by_cases own : existing = pid
      · rw [if_pos own]
        refine iff_of_true ?_ (.inr ⟨existing, rfl, .inl own⟩)
        exact finish_stealing (by rw [goes]; exact living) (by rw [goes])
      · rw [if_neg own]
        have phase : ((s.goTo pid (.probing file existing)).proc pid).phase
            = .probing file existing := by rw [goes]
        rw [finish_busy (by simp [phase]) (by rw [goes]; exact living)]
        have probe : ((s.goTo pid (.probing file existing)).proc existing).alive
            = (s.proc existing).alive := by rw [goTo, setProc_of_ne own]
        cases alive : (s.proc existing).alive with
        | true =>
          have raises : (s.goTo pid (.probing file existing)).acquire pid
              = (s.goTo pid (.probing file existing)).raise pid (.inUse existing) := by
            rw [LockState.acquire]
            simp only [phase, probe, alive, if_true]
          obtain ⟨ends, result⟩ := @acquire_raises _ pid 3 _ raises
          rw [ends, Acquired, result]
          simp [own, alive]
        | false =>
          have steals : (s.goTo pid (.probing file existing)).acquire pid
              = (s.goTo pid (.probing file existing)).goTo pid (.stealing file) := by
            rw [LockState.acquire]
            simp only [phase, probe, alive, Bool.false_eq_true, if_false]
          refine iff_of_true ?_ (.inr ⟨existing, rfl, .inr alive⟩)
          rw [steals]
          refine @finish_stealing _ _ _ file ?_ ?_
          all_goals rw [goTo, setProc_self, goes]
          exact living

end Alone

theorem proc_step_of_ne {pid : ℕ} {s : LockState} {a : LockStep} (other : a.actor ≠ pid) :
    (s.step a).proc pid = s.proc pid := by
  have kept : ∀ {q p}, q ≠ pid → Function.update s.proc q p pid = s.proc pid :=
    fun other => Function.update_of_ne other.symm ..
  cases a with
  | acquire q =>
    change q ≠ pid at other
    rw [step]
    split
    case isFalse => rfl
    case isTrue =>
      unfold LockState.acquire
      dsimp only [goTo, raise, setProc]
      cases (s.proc q).phase with
      | idle =>
        cases s.path with
        | none => exact kept other
        | some file => cases readLockPid s.text <;> exact kept other
      | probing file existing => dsimp only; split <;> exact kept other
      | stealing | writing => exact kept other
      | creating => cases s.path <;> exact kept other
  | release q again =>
    change q ≠ pid at other
    rw [step]
    unfold LockState.release
    dsimp only [setProc]
    split_ifs <;> first | rfl | exact kept other
  | die q => exact kept other
  | tear q count =>
    change q ≠ pid at other
    rw [step]
    unfold LockState.tear
    split
    case isFalse => rfl
    case isTrue =>
      cases (s.proc q).phase with
      | writing file => exact kept other
      | _ => rfl

theorem proc_of_others {pid : ℕ} {s : LockState} {sched : List LockStep}
    (others : ∀ a ∈ sched, a.actor ≠ pid) :
    (runSchedule step s sched).proc pid = s.proc pid := by
  induction sched generalizing s with
  | nil => rfl
  | cons a sched ih =>
    rw [runSchedule_cons, ih fun b mem => others b (List.mem_cons_of_mem a mem)]
    exact proc_step_of_ne (others a List.mem_cons_self)

/-- **A later start recovers from what earlier processes, all of them dead, have left just when
there is no file or a pid can be read from it that is its own or a dead process's.** -/
theorem lockRecovers_iff (live : ℕ → Bool) (sched : List LockStep) (pid : ℕ)
    (dead : ∀ a ∈ sched, ((runSchedule step (start live) sched).proc a.actor).alive = false)
    (living : ((runSchedule step (start live) sched).proc pid).alive = true) :
    ((runSchedule step (start live) sched).acquireAlone pid).Acquired pid
      ↔ (runSchedule step (start live) sched).path = none
        ∨ ∃ n, readLockPid (runSchedule step (start live) sched).text = some n
          ∧ (n = pid ∨ ((runSchedule step (start live) sched).proc n).alive = false) := by
  refine acquireAlone_iff living ?_
  have others : ∀ a ∈ sched, a.actor ≠ pid := by
    rintro a mem rfl
    rw [dead a mem] at living
    cases living
  rw [proc_of_others others]
  rfl

/-- A process is killed between creating the file and writing to it. -/
def killedEarly : List LockStep := [.acquire 1, .acquire 1, .die 1]

/-- The empty file it leaves is never removed. -/
theorem killedEarly_lost :
    ¬ ((runSchedule step (start fun _ => true) killedEarly).acquireAlone 2).Acquired 2 := by
  rintro ⟨-, result, -⟩
  exact absurd result (by decide +kernel)

/-- A process is killed while it holds the lock. -/
def killedHolding : List LockStep := [.acquire 1, .acquire 1, .acquire 1, .die 1]

theorem killedHolding_recovers :
    ((runSchedule step (start fun _ => true) killedHolding).acquireAlone 2).Acquired 2 := by
  refine (lockRecovers_iff (fun _ => true) killedHolding 2 ?_ (by decide +kernel)).mpr
    (.inr ⟨1, by decide +kernel, .inr (by decide +kernel)⟩)
  decide +kernel

end LockState

end Zhongzhuan.Proxy
