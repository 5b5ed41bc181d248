import Mathlib

/-!
# Waking a sleeper with a flag

One party looks for work again and again, and sleeps when it finds none.  The others add work and
then set a flag; the party that looks clears it before each look, and its sleep ends when the flag
is set.

* `Watched.Step` are the steps, in any order: `env` is what others do without a word, `tell` what
  they announce.
* `Watched.Lawful` is what the others have to keep to.
* `Watched.quiet_of_asleep`: no wake-up is lost.  Who sleeps while the flag is not set has no
  announced work to do.
-/

namespace Zhongzhuan.Kit

universe u v

/-- Where the party that looks is. -/
inductive WatcherPhase (L : Type v)
  | away
  | looking (stamp : L)
  /-- it has found nothing, and will sleep -/
  | idle
  | asleep
deriving DecidableEq

/-- The others, the flag, and the party that looks. -/
structure Watched (E : Type u) (L : Type v) where
  env : E
  flag : Bool
  phase : WatcherPhase L

namespace Watched

variable {E : Type u} {L : Type v}

/-- What the two sides do: silent moves, announced moves, and a look at a stamp that was taken
when the flag was cleared. -/
structure Sides (E : Type u) (L : Type v) where
  move : E → E → Prop
  tell : E → E → Prop
  stamp : E → L
  finds : E → L → Bool

inductive Step (sides : Sides E L) : Watched E L → Watched E L → Prop
  | env {e e' : E} {f : Bool} {p : WatcherPhase L} (moved : sides.move e e') :
      Step sides ⟨e, f, p⟩ ⟨e', f, p⟩
  | tell {e e' : E} {f : Bool} {p : WatcherPhase L} (told : sides.tell e e') :
      Step sides ⟨e, f, p⟩ ⟨e', true, p⟩
  | clear {e : E} {f : Bool} : Step sides ⟨e, f, .away⟩ ⟨e, false, .looking (sides.stamp e)⟩
  | missed {e : E} {f : Bool} {l : L} (finds : sides.finds e l = false) :
      Step sides ⟨e, f, .looking l⟩ ⟨e, f, .idle⟩
  | sleep {e : E} : Step sides ⟨e, false, .idle⟩ ⟨e, false, .asleep⟩
  /-- it has found something, was woken, or gives up -/
  | leave {e : E} {f : Bool} {p : WatcherPhase L} : Step sides ⟨e, f, p⟩ ⟨e, f, .away⟩

/-- The laws of the others: `Quiet` says that no announced work is there, `Stamped` that a stamp was
taken at this time or before. -/
structure Lawful (sides : Sides E L) (Sound Quiet : E → Prop) (Stamped : E → L → Prop) : Prop where
  sound_move : ∀ e e', Sound e → sides.move e e' → Sound e'
  sound_tell : ∀ e e', Sound e → sides.tell e e' → Sound e'
  stamped : ∀ e, Sound e → Stamped e (sides.stamp e)
  stamped_move : ∀ e e' l, Stamped e l → sides.move e e' → Stamped e' l
  stamped_tell : ∀ e e' l, Stamped e l → sides.tell e e' → Stamped e' l
  quiet_move : ∀ e e', Sound e → Quiet e → sides.move e e' → Quiet e'
  quiet_missed : ∀ e l, Sound e → Stamped e l → sides.finds e l = false → Quiet e

/-- What every step keeps. -/
structure Watching (Sound Quiet : E → Prop) (Stamped : E → L → Prop) (s : Watched E L) : Prop where
  sound : Sound s.env
  stamped : ∀ l, s.phase = .looking l → Stamped s.env l
  quiet : s.phase = .idle ∨ s.phase = .asleep → s.flag = false → Quiet s.env

variable {sides : Sides E L} {Sound Quiet : E → Prop} {Stamped : E → L → Prop}
  {s s' : Watched E L}

theorem Watching.of_away {e : E} {f : Bool} (sound : Sound e) :
    Watching Sound Quiet Stamped (⟨e, f, .away⟩ : Watched E L) where
  sound := sound
  stamped l here := by cases here
  quiet phase _ := by
    rcases phase with phase | phase
    · cases phase
    · cases phase

theorem Watching.step (lawful : Lawful sides Sound Quiet Stamped)
    (watching : Watching Sound Quiet Stamped s) (step : Step sides s s') :
    Watching Sound Quiet Stamped s' := by
  obtain ⟨sound, stamped, quiet⟩ := watching
  cases step with
  | env moved =>
    refine ⟨lawful.sound_move _ _ sound moved, fun l here => ?_, fun phase unset => ?_⟩
    · exact lawful.stamped_move _ _ l (stamped l here) moved
    · exact lawful.quiet_move _ _ sound (quiet phase unset) moved
  | tell told =>
    refine ⟨lawful.sound_tell _ _ sound told, fun l here => ?_, fun _ unset => ?_⟩
    · exact lawful.stamped_tell _ _ l (stamped l here) told
    · cases unset
  | clear =>
    refine ⟨sound, fun l here => ?_, fun phase _ => ?_⟩
    · obtain rfl := WatcherPhase.looking.inj here
      exact lawful.stamped _ sound
    · rcases phase with phase | phase
      · cases phase
      · cases phase
  | missed finds =>
    -- the look was taken after the flag was cleared, so what was told before is in it
    exact ⟨sound, fun l here => (by cases here),
      fun _ _ => lawful.quiet_missed _ _ sound (stamped _ rfl) finds⟩
  | sleep => exact ⟨sound, fun l here => (by cases here), fun _ unset => quiet (.inl rfl) unset⟩
  | leave => exact .of_away sound

theorem quiet_of_asleep (lawful : Lawful sides Sound Quiet Stamped)
    (start : Watching Sound Quiet Stamped s) (run : Relation.ReflTransGen (Step sides) s s')
    (asleep : s'.phase = .asleep) (unset : s'.flag = false) : Quiet s'.env := by
  have watching : Watching Sound Quiet Stamped s' := by
    clear asleep unset
    induction run with
    | refl => exact start
    | tail _ step ih => exact ih.step lawful step
  exact watching.quiet (.inr asleep) unset

end Watched

end Zhongzhuan.Kit
