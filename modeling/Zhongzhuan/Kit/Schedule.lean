import Mathlib

/-!
# Runs of a deterministic machine under an arbitrary schedule

A concurrent component is modelled here as one total step function over a
global state; an interleaving is a *list* of steps, and "for every interleaving"
is a quantifier over lists.  A step that is not enabled is the identity, so no
list is ill formed and nothing has to be assumed about who moves when.

* `runSchedule` folds the step function over a schedule.
* `Along` says that a condition on "the state before the step, and the step"
  holds at every position of a run.
* `Frozen` is the law "once `Q` holds the observed value never changes again";
  `frozen_iff_along` reduces it to a condition on single steps.
* `runSchedule_invariant`, `along_congr` and `along_mono` are the invariant rules.
* `good_run_iff_along` is the rule for a property that is lost once and for all,
  `always_iff_along` the one for a property of all states of a run, and
  `always_and_along_iff` the one for a law of states and steps at once.
-/

namespace Zhongzhuan.Kit

universe u v w

variable {σ : Type u} {α : Type v} {β : Type w}

/-- The state reached from `s` by executing the schedule `sched` in order. -/
def runSchedule (step : σ → α → σ) (s : σ) (sched : List α) : σ :=
  sched.foldl step s

@[simp] theorem runSchedule_nil (step : σ → α → σ) (s : σ) :
    runSchedule step s [] = s := rfl

@[simp] theorem runSchedule_cons (step : σ → α → σ) (s : σ) (a : α)
    (sched : List α) :
    runSchedule step s (a :: sched) = runSchedule step (step s a) sched := rfl

theorem runSchedule_append (step : σ → α → σ) (s : σ) (pre post : List α) :
    runSchedule step s (pre ++ post)
      = runSchedule step (runSchedule step s pre) post :=
  List.foldl_append

/-- An invariant of the start state that every step preserves holds at the end
of every run. -/
theorem runSchedule_invariant {step : σ → α → σ} (Inv : σ → Prop)
    (preserved : ∀ s a, Inv s → Inv (step s a)) {s : σ} (start : Inv s)
    (sched : List α) : Inv (runSchedule step s sched) := by
  induction sched generalizing s with
  | nil => exact start
  | cons a sched ih => exact ih (preserved s a start)

theorem runSchedule_ahead {step : σ → α → σ} (Inv : σ → List α → Prop)
    (preserved : ∀ s a rest, Inv s (a :: rest) → Inv (step s a) rest) {s : σ} {pre post : List α}
    (start : Inv s (pre ++ post)) : Inv (runSchedule step s pre) post := by
  induction pre generalizing s with
  | nil => exact start
  | cons a pre ih => exact ih (preserved s a (pre ++ post) start)

/-- `P` holds of the state before the step and of the step, at every position of
the run of `sched` from `s`. -/
def Along (step : σ → α → σ) (P : σ → α → Prop) : σ → List α → Prop
  | _, [] => True
  | s, a :: sched => P s a ∧ Along step P (step s a) sched

@[simp] theorem along_nil (step : σ → α → σ) (P : σ → α → Prop) (s : σ) :
    Along step P s [] := trivial

@[simp] theorem along_cons (step : σ → α → σ) (P : σ → α → Prop) (s : σ) (a : α)
    (sched : List α) :
    Along step P s (a :: sched) ↔ P s a ∧ Along step P (step s a) sched :=
  Iff.rfl

theorem along_append (step : σ → α → σ) (P : σ → α → Prop) (s : σ)
    (pre post : List α) :
    Along step P s (pre ++ post)
      ↔ Along step P s pre ∧ Along step P (runSchedule step s pre) post := by
  induction pre generalizing s with
  | nil => simp
  | cons a pre ih => simp [ih, and_assoc]

theorem along_iff_split {step : σ → α → σ} {P : σ → α → Prop} {s : σ} {sched : List α} :
    Along step P s sched
      ↔ ∀ pre a post, sched = pre ++ a :: post → P (runSchedule step s pre) a := by
  constructor
  · rintro along pre a post rfl
    exact ((along_append step P s pre (a :: post)).mp along).2.1
  · intro every
    induction sched generalizing s with
    | nil => trivial
    | cons a sched ih =>
        refine ⟨every [] a sched rfl, ih ?_⟩
        intro pre b post split
        exact every (a :: pre) b post (by rw [split, List.cons_append])

theorem along_and {step : σ → α → σ} {P Q : σ → α → Prop} {s : σ} {sched : List α} :
    Along step (fun t a => P t a ∧ Q t a) s sched
      ↔ Along step P s sched ∧ Along step Q s sched := by
  induction sched generalizing s with
  | nil => simp
  | cons a sched ih =>
      simp only [along_cons, ih]
      tauto

theorem along_of_forall {step : σ → α → σ} {P : σ → α → Prop} (all : ∀ s a, P s a)
    (s : σ) (sched : List α) : Along step P s sched := by
  induction sched generalizing s with
  | nil => trivial
  | cons a sched ih => exact ⟨all s a, ih (step s a)⟩

theorem along_of_mem {step : σ → α → σ} {P : σ → α → Prop} {sched : List α}
    (all : ∀ a ∈ sched, ∀ s, P s a) (s : σ) : Along step P s sched := by
  induction sched generalizing s with
  | nil => trivial
  | cons a sched ih =>
      exact ⟨all a (List.mem_cons_self ..) s,
        ih (fun b mem => all b (List.mem_cons_of_mem a mem)) (step s a)⟩

/-- Two step conditions that agree on the states of an invariant agree along
every run that starts in it. -/
theorem along_congr {step : σ → α → σ} {P Q : σ → α → Prop} (Inv : σ → Prop)
    (preserved : ∀ s a, Inv s → Inv (step s a))
    (agree : ∀ s a, Inv s → (P s a ↔ Q s a)) {s : σ} (start : Inv s)
    (sched : List α) : Along step P s sched ↔ Along step Q s sched := by
  induction sched generalizing s with
  | nil => simp
  | cons a sched ih =>
      simp only [along_cons]
      exact and_congr (agree s a start) (ih (preserved s a start))

/-- The form for conditions that keep the invariant themselves: where `P` holds at
every position, so does whatever `P` and the invariant give together. -/
theorem along_mono {step : σ → α → σ} {P Q : σ → α → Prop} (Inv : σ → Prop)
    (preserved : ∀ s a, Inv s → P s a → Inv (step s a))
    (weaker : ∀ s a, Inv s → P s a → Q s a) {s : σ} (start : Inv s)
    {sched : List α} (along : Along step P s sched) : Along step Q s sched := by
  induction sched generalizing s with
  | nil => trivial
  | cons a sched ih =>
      obtain ⟨here, later⟩ := along
      exact ⟨weaker s a start here, ih (preserved s a start here) later⟩

/-- An invariant that is kept wherever `P` holds reaches the end of a run along which `P`
holds. -/
theorem runSchedule_of_along {step : σ → α → σ} {P : σ → α → Prop} (Inv : σ → Prop)
    (preserved : ∀ s a, Inv s → P s a → Inv (step s a)) {s : σ} (start : Inv s)
    {sched : List α} (along : Along step P s sched) : Inv (runSchedule step s sched) := by
  induction sched generalizing s with
  | nil => exact start
  | cons a sched ih =>
      obtain ⟨here, later⟩ := along
      exact ih (preserved s a start here) later

/-- A property of states that a step keeps just where `P` holds, and never brings back, holds
at the end of a run just where `P` holds along it. -/
theorem good_run_iff_along {step : σ → α → σ} {P : σ → α → Prop} {Good : σ → Prop}
    (Inv : σ → Prop) (preserved : ∀ s a, Inv s → Inv (step s a))
    (keeps : ∀ s a, Inv s → (Good (step s a) ↔ Good s ∧ P s a)) {s : σ} (start : Inv s)
    (sched : List α) :
    Good (runSchedule step s sched) ↔ Good s ∧ Along step P s sched := by
  induction sched generalizing s with
  | nil => simp
  | cons a sched ih =>
      rw [runSchedule_cons, ih (preserved s a start), keeps s a start, along_cons, and_assoc]

/-- A property that a step from a state of it keeps just where `P` holds, holds in every state of
a run just where `P` holds along it.  The invariant may speak of the steps still to come. -/
theorem always_iff_along_ahead {step : σ → α → σ} {P : σ → α → Prop} {Good : σ → Prop}
    (Inv : σ → List α → Prop)
    (preserved : ∀ s a rest, Inv s (a :: rest) → Inv (step s a) rest)
    (keeps : ∀ s a rest, Inv s (a :: rest) → Good s → (Good (step s a) ↔ P s a)) {s : σ}
    {sched : List α} (start : Inv s sched) (good : Good s) :
    (∀ pre post, sched = pre ++ post → Good (runSchedule step s pre))
      ↔ Along step P s sched := by
  induction sched generalizing s with
  | nil =>
      refine ⟨fun _ => trivial, fun _ pre post split => ?_⟩
      obtain ⟨rfl, -⟩ := List.append_eq_nil_iff.mp split.symm
      exact good
  | cons a sched ih =>
      rw [along_cons]
      constructor
      · intro always
        have next : Good (step s a) := always [a] sched rfl
        refine ⟨(keeps s a sched start good).mp next, (ih (preserved s a sched start) next).mp ?_⟩
        intro pre post split
        exact always (a :: pre) post (by rw [split, List.cons_append])
      · rintro ⟨here, later⟩ pre post split
        cases pre with
        | nil => exact good
        | cons b pre =>
            obtain ⟨rfl, tail⟩ := List.cons.inj split
            have next : Good (step s a) := (keeps s a sched start good).mpr here
            exact (ih (preserved s a sched start) next).mpr later pre post tail

theorem always_iff_along {step : σ → α → σ} {P : σ → α → Prop} {Good : σ → Prop}
    (Inv : σ → Prop) (preserved : ∀ s a, Inv s → Inv (step s a))
    (keeps : ∀ s a, Inv s → Good s → (Good (step s a) ↔ P s a)) {s : σ} (start : Inv s)
    (good : Good s) (sched : List α) :
    (∀ pre post, sched = pre ++ post → Good (runSchedule step s pre))
      ↔ Along step P s sched :=
  always_iff_along_ahead (fun s _ => Inv s) (fun s a _ => preserved s a)
    (fun s a _ => keeps s a) start good

/-- The rule for a law of states and steps at once, where the invariant that carries it is kept
only by the steps that keep the law: the law holds throughout a run just where `P` does. -/
theorem always_and_along_iff {step : σ → α → σ} {P Q : σ → α → Prop} {Good : σ → Prop}
    (Inv : σ → Prop) (good : ∀ s, Inv s → Good s)
    (preserved : ∀ s a, Inv s → P s a → Inv (step s a))
    (exact : ∀ s a, Inv s → (Good (step s a) ∧ Q s a ↔ P s a)) {s : σ} (start : Inv s)
    (sched : List α) :
    (∀ pre post, sched = pre ++ post → Good (runSchedule step s pre)) ∧ Along step Q s sched
      ↔ Along step P s sched := by
  induction sched generalizing s with
  | nil =>
      refine ⟨fun _ => trivial, fun _ => ⟨fun pre post split => ?_, trivial⟩⟩
      obtain ⟨rfl, -⟩ := List.append_eq_nil_iff.mp split.symm
      exact good s start
  | cons a sched ih =>
      rw [along_cons, along_cons]
      constructor
      · rintro ⟨always, here, later⟩
        have keeps : P s a := (exact s a start).mp ⟨always [a] sched rfl, here⟩
        refine ⟨keeps, (ih (preserved s a start keeps)).mp ⟨?_, later⟩⟩
        intro pre post split
        exact always (a :: pre) post (by rw [split, List.cons_append])
      · rintro ⟨keeps, later⟩
        obtain ⟨always, along⟩ := (ih (preserved s a start keeps)).mpr later
        refine ⟨?_, ((exact s a start).mpr keeps).2, along⟩
        intro pre post split
        cases pre with
        | nil => exact good s start
        | cons b pre =>
            obtain ⟨rfl, tail⟩ := List.cons.inj split
            exact always pre post tail

/-- Conditions that can be decided step by step can be decided along a run. -/
instance decidableAlong (step : σ → α → σ) (P : σ → α → Prop) [∀ s a, Decidable (P s a)] :
    (s : σ) → (sched : List α) → Decidable (Along step P s sched)
  | _, [] => inferInstanceAs (Decidable True)
  | s, a :: sched =>
    have := decidableAlong step P (step s a) sched
    inferInstanceAs (Decidable (P s a ∧ Along step P (step s a) sched))

/-- **Once `Q` holds the observation never changes again**, at any later position
of the run. -/
def Frozen (step : σ → α → σ) (Q : σ → Prop) (obs : σ → β) (s : σ)
    (sched : List α) : Prop :=
  ∀ pre mid post, sched = pre ++ mid ++ post →
    Q (runSchedule step s pre) →
      obs (runSchedule step s (pre ++ mid)) = obs (runSchedule step s pre)

/-- The law `Frozen` is a property of single steps: no step taken from a state of
`Q` changes the observation.  `Q` may speak of more than the observation, as long
as a step that keeps the observation keeps `Q`. -/
theorem frozen_iff_along {step : σ → α → σ} {Q : σ → Prop} {obs : σ → β}
    (persists : ∀ s a, Q s → obs (step s a) = obs s → Q (step s a)) (s : σ)
    (sched : List α) :
    Frozen step Q obs s sched
      ↔ Along step (fun t a => Q t → obs (step t a) = obs t) s sched := by
  induction sched generalizing s with
  | nil =>
      refine ⟨fun _ => trivial, fun _ pre mid post split hQ => ?_⟩
      obtain ⟨rfl, rfl, rfl⟩ : pre = [] ∧ mid = [] ∧ post = [] := by
        simpa using split.symm
      rfl
  | cons a sched ih =>
      rw [along_cons, ← ih]
      constructor
      · intro h
        refine ⟨fun hQ => h [] [a] sched rfl hQ, ?_⟩
        intro pre mid post split hQ
        exact h (a :: pre) mid post (by simp [split]) hQ
      · rintro ⟨first, later⟩ pre mid post split hQ
        cases pre with
        | cons b pre =>
            obtain ⟨rfl, tail⟩ := List.cons.inj split
            exact later pre mid post tail hQ
        | nil =>
            cases mid with
            | nil => rfl
            | cons b mid =>
                obtain ⟨rfl, tail⟩ := List.cons.inj split
                have kept := first hQ
                have rest := later [] mid post tail (persists s a hQ kept)
                exact rest.trans kept

/-- **As long as `Q` holds the observation does not change**: over any stretch of the run at
whose positions `Q` holds. -/
def FrozenWhile (step : σ → α → σ) (Q : σ → Prop) (obs : σ → β) (s : σ)
    (sched : List α) : Prop :=
  ∀ pre mid post, sched = pre ++ mid ++ post →
    Along step (fun t _ => Q t) (runSchedule step s pre) mid →
      obs (runSchedule step s (pre ++ mid)) = obs (runSchedule step s pre)

theorem frozenWhile_iff_along {step : σ → α → σ} {Q : σ → Prop} {obs : σ → β} {s : σ}
    {sched : List α} :
    FrozenWhile step Q obs s sched
      ↔ Along step (fun t a => Q t → obs (step t a) = obs t) s sched := by
  rw [along_iff_split]
  constructor
  · intro frozen pre a post split here
    have after := frozen pre [a] post (by simp [split]) ⟨here, trivial⟩
    rwa [runSchedule_append] at after
  · intro every pre mid post split along
    have mid' : ∀ pre' a post', mid = pre' ++ a :: post' →
        (Q (runSchedule step s (pre ++ pre')) →
          obs (runSchedule step s (pre ++ pre' ++ [a]))
            = obs (runSchedule step s (pre ++ pre'))) := by
      intro pre' a post' split' here
      rw [runSchedule_append]
      exact every (pre ++ pre') a (post' ++ post) (by simp [split, split']) here
    clear every split post
    induction mid generalizing pre with
    | nil => simp
    | cons a mid ih =>
        have first := mid' [] a mid rfl (by simpa using along.1)
        have rest := ih (pre ++ [a]) (by rw [runSchedule_append]; exact along.2)
          (fun pre' b post' split' => by
            simpa using mid' (a :: pre') b post' (by simp [split']))
        simp only [List.append_assoc, List.singleton_append, List.append_nil] at rest first
        exact rest.trans first

end Zhongzhuan.Kit
