import Mathlib

/-!
# Two runs of a machine that serves several parties

A machine takes requests and answers each.  `low` marks the requests of the parties that
observe; the others are to make no difference to them.

* `serve_eq_self` is the simplest frame rule: what no request changes, no run changes.
* `answersTo` are the answers of a run to the requests that `low` marks.
* `Throughout` restricts a run to requests of a kind that may depend on the state they find.
* `Unwinding` is the condition on single requests of a kind: two related states answer a low
  request alike and stay related, and a request that is not low leaves its state related to
  whatever it was related to.
* `Unwinding.answersTo_eq` carries it through every run: the low answers are those of the run
  from the other state with the low requests only.
* `Unwinding.throughout_filter` has to be asked for one of the two runs only, where the kind
  carries over between related states.
-/

namespace Zhongzhuan.Kit

universe u v w

variable {σ : Type u} {α : Type v} {β : Type w}

/-- The state after a list of requests. -/
def serve (step : σ → α → σ × β) (s : σ) (requests : List α) : σ :=
  requests.foldl (fun s a => (step s a).1) s

/-- The answers to the low requests of a list. -/
def answersTo (step : σ → α → σ × β) (low : α → Bool) : σ → List α → List β
  | _, [] => []
  | s, a :: requests =>
    if low a then (step s a).2 :: answersTo step low (step s a).1 requests
    else answersTo step low (step s a).1 requests

/-- Requests that each leave the state a run starts in as it is leave it as it is together. -/
theorem serve_eq_self {step : σ → α → σ × β} {s : σ} {requests : List α}
    (same : ∀ a ∈ requests, (step s a).1 = s) : serve step s requests = s := by
  induction requests with
  | nil => rfl
  | cons a requests ih =>
      obtain ⟨here, later⟩ := List.forall_mem_cons.mp same
      calc serve step s (a :: requests)
        _ = serve step (step s a).1 requests := rfl
        _ = serve step s requests := by rw [here]
        _ = s := ih later

/-- A condition on the state and the request holds at every request of a run. -/
def Throughout (step : σ → α → σ × β) (Kind : σ → α → Prop) : σ → List α → Prop
  | _, [] => True
  | s, a :: requests => Kind s a ∧ Throughout step Kind (step s a).1 requests

theorem throughout_of_forall {step : σ → α → σ × β} {Kind : α → Prop} {requests : List α}
    (kind : ∀ a ∈ requests, Kind a) (s : σ) : Throughout step (fun _ => Kind) s requests := by
  induction requests generalizing s with
  | nil => trivial
  | cons a requests ih =>
      obtain ⟨here, later⟩ := List.forall_mem_cons.mp kind
      exact ⟨here, ih later _⟩

theorem Throughout.and_forall {step : σ → α → σ × β} {Kind : σ → α → Prop} {P : α → Prop}
    {s : σ} {requests : List α} (kind : Throughout step Kind s requests)
    (all : ∀ a ∈ requests, P a) : Throughout step (fun s a => Kind s a ∧ P a) s requests := by
  induction requests generalizing s with
  | nil => trivial
  | cons a requests ih =>
      obtain ⟨here, rest⟩ := List.forall_mem_cons.mp all
      exact ⟨⟨kind.1, here⟩, ih kind.2 rest⟩

/-- What a relation of states has to satisfy at single requests of a kind. -/
structure Unwinding (step : σ → α → σ × β) (low : α → Bool) (Kind : σ → α → Prop)
    (Rel : σ → σ → Prop) : Prop where
  answer : ∀ s s' a, Kind s a → Kind s' a → low a = true → Rel s s' →
    (step s a).2 = (step s' a).2
  both : ∀ s s' a, Kind s a → Kind s' a → low a = true → Rel s s' →
    Rel (step s a).1 (step s' a).1
  left : ∀ s s' a, Kind s a → low a = false → Rel s s' → Rel (step s a).1 s'

namespace Unwinding

variable {step : σ → α → σ × β} {low : α → Bool} {Kind : σ → α → Prop} {Rel : σ → σ → Prop}

/-- **The low answers do not depend on the other requests**, nor on what the relation lets
differ between the states. -/
theorem answersTo_eq (unwinding : Unwinding step low Kind Rel) {s s' : σ} (related : Rel s s')
    {requests : List α} (kind : Throughout step Kind s requests)
    (kind' : Throughout step Kind s' (requests.filter low)) :
    answersTo step low s requests = answersTo step low s' (requests.filter low) := by
  induction requests generalizing s s' with
  | nil => rfl
  | cons a requests ih =>
      obtain ⟨here, later⟩ := kind
      cases h : low a with
      | true =>
          rw [List.filter_cons_of_pos h] at kind' ⊢
          obtain ⟨here', later'⟩ := kind'
          have rest := ih (unwinding.both s s' a here here' h related) later later'
          simp [answersTo, h, unwinding.answer s s' a here here' h related, rest]
      | false =>
          rw [List.filter_cons_of_neg (by simp [h])] at kind' ⊢
          simp [answersTo, h, ih (unwinding.left s s' a here h related) later kind']

theorem serve_rel (unwinding : Unwinding step low Kind Rel) {s s' : σ} (related : Rel s s')
    {requests : List α} (kind : Throughout step Kind s requests)
    (kind' : Throughout step Kind s' (requests.filter low)) :
    Rel (serve step s requests) (serve step s' (requests.filter low)) := by
  induction requests generalizing s s' with
  | nil => exact related
  | cons a requests ih =>
      obtain ⟨here, later⟩ := kind
      cases h : low a with
      | true =>
          rw [List.filter_cons_of_pos h] at kind' ⊢
          obtain ⟨here', later'⟩ := kind'
          exact ih (unwinding.both s s' a here here' h related) later later'
      | false =>
          rw [List.filter_cons_of_neg (by simp [h])] at kind' ⊢
          exact ih (unwinding.left s s' a here h related) later kind'

/-- Where related states find the same requests of the kind, the low requests of a run of the
kind are one too. -/
theorem throughout_filter (unwinding : Unwinding step low Kind Rel)
    (carries : ∀ s s' a, Kind s a → low a = true → Rel s s' → Kind s' a) {s s' : σ}
    (related : Rel s s') {requests : List α} (kind : Throughout step Kind s requests) :
    Throughout step Kind s' (requests.filter low) := by
  induction requests generalizing s s' with
  | nil => trivial
  | cons a requests ih =>
      obtain ⟨here, later⟩ := kind
      cases h : low a with
      | true =>
          rw [List.filter_cons_of_pos h]
          have here' := carries s s' a here h related
          exact ⟨here', ih (unwinding.both s s' a here here' h related) later⟩
      | false =>
          rw [List.filter_cons_of_neg (by simp [h])]
          exact ih (unwinding.left s s' a here h related) later

end Unwinding

end Zhongzhuan.Kit
