import Zhongzhuan.Kit.Noninterference
import Zhongzhuan.Proxy.Sessions

/-!
# Whose session a request is in

`ResponseStore` keeps the bindings of another workspace out of sight, and the docstring of
`_restore_sticky_from_store` says that a binding of a foreign workspace is ignored.  The handler
names no workspace when it reads or writes a binding, and no table of sessions has the
workspace in its key, so two workspaces are in the same session when their requests have the
same session key.

* `SessionView` is what the tables hold for one session key.
* `Local` operations look at one view and change no other; every operation of a request but
  the sweep is one.
* `sessions_isolated`: where no other workspace uses a session key of `W` and no sweep drops one
  of its entries, the answers to `W` do not depend on the other workspaces.
-/

namespace Zhongzhuan.Proxy

open Kit

variable {O A : Type}

/-! ## One session key -/

/-- What the tables hold for one session key.  The number of an instance is not part of it. -/
structure SessionView (O : Type) where
  sticky : Option (ℕ × ℚ)
  caps : Option (Finset String)
  reason : Option String
  binding : Option RouteBinding
  orchestrator : Option O
  lastActive : Option ℚ

namespace SessionTables

/-- The view of a session key. -/
def view (s : SessionTables O) (key : String) : SessionView O where
  sticky := s.sticky.get? key
  caps := s.stickyCaps.get? key
  reason := s.bindingFailoverReasons.get? key
  binding := s.routeBindings.get? key
  orchestrator := (s.multiAgentSessions.get? key).map Prod.snd
  lastActive := s.maSessionLastActive.get? key

/-- An operation that looks at the view of one session key and changes no other view. -/
structure Local {B : Type} (key : String) (op : SessionTables O → SessionTables O × B) :
    Prop where
  out : ∀ s s', s.view key = s'.view key → (op s).2 = (op s').2
  here : ∀ s s', s.view key = s'.view key → (op s).1.view key = (op s').1.view key
  elsewhere : ∀ s other, other ≠ key → (op s).1.view other = s.view other

theorem Local.bind {B C : Type} {key : String} {op : SessionTables O → SessionTables O × B}
    {next : B → SessionTables O → SessionTables O × C} (first : Local key op)
    (second : ∀ b, Local key (next b)) : Local key fun s => next (op s).2 (op s).1 where
  out := by
    intro s s' same
    rw [first.out s s' same]
    exact (second _).out _ _ (first.here s s' same)
  here := by
    intro s s' same
    rw [first.out s s' same]
    exact (second _).here _ _ (first.here s s' same)
  elsewhere := by
    intro s other ne
    rw [(second _).elsewhere _ other ne, first.elsewhere s other ne]

theorem Local.ite {B : Type} {key : String} {c : SessionTables O → Prop}
    [∀ s, Decidable (c s)] {op op' : SessionTables O → SessionTables O × B}
    (test : ∀ s s', s.view key = s'.view key → (c s ↔ c s')) (pos : Local key op)
    (neg : Local key op') : Local key fun s => if c s then op s else op' s where
  out := by
    intro s s' same
    by_cases h : c s
    · simpa [h, (test s s' same).mp h] using pos.out s s' same
    · simpa [h, (test s s' same).not.mp h] using neg.out s s' same
  here := by
    intro s s' same
    by_cases h : c s
    · simpa [h, (test s s' same).mp h] using pos.here s s' same
    · simpa [h, (test s s' same).not.mp h] using neg.here s s' same
  elsewhere := by
    intro s other ne
    by_cases h : c s
    · simpa [h] using pos.elsewhere s other ne
    · simpa [h] using neg.elsewhere s other ne

theorem Local.pure {B : Type} {key : String} {f : SessionTables O → B}
    (reads : ∀ s s', s.view key = s'.view key → f s = f s') : Local key fun s => (s, f s) :=
  ⟨reads, fun _ _ same => same, fun _ _ _ => rfl⟩

variable (cfg : SessionConfig O) (key : String)

theorem getOrCreate_local (parentModel : String) (now : ℚ) :
    Local key fun s =>
      let result := getOrCreateOrchestrator cfg key s parentModel now
      (result.1, result.2.map Prod.snd) := by
  refine ⟨fun s s' same => ?_, fun s s' same => ?_, fun s other ne => ?_⟩
  · have slot : (s.multiAgentSessions.get? key).map Prod.snd
        = (s'.multiAgentSessions.get? key).map Prod.snd := congrArg SessionView.orchestrator same
    simp only [getOrCreateOrchestrator]
    cases h : s.multiAgentSessions.get? key <;> cases h' : s'.multiAgentSessions.get? key <;>
      simp_all
  · have slot : (s.multiAgentSessions.get? key).map Prod.snd
        = (s'.multiAgentSessions.get? key).map Prod.snd := congrArg SessionView.orchestrator same
    simp only [getOrCreateOrchestrator]
    simp only [view, SessionView.mk.injEq] at same
    cases h : s.multiAgentSessions.get? key <;> cases h' : s'.multiAgentSessions.get? key <;>
      simp_all [view]
  · simp only [getOrCreateOrchestrator]
    cases h : s.multiAgentSessions.get? key <;> simp [view, ne]

theorem getRouteBinding_local (workspaceId : String) (now : ℚ) :
    Local key fun s : SessionTables O => getRouteBinding key s workspaceId now := by
  refine ⟨fun s s' same => ?_, fun s s' same => ?_, fun s other ne => ?_⟩
  · have row : s.routeBindings.get? key = s'.routeBindings.get? key :=
      congrArg SessionView.binding same
    simp only [getRouteBinding, row]
    repeat' split
    all_goals simp_all
  · have row : s.routeBindings.get? key = s'.routeBindings.get? key :=
      congrArg SessionView.binding same
    simp only [view, SessionView.mk.injEq] at same
    simp only [getRouteBinding, row]
    repeat' split
    all_goals simp_all [view]
  · simp only [getRouteBinding]
    repeat' split
    all_goals simp [view, ne]

/-- What `_restore_sticky_from_store` does with the row it got. -/
def restoreRow (now : ℚ) (row : Option RouteBinding) (s : SessionTables O) :
    SessionTables O × Unit :=
  match row with
  | none => (s, ())
  | some rec =>
    ({ s with
        sticky := s.sticky.set key (rec.keyId, now + cfg.stickyTtl)
        stickyCaps :=
          if rec.capabilities = ∅ then s.stickyCaps
          else s.stickyCaps.set key rec.capabilities }, ())

theorem restoreRow_local (now : ℚ) (row : Option RouteBinding) :
    Local key (restoreRow cfg key now row) := by
  cases row with
  | none => exact .pure fun _ _ _ => rfl
  | some rec =>
      refine ⟨fun _ _ _ => rfl, fun s s' same => ?_, fun s other ne => ?_⟩
      · simp only [view, SessionView.mk.injEq] at same
        simp only [restoreRow]
        split
        · simp_all [view]
        · simp_all [view]
      · simp only [restoreRow]
        split
        · simp [view, ne]
        · simp [view, ne]

theorem restore_local (now : ℚ) :
    Local key fun s => (restoreStickyFromStore cfg key s now, ()) := by
  have found := (getRouteBinding_local (O := O) key "" now).bind (restoreRow_local cfg key now)
  have stays : Local key fun s : SessionTables O => (s, ()) := .pure fun _ _ _ => rfl
  have chosen := Local.ite (c := fun s : SessionTables O =>
      !cfg.hasStore ∨ key = "" ∨ (s.sticky.get? key).isSome)
    (fun s s' same => by
      have sticky : s.sticky.get? key = s'.sticky.get? key := congrArg SessionView.sticky same
      rw [sticky])
    stays found
  convert chosen using 2 with s
  simp only [restoreStickyFromStore]
  split
  · rfl
  · cases h : s.getRouteBinding key "" now with
    | mk t row => cases row <;> rfl

theorem getStickyKey_local (available : ℕ → Bool) (required : Finset String) (now : ℚ) :
    Local key fun s => getStickyKey cfg key s available required now := by
  refine ⟨fun s s' same => ?_, fun s s' same => ?_, fun s other ne => ?_⟩
  · simp only [view, SessionView.mk.injEq] at same
    simp only [getStickyKey, same.1, same.2.1]
    repeat' split
    all_goals simp_all
  · simp only [view, SessionView.mk.injEq] at same
    simp only [getStickyKey, same.1, same.2.1]
    repeat' split
    all_goals simp_all [view]
  · simp only [getStickyKey]
    repeat' split
    all_goals simp [view, ne]

theorem persistFailover_local (now : ℚ) :
    Local key fun s => (persistStickyFailover cfg key s now, (none : Option ℕ)) := by
  refine ⟨fun s s' same => rfl, fun s s' same => ?_, fun s other ne => ?_⟩
  · simp only [view, SessionView.mk.injEq] at same
    simp only [persistStickyFailover, same.2.2.1, same.2.2.2.1]
    repeat' split
    all_goals simp_all [view]
  · simp only [persistStickyFailover]
    repeat' split
    all_goals simp [view, ne]

theorem pin_local (keyId : ℕ) (caps : Finset String) (now : ℚ) :
    Local key fun s => (pin cfg key s keyId caps now, ()) := by
  refine ⟨fun s s' same => rfl, fun s s' same => ?_, fun s other ne => ?_⟩
  · simp only [view, SessionView.mk.injEq] at same
    simp [pin, view, same]
  · simp [pin, view, ne]

theorem persistBinding_local (keyId : ℕ) (caps : Finset String) (now : ℚ) :
    Local key fun s => (persistStickyBinding cfg key s keyId caps now, ()) := by
  refine ⟨fun s s' same => rfl, fun s s' same => ?_, fun s other ne => ?_⟩
  · simp only [view, SessionView.mk.injEq] at same
    simp only [persistStickyBinding]
    split
    · simp [view, same]
    · simp [view, same]
  · simp only [persistStickyBinding]
    split
    · rfl
    · simp [view, ne]

/-! ## One request -/

variable {cfg} {W : String} {keys : Set String} {s s' : SessionTables O}

variable (cfg) in
theorem obtain_local (r : SessionRequest O A) :
    Local (r.key cfg) fun s =>
      ((obtain cfg s r).1, (obtain cfg s r).2.map Prod.snd) := by
  unfold obtain
  cases r.parentModel with
  | none => exact .pure fun _ _ _ => rfl
  | some parentModel => exact getOrCreate_local cfg (r.key cfg) parentModel (r.clock 0)

variable (cfg) in
theorem prefer_local (r : SessionRequest O A) :
    Local (r.key cfg) fun s => prefer cfg s r := by
  by_cases asks : r.prefersSticky ∧ r.key cfg ≠ ""
  · have flush := persistFailover_local (O := O) cfg (r.key cfg) (r.clock 3)
    have stays : Local (r.key cfg) fun s : SessionTables O => (s, (none : Option ℕ)) :=
      .pure fun _ _ _ => rfl
    have flushed := Local.ite
      (c := fun s : SessionTables O => (s.bindingFailoverReasons.get? (r.key cfg)).isSome)
      (fun s s' same => by
        have reason : s.bindingFailoverReasons.get? (r.key cfg)
            = s'.bindingFailoverReasons.get? (r.key cfg) := congrArg SessionView.reason same
        rw [reason])
      flush stays
    have settled : ∀ found : Option ℕ, Local (r.key cfg) fun s : SessionTables O =>
        found.elim
          (if (s.bindingFailoverReasons.get? (r.key cfg)).isSome then
            (persistStickyFailover cfg (r.key cfg) s (r.clock 3), none)
          else (s, none))
          fun keyId => (s, some keyId) := by
      intro found
      cases found with
      | some keyId => exact .pure fun _ _ _ => rfl
      | none => exact flushed
    have whole := (restore_local cfg (r.key cfg) (r.clock 1)).bind fun _ =>
      (getStickyKey_local cfg (r.key cfg) r.available r.required (r.clock 2)).bind settled
    convert whole using 2 with s
    simp only [prefer, if_pos asks]
    cases h : getStickyKey cfg (r.key cfg) (restoreStickyFromStore cfg (r.key cfg) s (r.clock 1))
      r.available r.required (r.clock 2) with
    | mk t found => cases found <;> rfl
  · have stays : Local (r.key cfg) fun s : SessionTables O => (s, (none : Option ℕ)) :=
      .pure fun _ _ _ => rfl
    simpa only [prefer, if_neg asks] using stays

theorem leave_view (key : String) (f : O → O) (orch : Option (ℕ × O)) :
    (s.leave key f orch).view key
      = { s.view key with
          orchestrator := ((orch.map Prod.snd).map f).or (s.view key).orchestrator } := by
  cases orch <;> simp [leave, view]

theorem leave_view_of_ne {key other : String} (ne : other ≠ key) (f : O → O)
    (orch : Option (ℕ × O)) : (s.leave key f orch).view other = s.view other := by
  cases orch <;> simp [leave, view, ne]

variable (cfg) in
/-- **A request up to its sticky entry**: what it answers, what it pins and what it leaves in
its session depend on the view of its session. -/
theorem pinned_alike (r : SessionRequest O A) (same : s.view (r.key cfg) = s'.view (r.key cfg)) :
    (s.pinned cfg r).2 = (s'.pinned cfg r).2
      ∧ (s.pinned cfg r).1.view (r.key cfg) = (s'.pinned cfg r).1.view (r.key cfg) := by
  have obtained := (obtain_local cfg r).out s s' same
  have first := (obtain_local cfg r).here s s' same
  have preferred := (prefer_local cfg r).out _ _ first
  have second := (prefer_local cfg r).here _ _ first
  simp only at obtained preferred
  have third : ∀ f : O → O,
      (((s.obtain cfg r).1.prefer cfg r).1.leave (r.key cfg) f (s.obtain cfg r).2).view (r.key cfg)
        = (((s'.obtain cfg r).1.prefer cfg r).1.leave (r.key cfg) f
            (s'.obtain cfg r).2).view (r.key cfg) := by
    intro f
    rw [leave_view, leave_view, second, obtained]
  unfold pinned
  dsimp only
  rw [← obtained, ← preferred]
  cases pins cfg r (r.rest ((s.obtain cfg r).2.map Prod.snd)
    ((s.obtain cfg r).1.prefer cfg r).2).servedBy with
  | none => exact ⟨rfl, third _⟩
  | some keyId => exact ⟨rfl, (pin_local cfg _ _ _ _).here _ _ (third _)⟩

variable (cfg s) in
theorem pinned_elsewhere (r : SessionRequest O A) {other : String} (ne : other ≠ r.key cfg) :
    (s.pinned cfg r).1.view other = s.view other := by
  have first := (obtain_local cfg r).elsewhere s other ne
  have second := (prefer_local cfg r).elsewhere (s.obtain cfg r).1 other ne
  unfold pinned
  dsimp only
  split
  · rw [(pin_local cfg _ _ _ _).elsewhere _ _ ne, leave_view_of_ne ne, second, first]
  · rw [leave_view_of_ne ne, second, first]

/-! ## The tables of one workspace -/

/-- Two tables with the same views of the sessions in a set. -/
def AgreeOn (keys : Set String) (s s' : SessionTables O) : Prop :=
  ∀ key ∈ keys, s.view key = s'.view key

/-- If the request sweeps the table, no entry of the sessions in the set has expired. -/
def SweepsQuietly (cfg : SessionConfig O) (keys : Set String) (s : SessionTables O)
    (r : SessionRequest O A) : Prop :=
  (s.pinned cfg r).2.2 ≠ none → (s.pinned cfg r).1.Overfull →
    ∀ key ∈ keys, ∀ entry, (s.pinned cfg r).1.sticky.get? key = some entry → r.clock 5 < entry.2

variable (keys) in
theorem sweep_view (now : ℚ)
    (quiet : s.Overfull → ∀ key ∈ keys, ∀ entry, s.sticky.get? key = some entry →
      now < entry.2) {key : String} (mem : key ∈ keys) : (s.sweep now).view key = s.view key := by
  unfold sweep
  split
  case isFalse _ => rfl
  case isTrue overfull =>
    have kept : (s.sticky.get? key).filter (fun v => decide (now < v.2)) = s.sticky.get? key := by
      cases found : s.sticky.get? key with
      | none => rfl
      | some entry => simp [quiet overfull key mem entry found]
    simp [view, Dict.get?_keepIf, kept]

/-- What a request makes of the sessions in a set is what it makes of them up to its sticky
entry, and its own row. -/
theorem handle_view {r : SessionRequest O A} (quiet : SweepsQuietly cfg keys s r) {key : String}
    (mem : key ∈ keys) (ne : key ≠ r.key cfg) : (s.handle cfg r).1.view key = s.view key := by
  have up := pinned_elsewhere cfg s r ne
  unfold handle
  split
  case h_1 t answer keyId pinned =>
    have swept := sweep_view (s := t) keys (r.clock 5)
      (by simpa [SweepsQuietly, pinned] using quiet) mem
    rw [(persistBinding_local cfg (r.key cfg) keyId r.required (r.clock 6)).elsewhere _ _ ne,
      swept]
    simpa [pinned] using up
  case h_2 t answer pinned => simpa [pinned] using up

/-- A request of a session in the set: the same answer from tables that agree on the set, and
they still do. -/
theorem handle_alike {r : SessionRequest O A} (agree : AgreeOn keys s s')
    (mem : r.key cfg ∈ keys) (quiet : SweepsQuietly cfg keys s r)
    (quiet' : SweepsQuietly cfg keys s' r) :
    (s.handle cfg r).2 = (s'.handle cfg r).2
      ∧ AgreeOn keys (s.handle cfg r).1 (s'.handle cfg r).1 := by
  obtain ⟨out, here⟩ := pinned_alike cfg r (agree _ mem)
  have own : (s.handle cfg r).2 = (s'.handle cfg r).2
      ∧ (s.handle cfg r).1.view (r.key cfg) = (s'.handle cfg r).1.view (r.key cfg) := by
    unfold handle
    split
    case h_1 t answer keyId pinned =>
      rw [pinned] at out here
      have swept := sweep_view (s := t) keys (r.clock 5)
        (by simpa [SweepsQuietly, pinned] using quiet) mem
      split
      case h_1 t' answer' keyId' pinned' =>
        rw [pinned'] at out here
        obtain ⟨rfl, rfl⟩ : answer = answer' ∧ keyId = keyId' := by simpa using out
        have swept' := sweep_view (s := t') keys (r.clock 5)
          (by simpa [SweepsQuietly, pinned'] using quiet') mem
        exact ⟨rfl, (persistBinding_local cfg (r.key cfg) keyId r.required (r.clock 6)).here _ _
          (by rw [swept, swept', here])⟩
      case h_2 t' answer' pinned' => simp [pinned'] at out
    case h_2 t answer pinned =>
      rw [pinned] at out here
      split
      case h_1 t' answer' keyId' pinned' => simp [pinned'] at out
      case h_2 t' answer' pinned' =>
        rw [pinned'] at out here
        exact ⟨congrArg Prod.fst out, here⟩
  refine ⟨own.1, fun key inside => ?_⟩
  by_cases h : key = r.key cfg
  · rw [h]
    exact own.2
  · rw [handle_view quiet inside h, handle_view quiet' inside h]
    exact agree key inside

theorem cleanup_view {key : String} (now : ℚ) (same : s.view key = s'.view key) :
    (s.cleanup now).view key = (s'.cleanup now).view key := by
  simp only [view, SessionView.mk.injEq] at same
  obtain ⟨sticky, caps, reason, binding, orchestrator, lastActive⟩ := same
  have there : (s.multiAgentSessions.get? key).isSome
      = (s'.multiAgentSessions.get? key).isSome := by
    simpa using congrArg Option.isSome orchestrator
  cases h : s.multiAgentSessions.get? key <;> cases h' : s'.multiAgentSessions.get? key <;>
    simp_all [cleanup, view, Dict.get?_keepIf, Option.filter]

theorem restart_view {key : String} (same : s.view key = s'.view key) :
    s.restart.view key = s'.restart.view key := by
  simp only [view, SessionView.mk.injEq] at same
  simp [restart, start, view, same]

end SessionTables

open SessionTables

/-- What the answers to a workspace may depend on: its requests, and all that is not a
request. -/
def SessionEvent.concerns (W : String) : SessionEvent O A → Bool
  | .request r => decide (r.workspaceId = W)
  | .cleanup _ | .restart => true

/-- The requests of `W` are of sessions in the set and the others are not. -/
def SessionEvent.Sorted (cfg : SessionConfig O) (W : String) (keys : Set String) :
    SessionEvent O A → Prop
  | .request r => if r.workspaceId = W then r.key cfg ∈ keys else r.key cfg ∉ keys
  | .cleanup _ | .restart => True

/-- A sweep that the event brings about drops no entry of the sessions in the set. -/
def SessionEvent.Quiet (cfg : SessionConfig O) (keys : Set String) (s : SessionTables O) :
    SessionEvent O A → Prop
  | .request r => SweepsQuietly cfg keys s r
  | .cleanup _ | .restart => True

namespace SessionTables

variable {cfg : SessionConfig O} {keys : Set String} {s s' : SessionTables O}

/-- Every sticky entry is of a session in the set. -/
def StickyWithin (keys : Set String) (s : SessionTables O) : Prop :=
  ∀ key, (s.sticky.get? key).isSome → key ∈ keys

theorem pinned_within {r : SessionRequest O A} (mem : r.key cfg ∈ keys)
    (within : s.StickyWithin keys) : (s.pinned cfg r).1.StickyWithin keys := by
  intro key entry
  by_cases h : key = r.key cfg
  · rwa [h]
  · have same : (s.pinned cfg r).1.sticky.get? key = s.sticky.get? key :=
      congrArg SessionView.sticky (pinned_elsewhere cfg s r h)
    exact within key (same ▸ entry)

theorem sweep_within (now : ℚ) (within : s.StickyWithin keys) :
    (s.sweep now).StickyWithin keys := by
  intro key entry
  refine within key ?_
  unfold sweep at entry
  split at entry
  · exact Option.isSome_of_isSome_filter _ _ (by rwa [Dict.get?_keepIf] at entry)
  · exact entry

theorem step_within {e : SessionEvent O A} (mem : ∀ r, e = .request r → r.key cfg ∈ keys)
    (within : s.StickyWithin keys) : (step cfg s e).1.StickyWithin keys := by
  cases e with
  | request r =>
      have up := pinned_within (mem r rfl) within
      show (s.handle cfg r).1.StickyWithin keys
      unfold handle
      split
      case h_1 t answer keyId pinned =>
        have swept := sweep_within (r.clock 5) (by simpa [pinned] using up)
        unfold persistStickyBinding
        split
        · exact swept
        · exact swept
      case h_2 t answer pinned => simpa [pinned] using up
  | cleanup now =>
      intro key entry
      exact within key (Option.isSome_of_isSome_filter _ _ (by
        simpa [step, cleanup, Dict.get?_keepIf] using entry))
  | restart =>
      intro key entry
      simp [step, restart, start] at entry

theorem length_le_of_agree (agree : AgreeOn keys s s') (within : s'.StickyWithin keys) :
    s'.sticky.entries.length ≤ s.sticky.entries.length := by
  have sub : s'.sticky.entries ⊆ s.sticky.entries := by
    rintro ⟨key, entry⟩ mem
    rw [Dict.mem_entries] at mem ⊢
    have same : s.sticky.get? key = s'.sticky.get? key :=
      congrArg SessionView.sticky (agree key (within key (by simp [mem])))
    rw [same, mem]
  exact (s'.sticky.nodup.of_map _ |>.subperm sub).length_le

theorem SweepsQuietly.carries {r : SessionRequest O A} (quiet : SweepsQuietly cfg keys s r)
    (mem : r.key cfg ∈ keys) (agree : AgreeOn keys s s') (within : s'.StickyWithin keys) :
    SweepsQuietly cfg keys s' r := by
  obtain ⟨out, here⟩ := pinned_alike cfg r (agree _ mem)
  have agree' : AgreeOn keys (s.pinned cfg r).1 (s'.pinned cfg r).1 := by
    intro key inside
    by_cases h : key = r.key cfg
    · rw [h]
      exact here
    · rw [pinned_elsewhere cfg s r h, pinned_elsewhere cfg s' r h]
      exact agree key inside
  intro pins overfull key inside entry found
  have longer := length_le_of_agree agree' (pinned_within mem within)
  refine quiet (by rwa [out]) (lt_of_lt_of_le overfull longer) key inside entry ?_
  have same := congrArg SessionView.sticky (agree' key inside)
  exact Eq.trans same found

end SessionTables

/-- Two tables that agree on a set of sessions, the second without sticky entries elsewhere. -/
def Follows (keys : Set String) (s s' : SessionTables O) : Prop :=
  AgreeOn keys s s' ∧ s'.StickyWithin keys

theorem unwinding_sessions (cfg : SessionConfig O) (W : String) (keys : Set String) :
    Unwinding (step (A := A) cfg) (SessionEvent.concerns W)
      (fun s e => e.Quiet cfg keys s ∧ e.Sorted cfg W keys) (Follows keys) where
  answer := by
    rintro s s' (r | now | _) ⟨quiet, sorted⟩ ⟨quiet', _⟩ mine ⟨agree, _⟩
    · have mem : r.key cfg ∈ keys := by
        simpa [SessionEvent.Sorted, of_decide_eq_true mine] using sorted
      exact congrArg some (handle_alike agree mem quiet quiet').1
    · rfl
    · rfl
  both := by
    rintro s s' e ⟨quiet, sorted⟩ ⟨quiet', _⟩ mine ⟨agree, within⟩
    have mem : ∀ r, e = .request r → r.key cfg ∈ keys := by
      rintro r rfl
      simpa [SessionEvent.Sorted, of_decide_eq_true mine] using sorted
    refine ⟨?_, step_within mem within⟩
    cases e with
    | request r => exact (handle_alike agree (mem r rfl) quiet quiet').2
    | cleanup now => exact fun key inside => cleanup_view now (agree key inside)
    | restart => exact fun key inside => restart_view (agree key inside)
  left := by
    rintro s s' (r | now | _) ⟨quiet, sorted⟩ other ⟨agree, within⟩
    · have foreign : r.workspaceId ≠ W := of_decide_eq_false other
      have outside : r.key cfg ∉ keys := by simpa [SessionEvent.Sorted, foreign] using sorted
      refine ⟨fun key inside => ?_, within⟩
      have ne : key ≠ r.key cfg := fun same => outside (same ▸ inside)
      exact (handle_view quiet inside ne).trans (agree key inside)
    · simp [SessionEvent.concerns] at other
    · simp [SessionEvent.concerns] at other

theorem quiet_carries {cfg : SessionConfig O} {W : String} {keys : Set String}
    {s s' : SessionTables O} {e : SessionEvent O A} (quiet : e.Quiet cfg keys s)
    (sorted : e.Sorted cfg W keys) (mine : e.concerns W = true) (follows : Follows keys s s') :
    e.Quiet cfg keys s' := by
  cases e with
  | request r =>
      have mem : r.key cfg ∈ keys := by
        simpa [SessionEvent.Sorted, of_decide_eq_true mine] using sorted
      exact SweepsQuietly.carries quiet mem follows.1 follows.2
  | cleanup now => trivial
  | restart => trivial

/-! ## Instances -/

/-- The number of the orchestrator instance that a session has. -/
def SessionTables.slot (s : SessionTables O) (key : String) : Option ℕ :=
  (s.multiAgentSessions.get? key).map Prod.fst

/-- The instances the requests of a run obtain, in order. -/
def instances (cfg : SessionConfig O) : SessionTables O → List (SessionEvent O A) →
    List (SessionRequest O A × ℕ)
  | _, [] => []
  | s, .request r :: events =>
    ((s.obtain cfg r).2.map fun orch => (r, orch.1)).toList
      ++ instances cfg (step cfg s (.request r)).1 events
  | s, .cleanup now :: events => instances cfg (s.cleanup now) events
  | s, .restart :: events => instances cfg s.restart events

/-- Every instance has its own number, and the next number is free. -/
structure SessionTables.Numbered (s : SessionTables O) : Prop where
  below : ∀ key n, s.slot key = some n → n < s.nextInstance
  distinct : ∀ key key' n, s.slot key = some n → s.slot key' = some n → key = key'

namespace SessionTables

variable {cfg : SessionConfig O} {s : SessionTables O}

variable (cfg s) in
/-- What a request makes of the slots: the one of its session is filled if it asks for an
orchestrator, with the next number if it was empty. -/
theorem obtain_slots (r : SessionRequest O A) :
    ((s.obtain cfg r).2 = none ∧ (s.obtain cfg r).1.slot = s.slot
        ∧ (s.obtain cfg r).1.nextInstance = s.nextInstance)
      ∨ (∃ n o, s.slot (r.key cfg) = some n ∧ (s.obtain cfg r).2 = some (n, o)
          ∧ (s.obtain cfg r).1.slot = s.slot
          ∧ (s.obtain cfg r).1.nextInstance = s.nextInstance)
      ∨ ∃ o, s.slot (r.key cfg) = none ∧ (s.obtain cfg r).2 = some (s.nextInstance, o)
          ∧ (s.obtain cfg r).1.slot = Function.update s.slot (r.key cfg) (some s.nextInstance)
          ∧ (s.obtain cfg r).1.nextInstance = s.nextInstance + 1 := by
  unfold obtain
  cases r.parentModel with
  | none => exact .inl ⟨rfl, rfl, rfl⟩
  | some parentModel =>
      simp only [getOrCreateOrchestrator]
      cases held : s.multiAgentSessions.get? (r.key cfg) with
      | none =>
          refine .inr (.inr ⟨_, by simp [slot, held], rfl, ?_, rfl⟩)
          funext key
          by_cases h : key = r.key cfg
          · subst h
            simp [slot]
          · simp [slot, h]
      | some orch =>
          obtain ⟨n, o⟩ := orch
          refine .inr (.inl ⟨n, _, by simp [slot, held], rfl, ?_, rfl⟩)
          funext key
          by_cases h : key = r.key cfg
          · subst h
            simp [slot, held]
          · simp [slot, h]

variable (cfg s) in
theorem restore_sessions (key : String) (now : ℚ) :
    (restoreStickyFromStore cfg key s now).multiAgentSessions = s.multiAgentSessions
      ∧ (restoreStickyFromStore cfg key s now).nextInstance = s.nextInstance := by
  unfold restoreStickyFromStore getRouteBinding
  grind

variable (cfg s) in
theorem prefer_sessions (r : SessionRequest O A) :
    (s.prefer cfg r).1.multiAgentSessions = s.multiAgentSessions
      ∧ (s.prefer cfg r).1.nextInstance = s.nextInstance := by
  have restored := restore_sessions cfg s (r.key cfg) (r.clock 1)
  unfold prefer getStickyKey persistStickyFailover
  grind

theorem leave_slot (key : String) {orch : Option (ℕ × O)} (f : O → O)
    (held : ∀ n o, orch = some (n, o) → s.slot key = some n) :
    (s.leave key f orch).slot = s.slot ∧ (s.leave key f orch).nextInstance = s.nextInstance := by
  cases orch with
  | none => exact ⟨rfl, rfl⟩
  | some orch =>
      obtain ⟨n, o⟩ := orch
      refine ⟨funext fun other => ?_, rfl⟩
      by_cases h : other = key
      · subst h
        simp [leave, slot, ← held n o rfl]
      · simp [leave, slot, h]

theorem obtain_held {r : SessionRequest O A} {n : ℕ} {o : O}
    (obtained : (s.obtain cfg r).2 = some (n, o)) :
    (s.obtain cfg r).1.slot (r.key cfg) = some n := by
  rcases obtain_slots cfg s r with h | ⟨m, o', held, h, same, -⟩
    | ⟨o', empty, h, updated, -⟩
  · simp [obtained] at h
  · rw [same, held]
    simp_all
  · rw [updated]
    simp_all

variable (cfg s) in
theorem handle_slots (r : SessionRequest O A) :
    (s.handle cfg r).1.slot = (s.obtain cfg r).1.slot
      ∧ (s.handle cfg r).1.nextInstance = (s.obtain cfg r).1.nextInstance := by
  have preferred := prefer_sessions cfg (s.obtain cfg r).1 r
  have kept : ((s.obtain cfg r).1.prefer cfg r).1.slot = (s.obtain cfg r).1.slot := by
    funext key
    simp [slot, preferred.1]
  have left := leave_slot (s := ((s.obtain cfg r).1.prefer cfg r).1) (r.key cfg)
    (r.rest ((s.obtain cfg r).2.map Prod.snd) ((s.obtain cfg r).1.prefer cfg r).2).orchestrator
    (fun n o obtained => by rw [kept, obtain_held obtained])
  have whole : (s.handle cfg r).1.multiAgentSessions
        = (((s.obtain cfg r).1.prefer cfg r).1.leave (r.key cfg)
          (r.rest ((s.obtain cfg r).2.map Prod.snd)
            ((s.obtain cfg r).1.prefer cfg r).2).orchestrator
          (s.obtain cfg r).2).multiAgentSessions
      ∧ (s.handle cfg r).1.nextInstance
        = (((s.obtain cfg r).1.prefer cfg r).1.leave (r.key cfg)
          (r.rest ((s.obtain cfg r).2.map Prod.snd)
            ((s.obtain cfg r).1.prefer cfg r).2).orchestrator
          (s.obtain cfg r).2).nextInstance := by
    unfold handle pinned sweep persistStickyBinding pin
    grind
  refine ⟨?_, by rw [whole.2, left.2, preferred.2]⟩
  rw [← kept, ← left.1]
  funext key
  simp [slot, whole.1]

theorem cleanup_slot {now : ℚ} {key : String} {n : ℕ} (held : (s.cleanup now).slot key = some n) :
    s.slot key = some n := by
  simp only [slot, cleanup, Dict.get?_keepIf, Option.map_eq_some_iff,
    Option.filter_eq_some_iff] at held ⊢
  obtain ⟨orch, ⟨found, -⟩, rfl⟩ := held
  exact ⟨orch, found, rfl⟩

variable (cfg s) in
/-- What an event leaves in the slots: what was there, and for a request the next number in the
slot of its session. -/
theorem step_slot (e : SessionEvent O A) :
    s.nextInstance ≤ (step cfg s e).1.nextInstance
      ∧ ∀ key n, (step cfg s e).1.slot key = some n →
        s.slot key = some n
          ∨ n = s.nextInstance ∧ n < (step cfg s e).1.nextInstance
            ∧ ∃ r, e = .request r ∧ key = r.key cfg := by
  cases e with
  | request r =>
      obtain ⟨slots, next⟩ := handle_slots cfg s r
      simp only [step, slots, next]
      rcases obtain_slots cfg s r with ⟨-, same, count⟩ | ⟨_, _, -, -, same, count⟩
        | ⟨o, -, -, updated, count⟩
      · exact ⟨count.ge, fun key n held => .inl (same ▸ held)⟩
      · exact ⟨count.ge, fun key n held => .inl (same ▸ held)⟩
      · refine ⟨by omega, fun key n held => ?_⟩
        rw [updated] at held
        by_cases h : key = r.key cfg
        · subst h
          obtain rfl : s.nextInstance = n := by simpa using held
          exact .inr ⟨rfl, by omega, r, rfl, rfl⟩
        · rw [Function.update_of_ne h] at held
          exact .inl held
  | cleanup now => exact ⟨le_rfl, fun key n held => .inl (cleanup_slot held)⟩
  | restart => exact ⟨le_rfl, fun key n held => by simp [step, restart, start, slot] at held⟩

variable (cfg) in
theorem step_numbered (numbered : s.Numbered) (e : SessionEvent O A) :
    (step cfg s e).1.Numbered := by
  obtain ⟨more, slots⟩ := step_slot cfg s e
  constructor
  · intro key n held
    rcases slots key n held with old | ⟨-, below, -⟩
    · exact (numbered.below key n old).trans_le more
    · exact below
  · intro key key' n held held'
    rcases slots key n held with old | ⟨rfl, -, r, rfl, rfl⟩
    · rcases slots key' n held' with old' | ⟨rfl, -, -⟩
      · exact numbered.distinct key key' n old old'
      · exact absurd (numbered.below key _ old) (lt_irrefl _)
    · rcases slots key' _ held' with old' | ⟨-, -, r', same, rfl⟩
      · exact absurd (numbered.below key' _ old') (lt_irrefl _)
      · obtain rfl : r = r' := by simpa using same
        rfl

theorem start_numbered (rows : Dict String RouteBinding) :
    (start rows : SessionTables O).Numbered :=
  ⟨fun _ _ held => by simp [start, slot] at held, fun _ _ _ held => by simp [start, slot] at held⟩

theorem slot_before {e : SessionEvent O A} {key : String} {n : ℕ}
    (later : (step cfg s e).1.slot key = some n ∨ (step cfg s e).1.nextInstance ≤ n) :
    s.slot key = some n ∨ s.nextInstance ≤ n := by
  obtain ⟨more, slots⟩ := step_slot cfg s e
  rcases later with held | fresh
  · rcases slots _ _ held with old | ⟨rfl, -⟩
    · exact .inl old
    · exact .inr le_rfl
  · exact .inr (more.trans fresh)

theorem handle_held {r : SessionRequest O A} {n : ℕ} {o : O}
    (obtained : (s.obtain cfg r).2 = some (n, o)) :
    (step cfg s (.request r)).1.slot (r.key cfg) = some n := by
  show (s.handle cfg r).1.slot (r.key cfg) = some n
  rw [(handle_slots cfg s r).1, obtain_held obtained]

theorem instances_cons {e : SessionEvent O A} {events : List (SessionEvent O A)}
    {r : SessionRequest O A} {n : ℕ} (mem : (r, n) ∈ instances cfg s (e :: events)) :
    (e = .request r ∧ ∃ o, (s.obtain cfg r).2 = some (n, o))
      ∨ (r, n) ∈ instances cfg (step cfg s e).1 events := by
  cases e with
  | request r' =>
      rcases List.mem_append.mp mem with head | tail
      · simp only [Option.mem_toList, Option.map_eq_some_iff, Prod.mk.injEq] at head
        obtain ⟨⟨m, o⟩, obtained, rfl, rfl⟩ := head
        exact .inl ⟨rfl, o, obtained⟩
      · exact .inr tail
  | cleanup now => exact .inr mem
  | restart => exact .inr mem

theorem slot_of_mem_instances {events : List (SessionEvent O A)} {r : SessionRequest O A} {n : ℕ}
    (mem : (r, n) ∈ instances cfg s events) :
    s.slot (r.key cfg) = some n ∨ s.nextInstance ≤ n := by
  induction events generalizing s with
  | nil => simp [instances] at mem
  | cons e events ih =>
      rcases instances_cons mem with ⟨rfl, o, obtained⟩ | tail
      · exact slot_before (.inl (handle_held obtained))
      · exact slot_before (ih tail)

theorem request_of_mem_instances {events : List (SessionEvent O A)} {r : SessionRequest O A}
    {n : ℕ} (mem : (r, n) ∈ instances cfg s events) : .request r ∈ events := by
  induction events generalizing s with
  | nil => simp [instances] at mem
  | cons e events ih =>
      rcases instances_cons mem with ⟨rfl, -⟩ | tail
      · exact List.mem_cons_self
      · exact List.mem_cons_of_mem e (ih tail)

theorem key_eq_of_mem_instances (numbered : s.Numbered) {events : List (SessionEvent O A)}
    {r r' : SessionRequest O A} {n : ℕ} (mem : (r, n) ∈ instances cfg s events)
    (mem' : (r', n) ∈ instances cfg s events) : r.key cfg = r'.key cfg := by
  induction events generalizing s with
  | nil => simp [instances] at mem
  | cons e events ih =>
      have after := step_numbered cfg numbered e
      -- what obtained it now is in its slot, and what obtains it later has it from there
      have across : ∀ {q q' : SessionRequest O A} {o : O}, e = .request q →
          (s.obtain cfg q).2 = some (n, o) → (q', n) ∈ instances cfg (step cfg s e).1 events →
            q.key cfg = q'.key cfg := by
        rintro q q' o rfl obtained tail
        have held := handle_held obtained
        rcases slot_of_mem_instances tail with held' | fresh
        · exact after.distinct _ _ n held held'
        · exact absurd (after.below _ n held) (not_lt.mpr fresh)
      rcases instances_cons mem with ⟨here, o, obtained⟩ | tail
      · rcases instances_cons mem' with ⟨here', -⟩ | tail'
        · obtain rfl : r = r' := by simpa [here] using here'
          rfl
        · exact across here obtained tail'
      · rcases instances_cons mem' with ⟨here', o', obtained'⟩ | tail'
        · exact (across here' obtained' tail).symm
        · exact ih after tail tail'

end SessionTables

/-! ## Isolation -/

/-- The sessions of a workspace. -/
def sessionsOf (cfg : SessionConfig O) (W : String) (events : List (SessionEvent O A)) :
    Set String :=
  {key | ∃ r : SessionRequest O A, .request r ∈ events ∧ r.workspaceId = W ∧ r.key cfg = key}

/-- **The sessions of a workspace are its own** while no other workspace comes with one of its
session keys and no sweep drops one of its sticky entries: its requests are answered, and its
sessions left, as in the run without the other workspaces, and it shares no orchestrator with
them. -/
theorem sessions_isolated (cfg : SessionConfig O) (W : String) (rows : Dict String RouteBinding)
    (events : List (SessionEvent O A))
    (apart : ∀ r r' : SessionRequest O A, .request r ∈ events → .request r' ∈ events →
      r.workspaceId = W → r'.workspaceId ≠ W → r.key cfg ≠ r'.key cfg)
    (quiet : Throughout (step cfg) (fun s e => e.Quiet cfg (sessionsOf cfg W events) s)
      (start rows) events) :
    answersTo (step cfg) (SessionEvent.concerns W) (start rows) events
        = answersTo (step cfg) (SessionEvent.concerns W) (start rows)
            (events.filter (SessionEvent.concerns W))
      ∧ AgreeOn (sessionsOf cfg W events) (serve (step cfg) (start rows) events)
          (serve (step cfg) (start rows) (events.filter (SessionEvent.concerns W)))
      ∧ ∀ r r' n n', (r, n) ∈ instances cfg (start rows) events →
          (r', n') ∈ instances cfg (start rows) events →
          r.workspaceId = W → r'.workspaceId ≠ W → n ≠ n' := by
  have sorted : ∀ e ∈ events, e.Sorted cfg W (sessionsOf cfg W events) := by
    rintro (r | now | _) mem
    · by_cases mine : r.workspaceId = W
      · simpa [SessionEvent.Sorted, mine] using ⟨r, mem, mine, rfl⟩
      · simp only [SessionEvent.Sorted, mine, if_false]
        rintro ⟨r', mem', mine', same⟩
        exact apart r' r mem' mem mine' mine same
    · trivial
    · trivial
  have unwinding := unwinding_sessions (A := A) cfg W (sessionsOf cfg W events)
  have related : Follows (sessionsOf cfg W events) (start rows) (start rows : SessionTables O) :=
    ⟨fun _ _ => rfl, fun key entry => by simp [start] at entry⟩
  have kind := quiet.and_forall sorted
  have kind' := unwinding.throughout_filter
    (fun s s' e kind mine follows => ⟨quiet_carries kind.1 kind.2 mine follows, kind.2⟩)
    related kind
  refine ⟨unwinding.answersTo_eq related kind kind', (unwinding.serve_rel related kind kind').1,
    ?_⟩
  rintro r r' n n' mem mem' mine other rfl
  exact apart r r' (request_of_mem_instances mem) (request_of_mem_instances mem') mine other
    (key_eq_of_mem_instances (start_numbered rows) mem mem')

/-! ## Two workspaces under one header -/

/-- Orchestrators that count their requests. -/
def countingSessions : SessionConfig ℕ where
  digest := { dumpsSorted := fun _ => "", sha256 := id }
  stickyTtl := 300
  hasStore := true
  newOrchestrator := fun _ _ => 0
  setDefaultModel := fun o _ => o
  setDefaultSession := fun o _ => o
  mismatch := fun _ _ => "capability_mismatch"

/-- A request with the header `x-session-id` that answers what its orchestrator has counted. -/
def countedRequest (workspaceId session : String) : SessionRequest ℕ ℕ where
  workspaceId := workspaceId
  headers := [("x-session-id", session)]
  body := []
  clock := fun _ => 0
  parentModel := some "m"
  prefersSticky := true
  available := fun _ => true
  required := ∅
  rest := fun orch _ => { answer := orch.getD 0, orchestrator := (· + 1), servedBy := some 1 }

/-- Under headers of their own two workspaces are apart. -/
theorem ownHeaders_isolated :
    answersTo (step countingSessions) (SessionEvent.concerns "a") (start .empty)
        [.request (countedRequest "b" "t"), .request (countedRequest "a" "s")]
      = answersTo (step countingSessions) (SessionEvent.concerns "a") (start .empty)
        [.request (countedRequest "a" "s")] := by
  have keys : (countedRequest "a" "s").key countingSessions
      ≠ (countedRequest "b" "t").key countingSessions := by decide +kernel
  refine (sessions_isolated countingSessions "a" .empty
    [.request (countedRequest "b" "t"), .request (countedRequest "a" "s")] ?_ ?_).1
  · intro r r' mem mem' mine other
    simp only [List.mem_cons, SessionEvent.request.injEq, List.not_mem_nil, or_false] at mem mem'
    rcases mem with rfl | rfl
    · exact absurd mine (by decide)
    · rcases mem' with rfl | rfl
      · exact keys
      · exact absurd rfl other
  · refine ⟨fun _ overfull => ?_, fun _ overfull => ?_, trivial⟩
    · exact absurd overfull (by decide +kernel)
    · exact absurd overfull (by decide +kernel)

/-- Two workspaces that send the same `x-session-id` share an orchestrator, and the answer to
the second one depends on the first. -/
theorem sharedHeader_seen :
    answersTo (step countingSessions) (SessionEvent.concerns "a") (start .empty)
        [.request (countedRequest "b" "s"), .request (countedRequest "a" "s")] = [some 1]
      ∧ answersTo (step countingSessions) (SessionEvent.concerns "a") (start .empty)
        [.request (countedRequest "a" "s")] = [some 0]
      ∧ (instances countingSessions (start .empty)
          [.request (countedRequest "b" "s"), .request (countedRequest "a" "s")]).map
        (fun handed => (handed.1.workspaceId, handed.2)) = [("b", 0), ("a", 0)] := by
  decide +kernel

end Zhongzhuan.Proxy
