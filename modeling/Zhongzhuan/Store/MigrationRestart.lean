import Zhongzhuan.Store.MigrationEngine

/-!
# Migrations over crashes

A process that runs the migrations may die at any call and be started again, any number of times.
`RestartLaw` asks that the database then comes to what one undisturbed run would have made of it.

A run that begins without a version table takes a database with the first probed table for an old
one, and carries out baselines.  The table it creates first is durable before any of them: the run
after a crash does not see an old database any more, and carries out everything.
`restartLaw_iff` says which databases come out the same all the same.
-/

namespace Zhongzhuan.Store.MigrationEngine

open Kit.Transactions

variable {T ε : Type}

/-! ## The law -/

/-- A run that nothing disturbs. -/
def undisturbed (readings : ℕ → Reading) : Plan Reading MigrationCall where
  fate _ _ := .fine
  reading := readings

/-- A run in which the process dies instead of making one of its calls. -/
structure Crash where
  call : ℕ
  readings : ℕ → Reading

/-- The plan of that run. -/
def Crash.plan (crash : Crash) : Plan Reading MigrationCall where
  fate i _ := if i = crash.call then .killed else .fine
  reading := crash.readings

/-- What a database is, timestamps and durations aside. -/
def Database.facts (d : Database T) : T × Bool × List (ℤ × String × String × String) :=
  (d.tables, d.versionTable.isSome,
    d.rows.map fun row => (row.version, row.name, row.sqlDigest, row.status))

section Runs

variable (ex : Executor T ε) (sha256 : String → String) (migrations : List (Migration T ε))

/-- What a run of `run_all` leaves durable. -/
def runOnce (plan : Plan Reading MigrationCall) (d : Database T) : Database T :=
  (runAll ex sha256 migrations plan (.start d)).2.durable

/-- What runs that die one after the other leave durable. -/
def afterCrashes (crashes : List Crash) (d : Database T) : Database T :=
  crashes.foldl (fun d crash => runOnce ex sha256 migrations crash.plan d) d

/-- **The law of restarts**: crashes leave no trace. -/
def RestartLaw (d : Database T) : Prop :=
  ∀ crashes readings readings',
    (runOnce ex sha256 migrations (undisturbed readings)
        (afterCrashes ex sha256 migrations crashes d)).facts
      = (runOnce ex sha256 migrations (undisturbed readings') d).facts

/-- The first migration that is pending cannot be carried out, neither as a baseline nor in full. -/
def NothingApplies (d : Database T) : Prop :=
  ∃ first rest, pendingOf migrations d = first :: rest
    ∧ ∀ baseline d', ¬ Effect ex sha256 False first baseline d.withVersionTable d'

end Runs

variable {ex : Executor T ε} {sha256 : String → String} {migrations : List (Migration T ε)}
  {d d' e e' : Database T} {plan : Plan Reading MigrationCall} {legacy : Bool}

/-! ## Databases that differ in times only -/

theorem versions_of_facts (same : d.facts = e.facts) : d.versions = e.versions := by
  have rows := congrArg (fun facts => facts.2.2.map Prod.fst) same
  simpa only [Database.facts, List.map_map, Function.comp_def, Database.versions] using rows

theorem tableExists_of_facts {table : String} (same : d.facts = e.facts) :
    tableExists ex table d = tableExists ex table e := by
  rw [tableExists, tableExists, show d.tables = e.tables from congrArg Prod.fst same,
    show d.versionTable.isSome = e.versionTable.isSome from congrArg (·.2.1) same]

theorem Effect.facts {m : Migration T ε} {baseline : Bool} (same : d.facts = e.facts)
    (effect : Effect ex sha256 False m baseline d d') :
    ∃ e', Effect ex sha256 False m baseline e e'
      ∧ ∀ e', Effect ex sha256 False m baseline e e' → d'.facts = e'.facts := by
  have tables : d.tables = e.tables := congrArg Prod.fst same
  obtain ⟨mid, t, now, statements, hook, inserted⟩ := effect
  obtain ⟨present, fresh, rfl, present', rows⟩ := insertVersion_ok.mp inserted
  have go : ∃ e', Database.insertVersion (ε := ε) (versionRow ex sha256 m baseline now)
      { e with tables := d'.tables } = .ok e' := by
    have alike : d.versionTable.isSome = e.versionTable.isSome := congrArg (·.2.1) same
    have here : e.versionTable.isSome = true := alike ▸ present
    have new : m.version ∉ e.versions := versions_of_facts same ▸ fresh
    obtain ⟨te, table | table⟩ := e
    · cases here
    · exact ⟨_, dif_pos new⟩
  obtain ⟨e₁, inserted₁⟩ := go
  refine ⟨e₁, ⟨mid, _, now, tables ▸ statements, hook, inserted₁⟩, ?_⟩
  rintro e' ⟨mid', t', now', statements', hook', inserted'⟩
  rw [← tables] at statements'
  cases statements.symm.trans statements'
  cases hookEffect_unique hook hook'
  obtain ⟨-, -, tables', present'', rows'⟩ := insertVersion_ok.mp inserted'
  have old : d.rows.map (fun row => (row.version, row.name, row.sqlDigest, row.status))
      = e.rows.map fun row => (row.version, row.name, row.sqlDigest, row.status) :=
    congrArg (·.2.2) same
  rw [Database.facts, Database.facts, tables', present', present'', rows, rows', List.map_append,
    List.map_append]
  exact congrArg (fun list => (d'.tables, true, list ++ _)) old

/-- Migrations one after the other, until one cannot be carried out. -/
inductive Settles (ex : Executor T ε) (sha256 : String → String) (legacy : Bool) :
    List (Migration T ε) → Database T → Database T → Prop
  | nil {d : Database T} : Settles ex sha256 legacy [] d d
  | cons {m : Migration T ε} {rest : List (Migration T ε)} {d d' d'' : Database T}
      (first : Effect ex sha256 False m (baselineOf ex legacy m d) d d')
      (later : Settles ex sha256 legacy rest d' d'') : Settles ex sha256 legacy (m :: rest) d d''
  | stuck {m : Migration T ε} {rest : List (Migration T ε)} {d : Database T}
      (refused : ∀ d', ¬ Effect ex sha256 False m (baselineOf ex legacy m d) d d') :
      Settles ex sha256 legacy (m :: rest) d d

theorem Settles.facts (same : d.facts = e.facts)
    (settles : Settles ex sha256 legacy migrations d d')
    (settles' : Settles ex sha256 legacy migrations e e') : d'.facts = e'.facts := by
  induction settles generalizing e with
  | nil =>
    cases settles'
    exact same
  | @cons m rest d₁ d₂ d₃ first later ih =>
    have mode : baselineOf ex legacy m d₁ = baselineOf ex legacy m e := by
      rw [baselineOf, baselineOf, tableExists_of_facts same]
    obtain ⟨e₂, there, unique⟩ := first.facts same
    cases settles' with
    | cons first' later' => exact ih (unique _ (mode ▸ first')) later'
    | stuck refused => exact absurd (mode ▸ there) (refused e₂)
  | @stuck m rest d₁ refused =>
    have mode : baselineOf ex legacy m d₁ = baselineOf ex legacy m e := by
      rw [baselineOf, baselineOf, tableExists_of_facts same]
    cases settles' with
    | cons first' later' =>
      obtain ⟨d₂, there, -⟩ := first'.facts same.symm
      exact absurd (mode ▸ there) (refused d₂)
    | stuck refused' => exact same

theorem Chain.settles {before after : List (Migration T ε)}
    (chain : Chain ex sha256 False legacy before d d')
    (settles : Settles ex sha256 legacy after d' e) :
    Settles ex sha256 legacy (before ++ after) d e := by
  induction chain with
  | nil => exact settles
  | cons first _ ih => exact .cons first (ih settles)

theorem Chain.mono {faulty faulty' : Prop} {before : List (Migration T ε)}
    (imp : faulty → faulty') (chain : Chain ex sha256 faulty legacy before d d') :
    Chain ex sha256 faulty' legacy before d d' := by
  induction chain with
  | nil => exact .nil
  | cons first _ ih => exact .cons (first.mono imp) ih

theorem Settles.rows (settles : Settles ex sha256 legacy migrations d d') :
    ∃ added, d'.rows = d.rows ++ added := by
  induction settles with
  | nil => exact ⟨[], (List.append_nil _).symm⟩
  | cons first later ih =>
    obtain ⟨row, -, here, -⟩ := first.rows
    obtain ⟨added, rows⟩ := ih
    exact ⟨row :: added, by rw [rows, here, List.append_assoc, List.singleton_append]⟩
  | stuck => exact ⟨[], (List.append_nil _).symm⟩

/-! ## What a run comes to -/

/-- What an undisturbed run makes of a database. -/
def Ending (ex : Executor T ε) (sha256 : String → String) (migrations : List (Migration T ε))
    (d e : Database T) : Prop :=
  (pendingOf migrations d = [] ∧ e = d.mark (driftedVersions ex sha256 (inOrder migrations) d))
    ∨ (pendingOf migrations d ≠ [] ∧ Settles ex sha256 (legacyOf ex migrations d)
      (pendingOf migrations d) (readied ex sha256 migrations d) e)

/-- What any run makes of it that meets no failing call: it has got somewhere. -/
inductive Underway (ex : Executor T ε) (sha256 : String → String)
    (migrations : List (Migration T ε)) (d : Database T) : Database T → Prop
  | marking {marked : List ℤ} (sub : marked ⊆ driftedVersions ex sha256 (inOrder migrations) d) :
      Underway ex sha256 migrations d (d.mark marked)
  | migrating {marked : List ℤ} {before after : List (Migration T ε)} {d' : Database T}
      (sub : marked ⊆ driftedVersions ex sha256 (inOrder migrations) d)
      (ready : before = [] ∨ marked = driftedVersions ex sha256 (inOrder migrations) d)
      (busy : pendingOf migrations d ≠ []) (split : pendingOf migrations d = before ++ after)
      (chain : Chain ex sha256 False (legacyOf ex migrations d) before
        (d.mark marked).withVersionTable d') :
      Underway ex sha256 migrations d d'

theorem steady_of_not_fails (fine : ¬ plan.Fails) : Steady plan := fun i =>
  ⟨fun fails => fine ⟨i, _, fails⟩, fun _ fails => fine ⟨i, _, fails⟩⟩

theorem runOnce_underway (fine : ¬ plan.Fails) :
    Underway ex sha256 migrations d (runOnce ex sha256 migrations plan d) := by
  have ends : Ends _ _ (runAll ex sha256 migrations plan (.start d)) := runAll_ends
  unfold runOnce
  generalize runAll ex sha256 migrations plan (.start d) = run at ends
  have early : ∀ {base : Database T}, pendingOf migrations d ≠ [] →
      Prepared ex sha256 migrations d base → Underway ex sha256 migrations d base := by
    rintro base busy ⟨marked, sub, rfl | rfl⟩
    · exact .marking sub
    · exact .migrating sub (.inl rfl) busy rfl .nil
  have inside : ∀ {base after : Database T} {before rest : List (Migration T ε)},
      (Steady plan → base = readied ex sha256 migrations d) → pendingOf migrations d ≠ [] →
      pendingOf migrations d = before ++ rest →
      Chain ex sha256 plan.Fails (legacyOf ex migrations d) before base after →
      Underway ex sha256 migrations d after := by
    intro base after before rest ready busy split chain
    cases ready (steady_of_not_fails fine)
    exact .migrating (List.Subset.refl _) (.inr rfl) busy split (chain.mono fine)
  have marking : ∀ {c : Link MigrationCall (Database T)},
      Bookkept (driftedVersions ex sha256 (inOrder migrations) d) d c →
      Underway ex sha256 migrations d c.durable := by
    intro c kept
    obtain ⟨marked, sub, same⟩ := kept.durable
    rw [same]
    exact .marking sub
  obtain ⟨halt | report, c⟩ := run
  · obtain ⟨quiet, why⟩ := ends
    by_cases idle : pendingOf migrations d = []
    · exact marking (quiet idle)
    obtain ⟨prepared, -⟩ | ⟨-, base, before, rest, -, ready, split, chain, -⟩ := why
    · exact early idle prepared
    · exact inside ready idle split chain
  · obtain ⟨-, ⟨-, kept, -⟩ | ⟨busy, base, -, ready, chain⟩⟩ := ends
    · exact marking kept
    · exact inside ready busy (List.append_nil _).symm chain

theorem runOnce_ending {readings : ℕ → Reading} (distinct : Distinct migrations) :
    Ending ex sha256 migrations d
      (runOnce ex sha256 migrations (undisturbed readings) d) := by
  have ends : Ends _ _ (runAll ex sha256 migrations (undisturbed readings) (.start d)) :=
    runAll_ends
  unfold runOnce
  generalize runAll ex sha256 migrations (undisturbed readings) (.start d) = run at ends
  have fine : ¬ (undisturbed readings).Fails := by
    rintro ⟨i, kind, fails⟩
    cases fails
  have steady := steady_of_not_fails fine
  have whole : ∀ halt : Halt (Fault ε), ¬ (undisturbed readings).Excuses halt := by
    rintro (fault | - | -) excuses
    · exact fine excuses
    · cases excuses.choose_spec.choose_spec
    · cases excuses.choose_spec.choose_spec
  obtain ⟨halt | report, c⟩ := run
  · obtain ⟨-, ⟨-, why⟩ | ⟨-, base, before, rest, -, ready, split, chain, why⟩⟩ := ends
    · exact (why.resolve_left (whole halt) distinct).elim
    cases ready steady
    obtain ⟨m, later, rfl, refused⟩ := why.resolve_left (whole halt)
    right
    rw [split]
    exact ⟨List.append_ne_nil_of_right_ne_nil _ (List.cons_ne_nil _ _),
      (chain.mono fine).settles (.stuck refused)⟩
  · obtain ⟨-, ⟨idle, -, marks⟩ | ⟨busy, base, -, ready, chain⟩⟩ := ends
    · exact .inl ⟨idle, marks steady⟩
    cases ready steady
    have settles : Settles ex sha256 (legacyOf ex migrations d) (pendingOf migrations d ++ [])
      (readied ex sha256 migrations d) c.durable := (chain.mono fine).settles .nil
    rw [List.append_nil] at settles
    exact .inr ⟨busy, settles⟩

theorem runOnce_clash (clash : ¬ Distinct migrations) :
    runOnce ex sha256 migrations plan d = d := by
  have ends : Ends (fun _ c => c = .start d) (fun _ c => c = .start d)
      (runAll ex sha256 migrations plan (.start d)) := by
    refine assertUniqueVersions_ends.bind (fun _ _ here => here.1) ?_
    rintro _ c ⟨-, -, distinct⟩
    exact absurd distinct clash
  unfold runOnce
  generalize runAll ex sha256 migrations plan (.start d) = run at ends
  obtain ⟨halt | report, c⟩ := run
  · exact congrArg Link.durable ends
  · exact congrArg Link.durable ends

/-! ## Runs after runs -/

section Again

variable {versions more : List ℤ}

theorem mark_congr (same : ∀ version, version ∈ versions ↔ version ∈ more) :
    d.mark versions = d.mark more := by
  apply Database.eq_of_rows
  · rfl
  · rw [isSome_mark, isSome_mark]
  · rw [rows_mark, rows_mark]
    refine List.map_congr_left fun row _ => ?_
    simp only [VersionRow.mark, same]

@[simp] theorem recordedOf_mark : recordedOf (d.mark versions) = recordedOf d := by
  rw [recordedOf, rows_mark, List.map_map, recordedOf]
  refine List.map_congr_left fun row _ => ?_
  change ((row.mark versions).version, (row.mark versions).sqlDigest) = _
  unfold VersionRow.mark
  split <;> rfl

@[simp] theorem recordedOf_withVersionTable : recordedOf d.withVersionTable = recordedOf d := by
  rw [recordedOf, rows_withVersionTable, recordedOf]

@[simp] theorem isSome_withVersionTable : d.withVersionTable.versionTable.isSome = true := rfl

theorem withVersionTable_of_isSome (present : d.versionTable.isSome = true) :
    d.withVersionTable = d := by
  apply Database.eq_of_rows
  · rfl
  · rw [isSome_withVersionTable, present]
  · exact rows_withVersionTable

theorem mark_withVersionTable :
    d.withVersionTable.mark versions = (d.mark versions).withVersionTable := by
  apply Database.eq_of_rows
  · rfl
  · rw [isSome_mark, isSome_withVersionTable, isSome_withVersionTable]
  · rw [rows_mark, rows_withVersionTable, rows_withVersionTable, rows_mark]

theorem pendingOf_congr (same : e.versions = d.versions) :
    pendingOf migrations e = pendingOf migrations d := by
  rw [pendingOf, pendingOf, same]

theorem driftedVersions_congr (same : recordedOf e = recordedOf d) :
    driftedVersions ex sha256 migrations e = driftedVersions ex sha256 migrations d := by
  rw [driftedVersions, driftedVersions, same]

theorem legacyOf_of_isSome (present : d.versionTable.isSome = true) :
    legacyOf ex migrations d = false := by
  unfold legacyOf
  split
  · rfl
  · rw [present]
    rfl

theorem legacyOf_mark : legacyOf ex migrations (d.mark versions) = legacyOf ex migrations d := by
  unfold legacyOf
  rw [pendingOf_congr versions_mark, isSome_mark]
  rfl

theorem mark_again {marked : List ℤ} (sub : marked ⊆ versions) :
    (d.mark marked).mark versions = d.mark versions := by
  rw [mark_mark]
  refine mark_congr fun version => ?_
  rw [List.mem_append]
  exact ⟨fun listed => listed.elim (@sub _) id, .inr⟩

theorem readied_mark {marked : List ℤ}
    (sub : marked ⊆ driftedVersions ex sha256 (inOrder migrations) d) :
    readied ex sha256 migrations (d.mark marked) = readied ex sha256 migrations d := by
  rw [readied, driftedVersions_congr recordedOf_mark, mark_again sub, readied]

theorem readied_withVersionTable :
    readied ex sha256 migrations d.withVersionTable = readied ex sha256 migrations d := by
  rw [readied, driftedVersions_congr recordedOf_withVersionTable, mark_withVersionTable,
    withVersionTable_of_isSome isSome_withVersionTable, readied]

theorem pendingOf_chain {before after : List (Migration T ε)} {base : Database T}
    (distinct : Distinct migrations) (same : base.versions = d.versions)
    (split : pendingOf migrations d = before ++ after)
    (chain : Chain ex sha256 False legacy before base d') : pendingOf migrations d' = after := by
  have unique : ((before ++ after).map Migration.version).Nodup :=
    split ▸ distinct.sublist (List.Sublist.map _ List.filter_sublist)
  rw [List.map_append, List.nodup_append] at unique
  have later : pendingOf migrations d' = (pendingOf migrations d).filter
      fun m => m.version ∉ before.map Migration.version := by
    rw [pendingOf, pendingOf, List.filter_filter, chain.versions, same]
    refine List.filter_congr fun m _ => ?_
    simp only [List.mem_append, not_or, Bool.decide_and]
    exact Bool.and_comm _ _
  rw [later, split, List.filter_append]
  have gone : before.filter (fun m => decide (m.version ∉ before.map Migration.version)) = [] :=
    List.filter_eq_nil_iff.mpr fun m mem => by
      rw [decide_eq_true_eq, not_not]
      exact List.mem_map_of_mem mem
  have kept : after.filter (fun m => decide (m.version ∉ before.map Migration.version))
      = after := by
    refine List.filter_eq_self.mpr fun m mem => ?_
    rw [decide_eq_true_eq]
    exact fun there => unique.2.2 _ there _ (List.mem_map_of_mem mem) rfl
  rw [gone, kept, List.nil_append]

theorem Underway.modern (under : Underway ex sha256 migrations d d')
    (modern : legacyOf ex migrations d = false) : legacyOf ex migrations d' = false := by
  cases under with
  | marking => rw [legacyOf_mark, modern]
  | migrating _ _ _ _ chain => exact legacyOf_of_isSome (chain.isSome isSome_withVersionTable)

/-- **A later run comes to the ending of the first**, where none is taken for an old one. -/
theorem Underway.ending (under : Underway ex sha256 migrations d d')
    (distinct : Distinct migrations) (modern : legacyOf ex migrations d = false)
    (later : Ending ex sha256 migrations d' e') (first : Ending ex sha256 migrations d e) :
    e'.facts = e.facts := by
  have later_modern := under.modern modern
  cases under with
  | @marking marked sub =>
    unfold Ending at later
    rw [pendingOf_congr versions_mark, driftedVersions_congr recordedOf_mark, mark_again sub,
      legacyOf_mark, readied_mark sub] at later
    obtain ⟨idle, rfl⟩ | ⟨busy, settles⟩ := later
    · obtain ⟨-, rfl⟩ | ⟨busy, -⟩ := first
      · rfl
      · exact absurd idle busy
    · obtain ⟨idle, -⟩ | ⟨-, settles'⟩ := first
      · exact absurd idle busy
      · exact settles.facts rfl settles'
  | @migrating marked before after _ sub ready busy split chain =>
    have settles' := (first.resolve_left fun idle => busy idle.1).2
    have versions : (d.mark marked).withVersionTable.versions = d.versions :=
      versions_withVersionTable.trans versions_mark
    have present : d'.versionTable.isSome = true := chain.isSome isSome_withVersionTable
    have waiting := pendingOf_chain distinct versions split chain
    rw [modern] at chain settles'
    -- what the later run finds is ready, and it goes on from there
    suffices settles : Settles ex sha256 false (before ++ after)
        (readied ex sha256 migrations d) e' from settles.facts rfl (split ▸ settles')
    rcases ready with rfl | rfl
    · cases chain
      have settles := (later.resolve_left fun idle => busy (split.trans (waiting ▸ idle.1))).2
      rwa [later_modern, waiting, readied_withVersionTable, readied_mark sub] at settles
    · have settled : ∀ {more : List ℤ},
          more ⊆ driftedVersions ex sha256 (inOrder migrations) d' → d'.mark more = d' := by
        intro more listed
        refine chain.settled distinct (fun m mem => ?_) rows_withVersionTable listed
        exact mem_inOrder_of_pending (split ▸ List.mem_append_left after mem)
      refine chain.settles ?_
      obtain ⟨idle, rfl⟩ | ⟨-, settles⟩ := later
      · rw [← waiting, idle, settled (List.Subset.refl _)]
        exact .nil
      · rwa [later_modern, waiting, readied, settled (List.Subset.refl _),
          withVersionTable_of_isSome present] at settles

end Again

/-! ## When the law holds -/

theorem underway_refl : Underway ex sha256 migrations d d := by
  have here : Underway ex sha256 migrations d (d.mark []) := .marking (List.nil_subset _)
  rwa [mark_nil] at here

theorem Crash.not_fails (crash : Crash) : ¬ crash.plan.Fails := by
  rintro ⟨i, kind, fails⟩
  unfold Crash.plan at fails
  dsimp only at fails
  split at fails
  · cases fails
  · cases fails

theorem restartLaw_of_modern (distinct : Distinct migrations)
    (modern : legacyOf ex migrations d = false) : RestartLaw ex sha256 migrations d := by
  intro crashes readings readings'
  induction crashes generalizing d with
  | nil =>
    exact underway_refl.ending distinct modern (runOnce_ending distinct) (runOnce_ending distinct)
  | cons crash rest ih =>
    have under : Underway ex sha256 migrations d (runOnce ex sha256 migrations crash.plan d) :=
      runOnce_underway crash.not_fails
    refine (ih (under.modern modern)).trans ?_
    exact under.ending distinct modern (runOnce_ending distinct) (runOnce_ending distinct)

theorem legacyOf_eq_true (legacy : legacyOf ex migrations d = true) :
    d.versionTable = none ∧ ∃ first rest, pendingOf migrations d = first :: rest
      ∧ baselineOf ex true first d.withVersionTable = true := by
  unfold legacyOf at legacy
  split at legacy
  · cases legacy
  · next first rest pending =>
    have absent : d.versionTable = none := by
      by_contra present
      rw [Option.isSome_iff_ne_none.mpr present] at legacy
      cases legacy
    rw [absent] at legacy
    exact ⟨absent, first, rest, pending, legacy⟩

theorem Underway.nothing (under : Underway ex sha256 migrations d d')
    (empty : d.versions = []) (nothing : NothingApplies ex sha256 migrations d) :
    d' = d ∨ d' = d.withVersionTable := by
  have unmarked : ∀ {marked : List ℤ},
      marked ⊆ driftedVersions ex sha256 (inOrder migrations) d → d.mark marked = d := by
    intro marked sub
    rw [driftedVersions_of_empty empty] at sub
    rw [List.subset_nil.mp sub, mark_nil]
  cases under with
  | marking sub => exact .inl (unmarked sub)
  | migrating sub _ _ split chain =>
    rw [unmarked sub] at chain
    cases chain with
    | nil => exact .inr rfl
    | cons first =>
      obtain ⟨m, rest, pending, refused⟩ := nothing
      rw [pending] at split
      cases split
      exact absurd first (refused _ _)

theorem Ending.nothing (ending : Ending ex sha256 migrations d e) (empty : d.versions = [])
    (nothing : NothingApplies ex sha256 migrations d) : e = d.withVersionTable := by
  have ready : readied ex sha256 migrations d = d.withVersionTable := by
    rw [readied, driftedVersions_of_empty empty, mark_nil]
  obtain ⟨m, rest, pending, refused⟩ := nothing
  obtain ⟨idle, -⟩ | ⟨-, settles⟩ := ending
  · rw [pending] at idle
    cases idle
  · rw [pending, ready] at settles
    cases settles with
    | cons first => exact absurd first (refused _ _)
    | stuck => rfl

theorem NothingApplies.withVersionTable (nothing : NothingApplies ex sha256 migrations d) :
    NothingApplies ex sha256 migrations d.withVersionTable := by
  obtain ⟨m, rest, pending, refused⟩ := nothing
  refine ⟨m, rest, (pendingOf_congr versions_withVersionTable).trans pending, ?_⟩
  rwa [withVersionTable_of_isSome isSome_withVersionTable]

theorem restartLaw_of_nothing (distinct : Distinct migrations) (empty : d.versions = [])
    (nothing : NothingApplies ex sha256 migrations d) : RestartLaw ex sha256 migrations d := by
  intro crashes readings readings'
  have whole : Ending ex sha256 migrations d
    (runOnce ex sha256 migrations (undisturbed readings') d) := runOnce_ending distinct
  rw [whole.nothing empty nothing]
  suffices stays : afterCrashes ex sha256 migrations crashes d = d
      ∨ afterCrashes ex sha256 migrations crashes d = d.withVersionTable by
    rcases stays with same | same
    · rw [same, (runOnce_ending distinct).nothing empty nothing]
    · rw [same, (runOnce_ending distinct).nothing (versions_withVersionTable.trans empty)
        nothing.withVersionTable, withVersionTable_of_isSome isSome_withVersionTable]
  have fixed : ∀ rest, afterCrashes ex sha256 migrations rest d.withVersionTable
      = d.withVersionTable := by
    intro rest
    induction rest with
    | nil => rfl
    | cons crash rest ih =>
      have under : Underway ex sha256 migrations d.withVersionTable
        (runOnce ex sha256 migrations crash.plan d.withVersionTable) :=
        runOnce_underway crash.not_fails
      have there := under.nothing (versions_withVersionTable.trans empty) nothing.withVersionTable
      rw [withVersionTable_of_isSome isSome_withVersionTable, or_self] at there
      rw [afterCrashes, List.foldl_cons, there]
      exact ih
  induction crashes with
  | nil => exact .inl rfl
  | cons crash rest ih =>
    have under : Underway ex sha256 migrations d (runOnce ex sha256 migrations crash.plan d) :=
      runOnce_underway crash.not_fails
    rw [afterCrashes, List.foldl_cons]
    rcases under.nothing empty nothing with same | same
    · rw [same]
      exact ih
    · rw [same]
      exact .inr (fixed rest)

/-! ## When it does not -/

/-- A process that dies right after it has created the version table. -/
def bareCrash : Crash where
  call := 4
  readings _ := ⟨0, 0, none⟩

theorem assertUniqueVersions_of_distinct {c : Link MigrationCall (Database T)}
    (distinct : Distinct migrations) :
    (assertUniqueVersions [] (inOrder migrations) : Engine T ε Unit) plan c = (.ok (), c) := by
  have ends : Ends _ _ ((assertUniqueVersions [] (inOrder migrations) : Engine T ε Unit) plan c) :=
    assertUniqueVersions_ends
  generalize (assertUniqueVersions [] (inOrder migrations) : Engine T ε Unit) plan c = run at ends ⊢
  obtain ⟨halt | _, c⟩ := run
  · exact absurd ⟨fun _ _ => List.not_mem_nil, distinct⟩ ends.2
  · rw [ends.1]

theorem ensureVersionTable_of_fine {c : Link MigrationCall (Database T)}
    (closed : c.opened = none) (first : plan.fate c.log.length .createVersionTable = .fine)
    (second : plan.fate (c.log.length + 1) .commit = .fine) :
    ensureVersionTable ex plan c = (.ok ⟨⟩, ⟨c.durable.withVersionTable, none,
      c.log ++ [.createVersionTable] ++ [.commit]⟩) := by
  have view : c.view = c.durable := Link.view_of_opened closed
  refine (Procedure.bind_of_ok (Procedure.call_of_fine first)).trans ?_
  refine (Procedure.call_of_fine ?_).trans ?_
  · change plan.fate ((c.logged .createVersionTable).put ex.implicit _).log.length .commit = .fine
    rw [Link.put_log, Link.logged_log, List.length_append]
    exact second
  · refine Prod.ext rfl ?_
    change (((c.logged _).put ex.implicit c.view.withVersionTable).logged _).committed = _
    rw [Link.committed, Link.logged_view, Link.put_view, Link.logged_log, Link.put_log, view,
      Link.logged_log]

theorem runOnce_bareCrash (distinct : Distinct migrations)
    (legacy : legacyOf ex migrations d = true) :
    runOnce ex sha256 migrations bareCrash.plan d = d.withVersionTable := by
  obtain ⟨absent, first, rest, pending, probed⟩ := legacyOf_eq_true legacy
  have named : first.baselineProbe ≠ "" := by
    intro unnamed
    rw [baselineOf, unnamed] at probed
    cases probed
  unfold runOnce runAll
  rw [Procedure.bind_of_ok (assertUniqueVersions_of_distinct distinct)]
  obtain ⟨tables, table⟩ := d
  cases absent
  rw [Procedure.bind_of_ok (show versionTableExists ex bareCrash.plan _ = (.ok false, _) from rfl),
    Procedure.bind_of_ok (show appliedVersions ex bareCrash.plan _ = (.ok [], _) from rfl),
    Procedure.bind_of_ok (show warnDigestDrift ex sha256 (inOrder migrations) [] bareCrash.plan _
      = (.ok 0, _) from rfl)]
  dsimp only
  rw [show (inOrder migrations).filter (fun m => m.version ∉ []) = first :: rest from pending]
  dsimp only
  rw [Procedure.bind_of_ok (show backupSqlite bareCrash.plan _ = (.ok "", _) from rfl),
    Procedure.bind_of_ok (ensureVersionTable_of_fine rfl rfl rfl)]
  have asked : (!false && decide (first.baselineProbe ≠ "")) = true := by
    rw [Bool.not_false, Bool.true_and, decide_eq_true named]
  have dies : ∀ c : Link MigrationCall (Database T), c.log.length = 4 →
      probes ex (!false) first bareCrash.plan c = (.error .killed, c.logged .select) := by
    intro c fifth
    unfold probes
    rw [if_pos asked]
    refine Procedure.call_of_killed ?_
    rw [fifth]
    rfl
  rw [Procedure.bind_of_error (dies _ rfl)]
  rfl

theorem Settles.rows_ne_nil {m : Migration T ε} {rest : List (Migration T ε)}
    {d₁ d₂ : Database T} {baseline : Bool} (first : Effect ex sha256 False m baseline d d₁)
    (later : Settles ex sha256 legacy rest d₁ d₂) :
    ∃ now added, d₂.rows = d.rows ++ versionRow ex sha256 m baseline now :: added := by
  obtain ⟨row, ⟨now, rfl⟩, here, -⟩ := first.rows
  obtain ⟨added, rows⟩ := later.rows
  exact ⟨now, added, by rw [rows, here, List.append_assoc, List.singleton_append]⟩

/-- **What a crash after the first commit shows**: where the law holds of an old database, nothing
applies. -/
theorem nothingApplies_of_restartLaw (law : RestartLaw ex sha256 migrations d)
    (distinct : Distinct migrations) (legacy : legacyOf ex migrations d = true) :
    NothingApplies ex sha256 migrations d := by
  obtain ⟨absent, first, rest, pending, probed⟩ := legacyOf_eq_true legacy
  have empty : d.rows = [] := by rw [Database.rows, absent]; rfl
  have versions : d.versions = [] := by rw [Database.versions, empty]; rfl
  have unmarked : readied ex sha256 migrations d = d.withVersionTable := by
    rw [readied, driftedVersions_of_empty versions, mark_nil]
  let quiet : ℕ → Reading := fun _ => ⟨0, 0, none⟩
  have same := law [bareCrash] quiet quiet
  rw [afterCrashes, List.foldl_cons, List.foldl_nil, runOnce_bareCrash distinct legacy] at same
  have whole : Ending ex sha256 migrations d
    (runOnce ex sha256 migrations (undisturbed quiet) d) := runOnce_ending distinct
  have late : Ending ex sha256 migrations d.withVersionTable
    (runOnce ex sha256 migrations (undisturbed quiet) d.withVersionTable) := runOnce_ending distinct
  generalize runOnce ex sha256 migrations (undisturbed quiet) d = e at same whole
  generalize runOnce ex sha256 migrations (undisturbed quiet) d.withVersionTable = e' at same late
  have busy : pendingOf migrations d ≠ [] := by rw [pending]; exact List.cons_ne_nil _ _
  have settles := (whole.resolve_left fun idle => busy idle.1).2
  have settles' := (late.resolve_left fun idle =>
    busy ((pendingOf_congr versions_withVersionTable).symm.trans idle.1)).2
  rw [unmarked, pending, legacy] at settles
  rw [readied_withVersionTable, unmarked, pendingOf_congr versions_withVersionTable, pending,
    legacyOf_of_isSome isSome_withVersionTable] at settles'
  have rows : e'.rows.map (fun row => (row.version, row.name, row.sqlDigest, row.status))
      = e.rows.map fun row => (row.version, row.name, row.sqlDigest, row.status) :=
    congrArg (·.2.2) same
  refine ⟨first, rest, pending, ?_⟩
  cases settles with
  | cons effect later =>
    obtain ⟨now, added, there⟩ := later.rows_ne_nil effect
    rw [there, rows_withVersionTable, empty, List.nil_append, List.map_cons] at rows
    cases settles' with
    | cons effect' later' =>
      obtain ⟨now', added', there'⟩ := later'.rows_ne_nil effect'
      rw [there', rows_withVersionTable, empty, List.nil_append, List.map_cons, probed] at rows
      -- the same migration, once in full and once as a baseline
      have status : statusApplied = statusBaselined :=
        congrArg (fun row => row.2.2.2) (List.cons.inj rows).1
      exact absurd status (by decide)
    | stuck refused =>
      rw [rows_withVersionTable, empty] at rows
      cases rows
  | stuck refused =>
    cases settles' with
    | cons effect' later' =>
      obtain ⟨now', added', there'⟩ := later'.rows_ne_nil effect'
      rw [there', rows_withVersionTable, empty] at rows
      cases rows
    | stuck refused' =>
      rw [probed] at refused
      intro baseline
      cases baseline with
      | false => exact refused'
      | true => exact refused

/-- **When crashes leave no trace**: the database is not taken for an old one, or the first
migration of it cannot be carried out either way, or two migrations have one version and no run
does anything. -/
theorem restartLaw_iff : RestartLaw ex sha256 migrations d
    ↔ (Distinct migrations → legacyOf ex migrations d = true →
      NothingApplies ex sha256 migrations d) := by
  constructor
  · exact nothingApplies_of_restartLaw
  intro nothing
  by_cases distinct : Distinct migrations
  · by_cases legacy : legacyOf ex migrations d = true
    · refine restartLaw_of_nothing distinct ?_ (nothing distinct legacy)
      rw [Database.versions, Database.rows, (legacyOf_eq_true legacy).1]
      rfl
    · exact restartLaw_of_modern distinct (Bool.eq_false_iff.mpr legacy)
  · intro crashes readings readings'
    suffices stays : afterCrashes ex sha256 migrations crashes d = d by
      rw [stays, runOnce_clash distinct, runOnce_clash distinct]
    induction crashes with
    | nil => rfl
    | cons crash rest ih =>
      rw [afterCrashes, List.foldl_cons, runOnce_clash distinct]
      exact ih

/-! ### An old database -/

/-- Tables by their names; `CREATE TABLE` is all that is executed. -/
def namesExecutor : Executor (List String) String where
  dialect := "sqlite"
  execute sql tables :=
    if sql ∈ tables then .error "table already exists" else .ok (tables ++ [sql])
  isIgnorable _ := false
  hasTable tables table := table ∈ tables
  implicit := false

/-- A migration that creates two tables, and creates neither where the first is there. -/
def twoTables : Migration (List String) String where
  version := 1
  name := "baseline"
  sqliteSql := ["models", "config"]
  mysqlSql := []
  sqliteBaselineSql := []
  mysqlBaselineSql := []
  hook := none
  runHookOnBaseline := false
  baselineProbe := "models"

/-- An old database with the first of them. -/
def oldDatabase : Database (List String) := ⟨["models"], none⟩

/-- A crash between the version table and the migration makes the next run fail for good. -/
theorem oldDatabase_lost : ¬ RestartLaw namesExecutor id [twoTables] oldDatabase := by
  intro law
  have ordered : inOrder [twoTables] = [twoTables] := List.mergeSort_singleton _
  have distinct : Distinct [twoTables] := by
    rw [Distinct, ordered]
    exact List.nodup_singleton _
  have pending : pendingOf [twoTables] oldDatabase = [twoTables] := by
    rw [pendingOf, ordered]
    rfl
  have legacy : legacyOf namesExecutor [twoTables] oldDatabase = true := by
    rw [legacyOf, pending]
    rfl
  obtain ⟨first, rest, split, refused⟩ := nothingApplies_of_restartLaw law distinct legacy
  rw [pending] at split
  cases split
  exact refused true _ ⟨["models"], ["models"], ⟨0, 0, none⟩, rfl, rfl, rfl⟩

end Zhongzhuan.Store.MigrationEngine
