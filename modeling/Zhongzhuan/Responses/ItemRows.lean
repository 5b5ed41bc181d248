import Zhongzhuan.Responses.JobEnd

/-!
# The two copies of a background output

A terminal handler writes the output of a run twice: row by row into
`response_output_items`, and as a whole into the column `responses.output`.  The rows of an
earlier run are overwritten and never deleted.

* An `Episode` is what a worker does to the response: a run, the expiry of the job, or the
  reaping of one that burned its attempts.  A history is a list of episodes, each cut where
  its worker died.
* `Agrees` is the claim about the two copies.
* `Fits` is what a write of a terminal status needs: no more rows than the output it leaves.
  `history_agrees_iff`: the copies agree throughout a history exactly when every such write
  fits.
-/

namespace Zhongzhuan.Responses

open Kit Store

/-! ## Histories -/

/-- What a worker does to the response. -/
inductive Episode
  | run (env : JobEnv) (input : JobInput)
  | expiry (responseId : String)
  | reaping

/-- The writes of an episode. -/
def Episode.calls : Episode → List StoreCall
  | .run env input => (runJob env input).2
  | .expiry responseId => .markTerminal .expired :: finalizeExpired responseId
  | .reaping => .markTerminal .failed :: failExhausted

/-- The writes of a history: each episode up to the write its worker died after. -/
def historyCalls (history : List (Episode × ℕ)) : List StoreCall :=
  history.flatMap fun entry => entry.1.calls.take entry.2

/-- **The rows read back are the items of the output column** while the response has a
terminal status. -/
def Agrees (rows : StoredResponse) : Prop :=
  rows.status.terminal = true → rows.items = rows.output

/-- A write of a terminal status finds no more rows than the output it leaves has items. -/
def Fits (rows : StoredResponse) : StoreCall → Prop
  | .updateStatus update =>
    update.status.terminal = true → rows.items.length ≤ (update.output.getD []).length
  | .failResponse _ => rows.items.length ≤ rows.output.length
  | _ => True

/-! ## Inside an episode -/

/-- Between two episodes: the copies agree, or the output has been cleared. -/
structure Aligned (rows : StoredResponse) : Prop where
  agrees : Agrees rows
  cleared : rows.status.terminal = false → rows.output = []

/-- The response is not finished and its output is clear. -/
structure Unfinished (rows : StoredResponse) : Prop where
  status : rows.status.terminal = false
  output : rows.output = []

variable {rows : StoredResponse}

theorem Unfinished.aligned (h : Unfinished rows) : Aligned rows where
  agrees := fun terminal => absurd terminal (by simp [h.status])
  cleared := fun _ => h.output

/-- The writes that touch neither the status nor the output of the response. -/
def StoreCall.isRow : StoreCall → Bool
  | .appendEvent _ | .saveOutputItem _ _ => true
  | _ => false

theorem Unfinished.execute {calls : List StoreCall} (h : Unfinished rows)
    (quiet : ∀ call ∈ calls, call.isRow = true) : Unfinished (rows.execute calls) := by
  induction calls generalizing rows with
  | nil => exact h
  | cons call rest ih =>
      obtain ⟨here, later⟩ := List.forall_mem_cons.mp quiet
      refine ih ?_ later
      cases call with
      | appendEvent event | saveOutputItem seq item => exact ⟨h.status, h.output⟩
      | updateStatus update | markTerminal status | failResponse reason => cases here

/-- The writes that touch no copy of the output. -/
def StoreCall.isAside : StoreCall → Bool
  | .appendEvent _ | .markTerminal _ => true
  | _ => false

theorem Aligned.aside {calls : List StoreCall} (h : Aligned rows)
    (aside : ∀ call ∈ calls, call.isAside = true) : Aligned (rows.execute calls) := by
  induction calls generalizing rows with
  | nil => exact h
  | cons call rest ih =>
      obtain ⟨here, later⟩ := List.forall_mem_cons.mp aside
      refine ih ?_ later
      cases call with
      | appendEvent event | markTerminal status => exact ⟨h.agrees, h.cleared⟩
      | updateStatus update | saveOutputItem seq item | failResponse reason => cases here

theorem Aligned.take_aside {calls : List StoreCall} (h : Aligned rows)
    (aside : ∀ call ∈ calls, call.isAside = true) (n : ℕ) :
    Aligned (rows.execute (calls.take n)) :=
  h.aside fun call mem => aside call (List.mem_of_mem_take mem)

theorem appendAll_isRow (events : List Event) : ∀ call ∈ appendAll events, call.isRow = true := by
  intro call mem
  obtain ⟨event, _, rfl⟩ := List.mem_map.mp mem
  rfl

theorem saveOutputItems_isRow (items : List Fields) :
    ∀ call ∈ saveOutputItems items, call.isRow = true := by
  intro call mem
  obtain ⟨seq, _, rfl⟩ := List.mem_mapIdx.mp mem
  rfl

theorem JobTerminal.update_status (terminal : JobTerminal) (items : List Fields) :
    (terminal.update items).status.terminal = true
      ∧ (terminal.update items).output = some items := by
  cases terminal <;> exact ⟨rfl, rfl⟩

/-- The last three writes of a handler. -/
def JobTerminal.writes (terminal : JobTerminal) (responseId : String) (items : List Fields) :
    List StoreCall :=
  [.updateStatus (terminal.update items), .appendEvent (terminal.event responseId items),
    .markTerminal terminal.status]

theorem Aligned.writes (h : Aligned rows) {terminal : JobTerminal} {responseId : String}
    {items stale : List Fields} (saved : rows.items = items ++ stale) (n : ℕ)
    (fits : Along StoredResponse.perform Fits rows
      ((terminal.writes responseId items).take n)) :
    Aligned (rows.execute ((terminal.writes responseId items).take n)) := by
  obtain ⟨isTerminal, output⟩ := terminal.update_status items
  cases n with
  | zero => exact h
  | succ n =>
      have short : rows.items.length ≤ items.length := by
        have here := fits.1 isTerminal
        rwa [output] at here
      have same : rows.items = items := by
        rw [saved, List.length_append] at short
        have none : stale = [] := List.eq_nil_of_length_eq_zero (by omega)
        rw [saved, none, List.append_nil]
      have ended : Aligned (rows.perform (.updateStatus (terminal.update items))) :=
        ⟨fun _ => by simp [StoredResponse.perform, output, same],
          fun unfinished => absurd isTerminal (by simp_all [StoredResponse.perform])⟩
      -- what is left of the three writes concerns the log and the job
      exact ended.take_aside (by simp [StoreCall.isAside]) n

theorem take_append_cases (first second : List StoreCall) (n : ℕ) :
    (first ++ second).take n = first.take n
      ∨ ∃ m, (first ++ second).take n = first ++ second.take m := by
  rw [List.take_append]
  rcases Nat.le_total first.length n with past | before
  · exact .inr ⟨n - first.length, by rw [List.take_of_length_le past]⟩
  · exact .inl (by rw [Nat.sub_eq_zero_of_le before, List.take_zero, List.append_nil])

theorem Aligned.run (h : Aligned rows) (env : JobEnv) (input : JobInput) (n : ℕ)
    (fits : Along StoredResponse.perform Fits rows ((runJob env input).2.take n)) :
    Aligned (rows.execute ((runJob env input).2.take n)) := by
  cases early : input.cancelledEarly with
  | true =>
      rw [runJob_cancelledEarly env early] at fits ⊢
      exact h.writes (List.nil_append _).symm n fits
  | false =>
      obtain ⟨calls, script, done⟩ := runJob_concluded env early
      rw [script] at fits ⊢
      generalize (runJob env input).1 = status at done
      obtain ⟨_, terminal, items⟩ := done
      rename_i events _
      cases n with
      | zero => exact h
      | succ n =>
          -- the status is in progress until the handler writes its own
          obtain ⟨_, fits⟩ := fits
          have started : Unfinished (rows.perform (.updateStatus { status := .inProgress })) :=
            ⟨rfl, rfl⟩
          let before := appendAll (openingEvents env.responseId) ++ appendAll events
          have quiet : ∀ call ∈ before ++ saveOutputItems items, call.isRow = true := by
            intro call mem
            simp only [before, List.mem_append] at mem
            rcases mem with (opening | item) | saved
            · exact appendAll_isRow _ call opening
            · exact appendAll_isRow _ call item
            · exact saveOutputItems_isRow _ call saved
          have split : appendAll (openingEvents env.responseId)
              ++ (appendAll events ++ terminal.calls env.responseId items)
              = before ++ saveOutputItems items ++ terminal.writes env.responseId items := by
            simp [before, JobTerminal.calls, JobTerminal.writes]
          show Aligned ((rows.perform _).execute (List.take n _))
          change Along _ _ _ (List.take n _) at fits
          rw [List.append_eq, split] at fits ⊢
          rcases take_append_cases (before ++ saveOutputItems items)
            (terminal.writes env.responseId items) n with cut | ⟨m, cut⟩
          · rw [cut]
            exact (started.execute fun call mem => quiet call (List.mem_of_mem_take mem)).aligned
          · rw [cut] at fits ⊢
            rw [along_append] at fits
            rw [StoredResponse.execute_append]
            have saved := StoredResponse.execute_saveOutputItems
              ((rows.perform (.updateStatus { status := .inProgress })).execute before) items
            rw [← StoredResponse.execute_append] at saved
            exact (started.execute quiet).aligned.writes
              (congrArg StoredResponse.items saved) m fits.2

theorem Aligned.expiry (h : Aligned rows) (responseId : String) (n : ℕ)
    (fits : Along StoredResponse.perform Fits rows
      ((finalizeExpired responseId).take n)) :
    Aligned (rows.execute ((finalizeExpired responseId).take n)) := by
  cases n with
  | zero => exact h
  | succ n =>
      have empty : rows.items = [] :=
        List.eq_nil_of_length_eq_zero (Nat.le_zero.mp (fits.1 rfl))
      have cleared : Aligned (rows.perform
          (.updateStatus { status := .expired, terminalReason := "expired" })) :=
        ⟨fun _ => empty, fun _ => rfl⟩
      exact cleared.take_aside (by simp [StoreCall.isAside]) n

theorem Aligned.reaping (h : Aligned rows) (n : ℕ)
    (fits : Along StoredResponse.perform Fits rows (failExhausted.take n)) :
    Aligned (rows.execute (failExhausted.take n)) := by
  cases n with
  | zero => exact h
  | succ n =>
      have short : rows.items.length ≤ rows.output.length := fits.1
      have same : rows.items = rows.output := by
        cases ended : rows.status.terminal with
        | true => exact h.agrees ended
        | false =>
            rw [h.cleared ended] at short ⊢
            exact List.eq_nil_of_length_eq_zero (Nat.le_zero.mp short)
      have failed : Aligned (rows.perform (.failResponse "recovery_exhausted")) :=
        ⟨fun _ => same, nofun⟩
      show Aligned ((rows.perform _).execute (List.take n []))
      rw [List.take_nil]
      exact failed

theorem Aligned.episode (h : Aligned rows) (episode : Episode) (n : ℕ)
    (fits : Along StoredResponse.perform Fits rows (episode.calls.take n)) :
    Aligned (rows.execute (episode.calls.take n)) := by
  have marked : ∀ status, Aligned (rows.perform (.markTerminal status)) := fun _ =>
    ⟨h.agrees, h.cleared⟩
  cases episode with
  | run env input => exact h.run env input n fits
  | expiry responseId =>
      cases n with
      | zero => exact h
      | succ n => exact (marked .expired).expiry responseId n fits.2
  | reaping =>
      cases n with
      | zero => exact h
      | succ n => exact (marked .failed).reaping n fits.2

/-! ## Over a history -/

theorem Aligned.history (h : Aligned rows) {history : List (Episode × ℕ)}
    (fits : Along StoredResponse.perform Fits rows (historyCalls history)) :
    Aligned (rows.execute (historyCalls history)) := by
  induction history generalizing rows with
  | nil => exact h
  | cons entry rest ih =>
      have split : historyCalls (entry :: rest)
          = entry.1.calls.take entry.2 ++ historyCalls rest := rfl
      rw [split] at fits ⊢
      rw [along_append] at fits
      rw [StoredResponse.execute_append]
      exact ih (h.episode entry.1 entry.2 fits.1) fits.2

theorem historyCalls_take (history : List (Episode × ℕ)) (n : ℕ) :
    ∃ shorter, historyCalls shorter = (historyCalls history).take n := by
  induction history generalizing n with
  | nil => exact ⟨[], by simp [historyCalls]⟩
  | cons entry rest ih =>
      obtain ⟨shorter, same⟩ := ih (n - (entry.1.calls.take entry.2).length)
      refine ⟨(entry.1, min n entry.2) :: shorter, ?_⟩
      show entry.1.calls.take (min n entry.2) ++ historyCalls shorter
        = (entry.1.calls.take entry.2 ++ historyCalls rest).take n
      rw [same, List.take_append, List.take_take]

theorem enqueued_aligned (responseId : String) : Aligned (.enqueued responseId) where
  agrees := nofun
  cleared := fun _ => rfl

theorem fits_of_agrees {call : StoreCall} (agrees : Agrees (rows.perform call)) :
    Fits rows call := by
  cases call with
  | updateStatus update =>
      intro terminal
      have same : rows.items = update.output.getD [] := agrees terminal
      rw [same]
  | failResponse reason =>
      have same : rows.items = rows.output := agrees rfl
      show rows.items.length ≤ rows.output.length
      rw [same]
  | appendEvent event | saveOutputItem seq item | markTerminal status => trivial

theorem along_fits_of_agrees {calls : List StoreCall}
    (agrees : ∀ n, Agrees (rows.execute (calls.take n))) :
    Along StoredResponse.perform Fits rows calls := by
  induction calls generalizing rows with
  | nil => trivial
  | cons call rest ih => exact ⟨fits_of_agrees (agrees 1), ih fun n => agrees (n + 1)⟩

/-- **When the two copies of the output agree**: throughout a history of runs, crashes,
recoveries, expiry and reaping, the rows are the items of the output column in every state
with a terminal status, exactly when every write of a terminal status fits. -/
theorem history_agrees_iff (responseId : String) (history : List (Episode × ℕ)) :
    (∀ n, Agrees ((StoredResponse.enqueued responseId).execute ((historyCalls history).take n)))
      ↔ Along StoredResponse.perform Fits (.enqueued responseId) (historyCalls history) := by
  refine ⟨along_fits_of_agrees, fun fits n => ?_⟩
  obtain ⟨shorter, cut⟩ := historyCalls_take history n
  have before : Along StoredResponse.perform Fits (.enqueued responseId)
      (historyCalls shorter) := by
    rw [← List.take_append_drop n (historyCalls history), along_append] at fits
    rw [cut]
    exact fits.1
  rw [← cut]
  exact ((enqueued_aligned responseId).history before).agrees

/-! ## A shorter recovery -/

/-- A run that says one word. -/
def spokenInput : JobInput where
  turns := [⟨0, .unified (.text "a")⟩, ⟨0, .unified .finish⟩]
  ending := .eof 1 false

/-- A run that says nothing. -/
def silentInput : JobInput where
  turns := [⟨0, .unified .finish⟩]
  ending := .eof 1 false

theorem spokenInput_calls :
    (runJob plainJobEnv spokenInput).2
      = openingCalls "r" ++ appendAll (streamOf plainJobEnv spokenInput).emitted
        ++ (appendAll ((streamOf plainJobEnv spokenInput).run.closeOpenItems plainJobEnv
              false).emitted
          ++ (JobTerminal.completed 1).calls "r"
            [(streamOf plainJobEnv spokenInput).run.messageItem plainJobEnv false]) := by
  have handler : (streamOf plainJobEnv spokenInput).terminal plainJobEnv spokenInput.ending
      = .completed 1 := by
    decide +kernel
  have single : ((streamOf plainJobEnv spokenInput).run.closeOpenItems plainJobEnv
      false).run.collectedItems plainJobEnv false
      = [(0, (streamOf plainJobEnv spokenInput).run.messageItem plainJobEnv false)] := by
    decide +kernel
  have items := JobRun.outputItems_of_single plainJobEnv single
  rw [runJob_of_sound plainJobEnv rfl handler rfl (by decide +kernel)]
  rw [show JobTerminal.incomplete _ = false from rfl, items]
  rfl

theorem silentInput_calls :
    (runJob plainJobEnv silentInput).2
      = openingCalls "r" ++ (JobTerminal.completed 0).calls "r" [] := by
  have handler : (streamOf plainJobEnv silentInput).terminal plainJobEnv silentInput.ending
      = .completed 0 := by
    decide +kernel
  have none : ((streamOf plainJobEnv silentInput).run.closeOpenItems plainJobEnv
      false).run.collectedItems plainJobEnv false = [] := by
    decide +kernel
  have items := JobRun.outputItems_of_nil plainJobEnv none
  rw [runJob_of_sound plainJobEnv rfl handler rfl (by decide +kernel)]
  rw [show JobTerminal.incomplete _ = false from rfl, items]
  rfl

/-- The first run dies before it has marked its job, and the recovery has nothing to say: its
output is empty, and the row of the first run is still there. -/
theorem silentRecovery_disagrees :
    ¬ ∀ (responseId : String) (env : JobEnv) (first recovery : JobInput) (n m : ℕ),
      Agrees ((StoredResponse.enqueued responseId).execute
        (historyCalls [(.run env first, n), (.run env recovery, m)])) := by
  intro all
  have agrees := all "r" plainJobEnv spokenInput silentInput 9 6
  have calls : historyCalls [(.run plainJobEnv spokenInput, 9), (.run plainJobEnv silentInput, 6)]
      = (runJob plainJobEnv spokenInput).2.take 9
        ++ ((runJob plainJobEnv silentInput).2.take 6 ++ []) := rfl
  rw [calls, spokenInput_calls, silentInput_calls] at agrees
  revert agrees
  unfold Agrees
  decide +kernel

end Zhongzhuan.Responses
