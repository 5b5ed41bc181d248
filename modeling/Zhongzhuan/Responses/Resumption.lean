import Zhongzhuan.Responses.Catchup
import Zhongzhuan.Store.AppendRace

/-!
# A reader that comes back

The log of a response grows while its readers leave and come back.  `lastSeq` is `last_seq` of
`responses_v3/catchup.py`: where a reader that has read everything goes on.  Whatever calls of
`append_event` run meanwhile, it misses no event and reads none twice: `replay_resumes`.
-/

namespace Zhongzhuan.Store

open Kit

/-- `last_seq`. -/
def lastSeq (responseId : String) (rows : List EventRow) : ℤ :=
  ((readEvents responseId (-1) rows).getLast?.map EventRow.seq).getD (-1)

variable {responseId : String} {rows more : List EventRow}

namespace Numbered

theorem rising (numbered : Numbered responseId rows) :
    (rows.filter (·.responseId = responseId)).Pairwise fun row row' => row.seq < row'.seq := by
  have numbers : (seqsOf responseId rows).Pairwise (· < ·) := by
    unfold Numbered at numbered
    rw [numbered]
    exact List.pairwise_map.mpr (List.pairwise_lt_range.imp fun low => by omega)
  exact List.pairwise_map.mp numbers

/-- The rows of a response are in the order in which they are read. -/
theorem readEvents_eq (numbered : Numbered responseId rows) (k : ℤ) :
    readEvents responseId k rows
      = (rows.filter (·.responseId = responseId)).filter (k < ·.seq) := by
  have sorted : ((rows.filter (·.responseId = responseId)).filter (k < ·.seq)).Pairwise
      fun row row' => decide (row.seq ≤ row'.seq) = true :=
    (numbered.rising.sublist List.filter_sublist).imp fun low => decide_eq_true low.le
  have both : rows.filter (fun row => row.responseId = responseId ∧ k < row.seq)
      = (rows.filter (·.responseId = responseId)).filter (k < ·.seq) := by
    rw [List.filter_filter]
    exact List.filter_congr fun row _ => by simp [Bool.and_comm]
  rw [readEvents, both, List.mergeSort_of_pairwise sorted]

/-- What is read last stands between the rows there are and those that come. -/
theorem lastSeq_between (earlier : Numbered responseId rows)
    (numbered : Numbered responseId (rows ++ more)) :
    (∀ row ∈ rows.filter (·.responseId = responseId), row.seq ≤ lastSeq responseId rows)
      ∧ ∀ row ∈ more.filter (·.responseId = responseId), lastSeq responseId rows < row.seq := by
  have positive : ∀ row ∈ (rows ++ more).filter (·.responseId = responseId), 0 < row.seq :=
    fun row mem => by
      have low := (numbered.mem_iff.mp (List.mem_map_of_mem mem)).1
      omega
  have rising := numbered.rising
  rw [List.filter_append] at positive rising
  obtain ⟨within, -, across⟩ := List.pairwise_append.mp rising
  have all : readEvents responseId (-1) rows = rows.filter (·.responseId = responseId) := by
    rw [earlier.readEvents_eq, List.filter_eq_self]
    intro row mem
    have low := positive row (List.mem_append_left _ mem)
    simp only [decide_eq_true_eq]
    omega
  unfold lastSeq
  rw [all]
  rcases List.eq_nil_or_concat (rows.filter (·.responseId = responseId)) with
    empty | ⟨init, last, split⟩
  · rw [empty] at positive ⊢
    refine ⟨fun row mem => absurd mem List.not_mem_nil, fun row mem => ?_⟩
    have low := positive row mem
    show (-1 : ℤ) < row.seq
    omega
  · rw [split, List.concat_eq_append] at within across ⊢
    simp only [List.getLast?_concat, Option.map_some, Option.getD_some]
    refine ⟨fun row mem => ?_, fun row mem => across last (by simp) row mem⟩
    rcases List.mem_append.mp mem with before | same
    · exact ((List.pairwise_append.mp within).2.2 row before last List.mem_cons_self).le
    · rw [List.mem_singleton.mp same]

theorem readEvents_append (earlier : Numbered responseId rows)
    (numbered : Numbered responseId (rows ++ more)) (k : ℤ) :
    readEvents responseId k (rows ++ more) = readEvents responseId k rows
      ++ readEvents responseId (max k (lastSeq responseId rows)) (rows ++ more) := by
  obtain ⟨there, coming⟩ := earlier.lastSeq_between numbered
  have read : (rows.filter (·.responseId = responseId)).filter
      (max k (lastSeq responseId rows) < ·.seq) = [] := by
    refine List.filter_eq_nil_iff.mpr fun row mem => ?_
    have below := there row mem
    simp only [decide_eq_true_eq]
    omega
  have unread : (more.filter (·.responseId = responseId)).filter
      (max k (lastSeq responseId rows) < ·.seq)
      = (more.filter (·.responseId = responseId)).filter (k < ·.seq) := by
    refine List.filter_congr fun row mem => ?_
    have above := coming row mem
    simp only [decide_eq_decide]
    omega
  rw [numbered.readEvents_eq, numbered.readEvents_eq, earlier.readEvents_eq, List.filter_append,
    List.filter_append, List.filter_append, read, unread, List.nil_append]

end Numbered

namespace AppendState

variable {ω ι : Type} [DecidableEq ω] [DecidableEq ι] (calls : ι → AppendCall ω)

/-- A step inserts at most one row, behind the others. -/
theorem step_rows (s : AppendState ω ι) (a : AppendStep ι) :
    ∃ more, (s.step calls a).rows = s.rows ++ more := by
  have kept : ∃ more, s.rows = s.rows ++ more := ⟨[], (List.append_nil _).symm⟩
  cases a with
  | insert c ts | arrive c ts =>
    simp only [step]
    split
    case h_2 _ => exact kept
    case h_1 seq phase =>
      split
      case h_2 refused => exact kept
      case h_1 rows inserted => exact ⟨_, (insertRow_eq_some inserted).2⟩
  | _ c =>
    simp only [step]
    split <;> exact kept

theorem runSchedule_rows (s : AppendState ω ι) (sched : List (AppendStep ι)) :
    ∃ more, (runSchedule (step calls) s sched).rows = s.rows ++ more := by
  refine runSchedule_invariant (fun s' : AppendState ω ι => ∃ more, s'.rows = s.rows ++ more)
    (fun s' a grown => ?_) ⟨[], (List.append_nil _).symm⟩ sched
  obtain ⟨more, grown⟩ := grown
  obtain ⟨row, one⟩ := step_rows calls s' a
  exact ⟨more ++ row, by rw [one, grown, List.append_assoc]⟩

/-- The log after these steps. -/
def logAfter (rows : List EventRow) (sched : List (AppendStep ι)) : List EventRow :=
  (runSchedule (step calls) (start rows) sched).rows

variable {responseId : String} (rows : List EventRow)

theorem numbered_logAfter {rows : List EventRow} (fresh : seqsOf responseId rows = [])
    (sched : List (AppendStep ι)) :
    Numbered responseId (logAfter calls rows sched) :=
  (runSchedule_invariant (Orderly calls responseId) (fun _ a o => orderly_step o a)
    (orderly_start fresh) sched).numbered

/-- The log only grows. -/
theorem logAfter_append (before after : List (AppendStep ι)) :
    ∃ more, logAfter calls rows (before ++ after) = logAfter calls rows before ++ more := by
  unfold logAfter
  rw [runSchedule_append]
  exact runSchedule_rows calls _ after

end AppendState

end Zhongzhuan.Store

namespace Zhongzhuan.Responses

open Kit Store Store.AppendState

/-- **A reader that comes back misses nothing and reads nothing twice**: what it is replayed after
event `k` at the end is what it would have been replayed earlier, and then what it is replayed
after the last event of that time. -/
theorem replay_resumes {ω ι : Type} [DecidableEq ω] [DecidableEq ι] (loads : String → Loaded)
    (calls : ι → AppendCall ω) (responseId : String) (rows : List EventRow)
    (fresh : seqsOf responseId rows = []) (before after : List (AppendStep ι)) (k : ℤ) :
    replay loads responseId k (logAfter calls rows (before ++ after))
      = (replay loads responseId k (logAfter calls rows before)).bind fun seen =>
        (replay loads responseId (max k (lastSeq responseId (logAfter calls rows before)))
          (logAfter calls rows (before ++ after))).map (seen ++ ·) := by
  have earlier := numbered_logAfter calls fresh before
  have whole := numbered_logAfter calls fresh (before ++ after)
  obtain ⟨more, grown⟩ := logAfter_append calls rows before after
  rw [grown] at whole ⊢
  unfold replay
  rw [earlier.readEvents_append whole k, List.mapM_append]
  simp only [Option.map_eq_bind]
  rfl

/-- A call from its beginning to its end. -/
def wholeCall (c : Bool) : List (AppendStep Bool) := [.enter c, .acquire c, .select c, .insert c 0]

theorem replay_resumes_calls :
    replay (fun _ => .value (.obj [])) "resp_1" 0
        (logAfter oneLog [] (wholeCall false ++ wholeCall true))
      = (replay (fun _ => .value (.obj [])) "resp_1" 0 (logAfter oneLog [] (wholeCall false))).bind
        fun seen => (replay (fun _ => .value (.obj [])) "resp_1"
          (max 0 (lastSeq "resp_1" (logAfter oneLog [] (wholeCall false))))
          (logAfter oneLog [] (wholeCall false ++ wholeCall true))).map (seen ++ ·) :=
  replay_resumes _ oneLog "resp_1" [] rfl (wholeCall false) (wholeCall true) 0

end Zhongzhuan.Responses
