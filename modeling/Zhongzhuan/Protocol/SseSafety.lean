import Zhongzhuan.Protocol.SseBlock
import Zhongzhuan.Protocol.SseDelivery

/-!
# When the parser raises

The docstring of the parser promises that malformed input is counted and never raises.
Two statements can raise all the same: `int(value)` on a `retry` value longer than
CPython converts, and `json.loads` on data it answers with something other than a
`ValueError`.  An exception leaves the lines of the call in the buffer, so the next call
reads them again.

* `Raises` names the deliveries that raise, in the state they meet.
* `feed_flush_safe_iff`: over every run of calls, all of them return and no line is
  handed to `_consume_line` twice exactly when no delivery raises.
-/

namespace Zhongzhuan.Protocol.Sse

open Kit

/-- The deliveries that raise: a `retry` line of too many digits that is read, and the
end of a block whose data makes `json.loads` raise. -/
inductive Raises (c : Config) (s : BlockState) : Delivery → Prop
  | retry {l : Line} (reading : s.skipBlock = false) (field : l.text ≠ [])
      (small : (s.rawBlock ++ l.raw).length ≤ c.maxEventBytes)
      (long : fieldOf l.text = .longRetry) : Raises c s (.line l)
  | json {l : Line} (reading : s.skipBlock = false) (blank : l.text = [])
      (due : dispatches c s.dataParts s.event s.id s.retry = true)
      (data : probeData c s.dataParts = .raises) : Raises c s (.line l)
  | jsonAtEnd (reading : s.skipBlock = false)
      (due : dispatches c s.dataParts s.event s.id s.retry = true)
      (data : probeData c s.dataParts = .raises) : Raises c s .finish

namespace BlockState

/-- The state a delivery leaves. -/
def next (c : Config) (s : BlockState) (d : Delivery) : BlockState := (s.deliver c d).1

theorem dispatch_isOk_iff (c : Config) (s : BlockState) :
    (s.dispatch c).2.isOk = true
      ↔ ¬ (dispatches c s.dataParts s.event s.id s.retry = true
          ∧ probeData c s.dataParts = .raises) := by
  rw [dispatch_eq]
  by_cases due : dispatches c s.dataParts s.event s.id s.retry = true
  · simp only [due, if_true]
    cases probe : probeData c s.dataParts <;> simp [Except.isOk, Except.toBool]
  · simp [due, Except.isOk, Except.toBool]

theorem deliver_isOk_iff (c : Config) (s : BlockState) (d : Delivery) :
    (s.deliver c d).2.isOk = true ↔ ¬ Raises c s d := by
  cases skip : s.skipBlock with
  | true =>
      have quiet : ¬ Raises c s d := by
        intro raises
        cases raises <;> simp_all
      refine iff_of_true ?_ quiet
      cases d with
      | line l =>
          simp only [deliver, consumeLine, skip, if_true]
          split <;> rfl
      | discard bytes => rfl
      | finish => simp [deliver, skip, Except.isOk, Except.toBool]
  | false =>
      cases d with
      | discard bytes => exact iff_of_true rfl (by rintro ⟨⟩)
      | finish =>
          have ends : (s.deliver c .finish).2.isOk = (s.dispatch c).2.isOk := by
            simp only [deliver, skip, Bool.false_eq_true, if_false]
            rcases s.dispatch c with ⟨t, _ | frame⟩ <;> rfl
          rw [ends, dispatch_isOk_iff]
          refine not_congr ⟨fun both => .jsonAtEnd skip both.1 both.2, ?_⟩
          rintro (_ | _ | ⟨_, due, data⟩)
          exact ⟨due, data⟩
      | line l =>
          simp only [deliver, consumeLine, skip, Bool.false_eq_true, if_false]
          by_cases blank : l.text = []
          · simp only [blank, if_true]
            rw [dispatch_isOk_iff]
            refine not_congr ⟨fun both => .json skip blank both.1 both.2, ?_⟩
            rintro (⟨_, field⟩ | ⟨_, _, due, data⟩ | _)
            · exact absurd blank field
            · exact ⟨due, data⟩
          · simp only [blank, if_false]
            split
            · rename_i beyond
              refine iff_of_true rfl ?_
              rintro (⟨_, _, small⟩ | ⟨_, empty⟩ | _)
              · exact absurd beyond (Nat.not_lt.2 small)
              · exact blank empty
            · rename_i small
              rw [parseField_eq]
              by_cases long : fieldOf l.text = .longRetry
              · refine iff_of_false ?_ (not_not_intro ?_)
                · simp [long, Except.isOk, Except.toBool]
                · exact .retry skip blank (Nat.not_lt.1 small) long
              · refine iff_of_true ?_ ?_
                · simp [long, Except.isOk, Except.toBool]
                · rintro (⟨_, _, _, long'⟩ | ⟨_, empty⟩ | _)
                  · exact long long'
                  · exact blank empty

theorem deliverAll_isOk_iff_along (c : Config) (s : BlockState) (ds : List Delivery) :
    (s.deliverAll c ds).2.isOk = true
      ↔ Along (next c) (fun t d => ¬ Raises c t d) s ds := by
  induction ds generalizing s with
  | nil => exact iff_of_true rfl trivial
  | cons d ds ih =>
      rw [along_cons, ← deliver_isOk_iff, ← ih, next]
      cases head : s.deliver c d with
      | mk t result =>
          cases result with
          | error e => simp [deliverAll_cons_error head, Except.isOk, Except.toBool]
          | ok frame =>
              rw [deliverAll_cons_ok head]
              cases t.deliverAll c ds with
              | mk u result => cases result <;> simp [Except.map, Except.isOk, Except.toBool]

end BlockState

/-! ## No line is consumed twice -/

/-- Positions counted from the end of what was received, of lines that lie between the
end `above` and the beginning `upTo`, each beginning after the one before it. -/
def Descending (above upTo : ℕ) (consumed : List ℕ) : Prop :=
  consumed.Pairwise (· > ·) ∧ ∀ n ∈ consumed, above < n ∧ n ≤ upTo

theorem descending_nil (above upTo : ℕ) : Descending above upTo [] :=
  ⟨List.Pairwise.nil, by simp⟩

theorem Descending.mono {above upTo upTo' : ℕ} {consumed : List ℕ}
    (descending : Descending above upTo consumed) (larger : upTo ≤ upTo') :
    Descending above upTo' consumed :=
  ⟨descending.1, fun n member =>
    ⟨(descending.2 n member).1, Nat.le_trans (descending.2 n member).2 larger⟩⟩

theorem drainLines_descending (c : Config) (final : Bool) {passes : ℕ} {s : BlockState}
    {rest left : Bytes} {frames : List SseFrame}
    (returned : (drainLines c final passes s rest).result = .ok (frames, left)) :
    Descending left.length rest.length (drainLines c final passes s rest).consumed
      ∧ left.length ≤ rest.length := by
  induction passes generalizing s rest frames with
  | zero =>
      cases returned
      exact ⟨descending_nil _ _, Nat.le_refl _⟩
  | succ passes ih =>
      cases next : nextLine final rest with
      | none =>
          simp only [drainLines, next] at returned ⊢
          cases returned
          exact ⟨descending_nil _ _, Nat.le_refl _⟩
      | some found =>
          obtain ⟨l, after⟩ := found
          obtain ⟨-, shorter⟩ := splitLines_of_nextLine next
          simp only [drainLines, next] at returned ⊢
          cases head : s.consumeLine c l.text l.raw with
          | mk t result =>
              cases result with
              | error e => simp [head] at returned
              | ok frame =>
                  simp only [head] at returned ⊢
                  cases more : (drainLines c final passes t after).result with
                  | error e => simp [more, Except.map] at returned
                  | ok found =>
                      obtain ⟨later, left'⟩ := found
                      rw [more] at returned
                      cases returned
                      obtain ⟨⟨sorted, bounds⟩, atMost⟩ := ih more
                      refine ⟨⟨?_, ?_⟩, by omega⟩
                      · refine List.pairwise_cons.2 ⟨fun n member => ?_, sorted⟩
                        have := bounds n member
                        omega
                      · refine List.forall_mem_cons.2 ⟨by omega, fun n member => ?_⟩
                        have := bounds n member
                        omega

theorem Reader.stripBom_length (final : Bool) (r : Reader) :
    (r.stripBom final).1.buf.length ≤ r.buf.length := by
  unfold stripBom
  split
  · exact Nat.le_refl _
  · split
    · dsimp only
      split
      · simp
      · exact Nat.le_refl _
    · split <;> exact Nat.le_refl _

theorem Parser.drain_descending (c : Config) (final : Bool) (p : Parser)
    (returned : (p.drain c final).result.isOk = true) :
    Descending (p.drain c final).parser.buf.length p.buf.length (p.drain c final).consumed
      ∧ (p.drain c final).parser.buf.length ≤ p.buf.length := by
  have shorter := p.toReader.stripBom_length final
  cases strip : p.toReader.stripBom final with
  | mk r goOn =>
      simp only [strip] at shorter
      cases goOn with
      | false =>
          simp only [drain, strip]
          exact ⟨descending_nil _ _, shorter⟩
      | true =>
          simp only [drain, strip] at returned ⊢
          cases lines : (drainLines c final r.buf.length p.block r.buf).result with
          | error e => simp [lines, Except.isOk, Except.toBool] at returned
          | ok found =>
              obtain ⟨frames, left⟩ := found
              obtain ⟨descending, atMost⟩ := drainLines_descending c final lines
              have inBuffer := descending.mono shorter
              simp only [lines] at returned ⊢
              split
              · rename_i last
                have nonempty : 0 < left.length := by
                  simp only [Bool.and_eq_true, Bool.not_eq_true'] at last
                  exact List.length_pos_iff.2 (by simpa using last.2)
                -- The last line begins after every complete one.
                have consumed : Descending 0 p.buf.length
                    ((drainLines c final r.buf.length p.block r.buf).consumed
                      ++ [left.length]) := by
                  refine ⟨List.pairwise_append.2 ⟨inBuffer.1, by simp, ?_⟩, ?_⟩
                  · intro n member m last
                    rw [List.mem_singleton.1 last]
                    exact (inBuffer.2 n member).1
                  · intro n member
                    rcases List.mem_append.1 member with line | last
                    · have := inBuffer.2 n line
                      omega
                    · rw [List.mem_singleton.1 last]
                      omega
                split <;> exact ⟨consumed, Nat.zero_le _⟩
              · split
                · refine ⟨⟨inBuffer.1, fun n member => ?_⟩, Nat.zero_le _⟩
                  have := inBuffer.2 n member
                  simp only [List.length_nil]
                  omega
                · exact ⟨inBuffer, by dsimp only; omega⟩

theorem Parser.call_descending (c : Config) (p : Parser) (k : Call)
    (returned : (p.call c k).result.isOk = true) :
    Descending (p.call c k).parser.buf.length (p.buf.length + k.bytes.length)
        (p.call c k).consumed
      ∧ (p.call c k).parser.buf.length ≤ p.buf.length + k.bytes.length := by
  cases k with
  | feed chunk =>
      simp only [call, feed, Call.bytes] at returned ⊢
      split
      · exact ⟨descending_nil _ _, by dsimp only; omega⟩
      · rename_i nonempty
        simp only [nonempty, if_false] at returned
        simpa using drain_descending c false _ returned
  | flush =>
      simp only [call, flush, Call.bytes, List.length_nil, Nat.add_zero] at returned ⊢
      cases lines : (p.drain c true).result with
      | error e => simp [lines, Except.isOk, Except.toBool] at returned
      | ok frames =>
          obtain ⟨⟨sorted, bounds⟩, -⟩ :=
            drain_descending c true p (by simp [lines, Except.isOk, Except.toBool])
          have consumed : Descending 0 p.buf.length (p.drain c true).consumed :=
            ⟨sorted, fun n member => by have := bounds n member; omega⟩
          simp only [lines] at returned ⊢
          split
          · exact ⟨consumed, Nat.zero_le _⟩
          · rename_i reading
            simp only [reading] at returned
            split
            · rename_i raised
              simp [raised, Except.isOk, Except.toBool] at returned
            · exact ⟨consumed, Nat.zero_le _⟩

namespace Session

/-- **Every call returns, and no line is consumed twice.** -/
def Safe (s : Session) : Prop :=
  (∀ result ∈ s.results, result.isOk = true) ∧ s.processed.Nodup

/-- The lines consumed so far begin before the first unread byte, in ascending order. -/
structure Ascending (s : Session) : Prop where
  sorted : s.processed.Pairwise (· < ·)
  unread : s.parser.buf.length ≤ s.received
  before : ∀ n ∈ s.processed, n + s.parser.buf.length < s.received

theorem ascending_step {c : Config} {s : Session} {k : Call} (ascending : s.Ascending)
    (returned : (s.parser.call c k).result.isOk = true) : (s.step c k).Ascending := by
  obtain ⟨sorted, unread, before⟩ := ascending
  obtain ⟨⟨descending, bounds⟩, left⟩ := s.parser.call_descending c k returned
  refine ⟨?_, ?_, ?_⟩
  · refine List.pairwise_append.2 ⟨sorted, ?_, ?_⟩
    · refine List.pairwise_map.2 (descending.imp_of_mem ?_)
      intro n m member _ later
      have := bounds n member
      omega
    · intro n old m new
      obtain ⟨d, member, rfl⟩ := List.mem_map.1 new
      have := before n old
      have := bounds d member
      omega
  · simp only [step]
    omega
  · intro n member
    simp only [step]
    rcases List.mem_append.1 member with old | new
    · have := before n old
      omega
    · obtain ⟨d, consumed, rfl⟩ := List.mem_map.1 new
      have := bounds d consumed
      omega

theorem ascending_run {c : Config} {s : Session} {calls : List Call}
    (ascending : s.Ascending)
    (returned : ∀ result ∈ (runSchedule (step c) s calls).results, result.isOk = true) :
    (runSchedule (step c) s calls).Ascending := by
  induction calls generalizing s with
  | nil => exact ascending
  | cons k ks ih =>
      refine ih (s := s.step c k) (ascending_step ascending ?_) returned
      exact returned _ ((results_runSchedule c (s.step c k) ks).subset (by simp [step]))

end Session

/-- **The parser is safe exactly on the runs in which no delivery raises**: over every
sequence of `feed` and `flush` calls, on any bytes. -/
theorem feed_flush_safe_iff (c : Config) (calls : List Call) :
    (Session.run c calls).Safe
      ↔ Along (BlockState.next c) (fun s d => ¬ Raises c s d) .fresh
          (Reader.calls c.maxEventBytes ⟨[], false⟩ calls).1 := by
  rw [← BlockState.deliverAll_isOk_iff_along]
  cases delivered : BlockState.fresh.deliverAll c
      (Reader.calls c.maxEventBytes ⟨[], false⟩ calls).1 with
  | mk t result =>
      cases result with
      | error e =>
          have raised := Session.runSchedule_raised (s := .fresh) delivered
          refine iff_of_false (fun safe => ?_) (by simp [Except.isOk, Except.toBool])
          have := safe.1 _ raised
          simp [Except.isOk, Except.toBool] at this
      | ok frames =>
          refine iff_of_true ?_ rfl
          have none : Session.fresh.Returned [] := ⟨[], rfl, rfl⟩
          obtain ⟨-, parts, results, -⟩ := Session.runSchedule_returned none delivered
          have returned : ∀ result ∈ (Session.run c calls).results, result.isOk = true := by
            intro result member
            rw [Session.run, results] at member
            obtain ⟨part, -, rfl⟩ := List.mem_map.1 member
            rfl
          have start : Session.fresh.Ascending :=
            ⟨List.Pairwise.nil, Nat.le_refl _, by simp [Session.fresh]⟩
          have ascending := Session.ascending_run (c := c) start returned
          exact ⟨returned, ascending.sorted.imp Nat.ne_of_lt⟩

/-- `retry:` and 4301 digits. -/
def longRetryLine : Bytes :=
  [0x72, 0x65, 0x74, 0x72, 0x79, 0x3A] ++ List.replicate 4301 0x31 ++ [lf]

set_option maxRecDepth 20000 in
/-- A parser with the default arguments raises on it. -/
theorem longRetryLine_not_safe :
    ¬ (Session.run (.default fun _ => .accepts) [.feed longRetryLine]).Safe := by
  intro safe
  have all : (Session.run (.default fun _ => .accepts)
      [.feed longRetryLine]).results.all Except.isOk = true :=
    List.all_eq_true.2 safe.1
  exact absurd all (by decide +kernel)

end Zhongzhuan.Protocol.Sse
