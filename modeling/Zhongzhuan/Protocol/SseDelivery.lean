import Zhongzhuan.Protocol.SseParser

/-!
# The parser as a fold over deliveries

Where the byte stream is cut does not depend on what the lines mean: the buffer, the
BOM flag and the memory valve look only at bytes and lengths.  A call therefore falls
into two halves.

* `Reader.call` turns the buffer and a call into `Delivery`s: complete lines, a discard
  by the valve, the end of the stream.
* `BlockState.deliver` is what one delivery does to the block slots.

`Parser.call_eq` says that a call of the parser is the second over the first.  After an
exception only the block slots are described: the buffer then still holds lines that
were already consumed.
-/

namespace Zhongzhuan.Protocol.Sse

open Kit

/-- What reaches the block slots. -/
inductive Delivery
  | line (l : Line)
  /-- The valve threw away a rest that was over the limit. -/
  | discard (bytes : Bytes)
  /-- The end of `flush`. -/
  | finish
deriving DecidableEq, Repr

/-- The stream bytes of a delivery. -/
def Delivery.bytes : Delivery → Bytes
  | .line l => l.raw
  | .discard bytes => bytes
  | .finish => []

namespace Reader

/-- What becomes of the bytes of no complete line: at the end of the stream they are the
last line, over the limit they are thrown away, else they stay in the buffer. -/
def keepRest (max : ℕ) (final : Bool) (rest : Bytes) : List Delivery × Bytes :=
  if final && !rest.isEmpty then ([.line ⟨rest, []⟩], [])
  else if max < rest.length then ([.discard rest], [])
  else ([], rest)

/-- The deliveries of `_drain` and the buffer it leaves. -/
def drain (max : ℕ) (final : Bool) (r : Reader) : List Delivery × Reader :=
  match r.stripBom final with
  | (r, false) => ([], r)
  | (r, true) =>
      let split := splitLines final r.buf
      let kept := keepRest max final split.2
      (split.1.map .line ++ kept.1, ⟨kept.2, r.bomDone⟩)

/-- The deliveries of a call. -/
def call (max : ℕ) (r : Reader) : Call → List Delivery × Reader
  | .feed chunk =>
      if chunk = [] then ([], r) else drain max false ⟨r.buf ++ chunk, r.bomDone⟩
  | .flush => ((r.drain max true).1 ++ [.finish], ⟨[], true⟩)

/-- The deliveries of a run of calls. -/
def calls (max : ℕ) : Reader → List Call → List Delivery × Reader
  | r, [] => ([], r)
  | r, k :: ks =>
      ((r.call max k).1 ++ ((r.call max k).2.calls max ks).1,
        ((r.call max k).2.calls max ks).2)

end Reader

namespace BlockState

/-- One delivery. -/
def deliver (c : Config) (s : BlockState) :
    Delivery → BlockState × Except PyError (Option SseFrame)
  | .line l => s.consumeLine c l.text l.raw
  | .discard _ => (s.valve, .ok none)
  | .finish =>
      if s.skipBlock then ({ s.resetBlock with skipBlock := false }, .ok none)
      else
        match s.dispatch c with
        | (s, .ok frame) => ({ s.resetBlock with skipBlock := false }, .ok frame)
        | (s, .error e) => (s, .error e)

/-- Deliveries in order, up to the first that raises. -/
def deliverAll (c : Config) :
    BlockState → List Delivery → BlockState × Except PyError (List SseFrame)
  | s, [] => (s, .ok [])
  | s, d :: ds =>
      match s.deliver c d with
      | (s, .error e) => (s, .error e)
      | (s, .ok frame) =>
          ((deliverAll c s ds).1, (deliverAll c s ds).2.map (frame.toList ++ ·))

@[simp] theorem deliverAll_nil (c : Config) (s : BlockState) :
    s.deliverAll c [] = (s, .ok []) := rfl

theorem deliverAll_cons_ok {c : Config} {s s' : BlockState} {d : Delivery}
    {frame : Option SseFrame} (first : s.deliver c d = (s', .ok frame))
    (ds : List Delivery) :
    s.deliverAll c (d :: ds)
      = ((s'.deliverAll c ds).1, (s'.deliverAll c ds).2.map (frame.toList ++ ·)) := by
  simp [deliverAll, first]

theorem deliverAll_cons_error {c : Config} {s s' : BlockState} {d : Delivery} {e : PyError}
    (first : s.deliver c d = (s', .error e)) (ds : List Delivery) :
    s.deliverAll c (d :: ds) = (s', .error e) := by
  simp [deliverAll, first]

theorem deliverAll_append (c : Config) (s : BlockState) (ds es : List Delivery) :
    s.deliverAll c (ds ++ es)
      = match s.deliverAll c ds with
        | (t, .error e) => (t, .error e)
        | (t, .ok frames) =>
            ((t.deliverAll c es).1, (t.deliverAll c es).2.map (frames ++ ·)) := by
  induction ds generalizing s with
  | nil =>
      cases rest : s.deliverAll c es with
      | mk t result => cases result <;> simp [Except.map, rest]
  | cons d ds ih =>
      cases head : s.deliver c d with
      | mk t result =>
          cases result with
          | error e => simp [deliverAll_cons_error head]
          | ok frame =>
              rw [List.cons_append, deliverAll_cons_ok head, deliverAll_cons_ok head, ih]
              cases tail : t.deliverAll c ds with
              | mk u result =>
                  cases result with
                  | error e => rfl
                  | ok more => cases last : (u.deliverAll c es).2 <;> simp [Except.map, last]

theorem deliverAll_append_ok {c : Config} {s t : BlockState} {ds : List Delivery}
    {frames : List SseFrame} (first : s.deliverAll c ds = (t, .ok frames))
    (es : List Delivery) :
    s.deliverAll c (ds ++ es)
      = ((t.deliverAll c es).1, (t.deliverAll c es).2.map (frames ++ ·)) := by
  rw [deliverAll_append, first]

theorem deliverAll_append_nil {c : Config} {s t : BlockState} {ds : List Delivery}
    (first : s.deliverAll c ds = (t, .ok [])) (es : List Delivery) :
    s.deliverAll c (ds ++ es) = t.deliverAll c es := by
  rw [deliverAll_append_ok first]
  rcases t.deliverAll c es with ⟨u, _ | frames⟩ <;> rfl

theorem deliverAll_append_error {c : Config} {s t : BlockState} {ds : List Delivery}
    {e : PyError} (first : s.deliverAll c ds = (t, .error e)) (es : List Delivery) :
    s.deliverAll c (ds ++ es) = (t, .error e) := by
  rw [deliverAll_append, first]

theorem deliverAll_singleton (c : Config) (s : BlockState) (d : Delivery) :
    s.deliverAll c [d] = ((s.deliver c d).1, (s.deliver c d).2.map Option.toList) := by
  cases head : s.deliver c d with
  | mk t result =>
      cases result with
      | error e => simp [deliverAll_cons_error head, Except.map]
      | ok frame => simp [deliverAll_cons_ok head, Except.map]

end BlockState

theorem drainLines_eq (c : Config) (final : Bool) {passes : ℕ} {rest : Bytes}
    (enough : rest.length ≤ passes) (s : BlockState) :
    let split := splitLines final rest
    let delivered := s.deliverAll c (split.1.map .line)
    (drainLines c final passes s rest).block = delivered.1
      ∧ (drainLines c final passes s rest).result
        = delivered.2.map fun frames => (frames, split.2) := by
  induction passes generalizing s rest with
  | zero =>
      obtain rfl : rest = [] := List.eq_nil_of_length_eq_zero (Nat.le_zero.1 enough)
      simp [drainLines, Except.map]
  | succ passes ih =>
      cases next : nextLine final rest with
      | none => simp [drainLines, next, splitLines_of_nextLine_none next, Except.map]
      | some found =>
          obtain ⟨l, after⟩ := found
          obtain ⟨split, shorter⟩ := splitLines_of_nextLine next
          have fewer : after.length ≤ passes := by omega
          have more := fun t => ih fewer t
          simp only [drainLines, next, split, consLine, List.map_cons]
          cases head : s.consumeLine c l.text l.raw with
          | mk t result =>
              cases result with
              | error e =>
                  rw [BlockState.deliverAll_cons_error (d := .line l) head]
                  exact ⟨rfl, rfl⟩
              | ok frame =>
                  rw [BlockState.deliverAll_cons_ok (d := .line l) head]
                  refine ⟨(more t).1, ?_⟩
                  simp only [(more t).2]
                  cases (t.deliverAll c _).2 <;> rfl

/-- What a call leaves, next to the deliveries it made: the same result and block, and,
unless it raised, the reader's buffer. -/
structure Outcome.Delivers (o : Outcome) (r : Reader)
    (delivered : BlockState × Except PyError (List SseFrame)) : Prop where
  result : o.result = delivered.2
  block : o.parser.block = delivered.1
  reader : ∀ frames, delivered.2 = .ok frames → o.parser.toReader = r

namespace Parser

theorem drain_delivers (c : Config) (final : Bool) (p : Parser) :
    (p.drain c final).Delivers (p.toReader.drain c.maxEventBytes final).2
      (p.block.deliverAll c (p.toReader.drain c.maxEventBytes final).1) := by
  cases strip : p.toReader.stripBom final with
  | mk r goOn =>
      cases goOn with
      | false => simp only [drain, Reader.drain, strip]; exact ⟨rfl, rfl, fun _ _ => rfl⟩
      | true =>
          obtain ⟨block, result⟩ := drainLines_eq c final (Nat.le_refl r.buf.length) p.block
          simp only [drain, Reader.drain, strip]
          generalize drainLines c final r.buf.length p.block r.buf = looped at block result
          cases lines : p.block.deliverAll c ((splitLines final r.buf).1.map .line) with
          | mk s delivered =>
              rw [lines] at block result
              cases delivered with
              | error e =>
                  rw [BlockState.deliverAll_append_error lines]
                  simp only [result, Except.map]
                  exact ⟨rfl, block, by simp⟩
              | ok frames =>
                  rw [BlockState.deliverAll_append_ok lines]
                  simp only [result, Except.map, Reader.keepRest]
                  split
                  · -- The last line of the stream.
                    rw [BlockState.deliverAll_singleton]
                    have raw : (⟨(splitLines final r.buf).2, []⟩ : Line).raw
                        = (splitLines final r.buf).2 := by simp [Line.raw]
                    simp only [BlockState.deliver, raw, block]
                    cases last : s.consumeLine c (splitLines final r.buf).2
                        (splitLines final r.buf).2 with
                    | mk t result =>
                        cases result with
                        | error e => exact ⟨rfl, rfl, by simp⟩
                        | ok frame => exact ⟨rfl, rfl, fun _ _ => rfl⟩
                  · split
                    · rw [BlockState.deliverAll_singleton]
                      simp only [BlockState.deliver, Except.map, block]
                      exact ⟨by simp, rfl, fun _ _ => rfl⟩
                    · exact ⟨by simp, block, fun _ _ => rfl⟩

theorem call_delivers (c : Config) (p : Parser) (k : Call) :
    (p.call c k).Delivers (p.toReader.call c.maxEventBytes k).2
      (p.block.deliverAll c (p.toReader.call c.maxEventBytes k).1) := by
  cases k with
  | feed chunk =>
      simp only [call, feed, Reader.call]
      split
      · exact ⟨rfl, rfl, fun _ _ => rfl⟩
      · exact drain_delivers c false _
  | flush =>
      obtain ⟨result, block, -⟩ := drain_delivers c true p
      simp only [call, flush, Reader.call]
      generalize p.drain c true = drained at result block
      cases lines : p.block.deliverAll c (p.toReader.drain c.maxEventBytes true).1 with
      | mk s delivered =>
          rw [lines] at result block
          cases delivered with
          | error e =>
              rw [BlockState.deliverAll_append_error lines]
              simp only [result]
              exact ⟨rfl, block, by simp⟩
          | ok frames =>
              rw [BlockState.deliverAll_append_ok lines, BlockState.deliverAll_singleton]
              simp only [result, block, BlockState.deliver]
              split
              · exact ⟨by simp [Except.map], rfl, fun _ _ => rfl⟩
              · cases s.dispatch c with
                | mk t result =>
                    cases result with
                    | error e => exact ⟨rfl, rfl, by simp [Except.map]⟩
                    | ok residual => exact ⟨rfl, rfl, fun _ _ => rfl⟩

end Parser

theorem Parser.call_ok {c : Config} {p : Parser} {k : Call} {s : BlockState}
    {frames : List SseFrame}
    (delivered : p.block.deliverAll c (p.toReader.call c.maxEventBytes k).1 = (s, .ok frames)) :
    (p.call c k).parser = ⟨(p.toReader.call c.maxEventBytes k).2, s⟩
      ∧ (p.call c k).result = .ok frames := by
  obtain ⟨result, block, reader⟩ := p.call_delivers c k
  simp only [delivered] at result block reader
  refine ⟨?_, result⟩
  rw [← reader frames rfl, ← block]

theorem BlockState.deliverAll_append_eq_ok {c : Config} {s t : BlockState}
    {ds es : List Delivery} {frames : List SseFrame}
    (delivered : s.deliverAll c (ds ++ es) = (t, .ok frames)) :
    ∃ u first second, s.deliverAll c ds = (u, .ok first)
      ∧ u.deliverAll c es = (t, .ok second) ∧ frames = first ++ second := by
  cases head : s.deliverAll c ds with
  | mk u result =>
      cases result with
      | error e =>
          rw [deliverAll_append_error head] at delivered
          cases delivered
      | ok first =>
          rw [deliverAll_append_ok head] at delivered
          cases tail : u.deliverAll c es with
          | mk v result =>
              rw [tail] at delivered
              cases result with
              | error e => cases delivered
              | ok second =>
                  cases delivered
                  exact ⟨u, first, second, rfl, tail, rfl⟩

namespace Session

theorem results_runSchedule (c : Config) (s : Session) (calls : List Call) :
    s.results <+: (runSchedule (step c) s calls).results := by
  induction calls generalizing s with
  | nil => exact List.prefix_refl _
  | cons k ks ih => exact (List.prefix_append _ _).trans (ih (s.step c k))

/-- **A run whose deliveries return** leaves the parser they leave and has returned
their frames. -/
theorem runSchedule_returned {c : Config} {s : Session} {calls : List Call}
    {t : BlockState} {frames before : List SseFrame} (returned : s.Returned before)
    (delivered : s.parser.block.deliverAll c
      (s.parser.toReader.calls c.maxEventBytes calls).1 = (t, .ok frames)) :
    (runSchedule (step c) s calls).parser
        = ⟨(s.parser.toReader.calls c.maxEventBytes calls).2, t⟩
      ∧ (runSchedule (step c) s calls).Returned (before ++ frames) := by
  induction calls generalizing s before frames with
  | nil =>
      cases delivered
      exact ⟨rfl, by simpa using returned⟩
  | cons k ks ih =>
      obtain ⟨u, now, later, first, rest, rfl⟩ :=
        BlockState.deliverAll_append_eq_ok delivered
      obtain ⟨parser, result⟩ := Parser.call_ok first
      have returned' : (s.step c k).Returned (before ++ now) := by
        obtain ⟨parts, results, rfl⟩ := returned
        exact ⟨parts ++ [now], by simp [step, results, result], by simp⟩
      have more := ih (s := s.step c k) returned' (by
        rw [show (s.step c k).parser = (s.parser.call c k).parser from rfl, parser]
        exact rest)
      rw [show (s.step c k).parser = (s.parser.call c k).parser from rfl, parser,
        List.append_assoc] at more
      exact more

theorem runSchedule_raised {c : Config} {s : Session} {calls : List Call}
    {t : BlockState} {e : PyError} (delivered : s.parser.block.deliverAll c
      (s.parser.toReader.calls c.maxEventBytes calls).1 = (t, .error e)) :
    .error e ∈ (runSchedule (step c) s calls).results := by
  induction calls generalizing s with
  | nil => cases delivered
  | cons k ks ih =>
      simp only [Reader.calls] at delivered
      cases first : s.parser.block.deliverAll c
          (s.parser.toReader.call c.maxEventBytes k).1 with
      | mk u result =>
          cases result with
          | error e' =>
              rw [BlockState.deliverAll_append_error first] at delivered
              cases delivered
              have raised := (s.parser.call_delivers c k).result
              rw [first] at raised
              refine (results_runSchedule c (s.step c k) ks).subset ?_
              simp [step, raised]
          | ok now =>
              obtain ⟨parser, -⟩ := Parser.call_ok first
              rw [BlockState.deliverAll_append_ok first] at delivered
              refine ih (s := s.step c k) ?_
              rw [show (s.step c k).parser = (s.parser.call c k).parser from rfl, parser]
              cases rest : u.deliverAll c
                  (((s.parser.toReader.call c.maxEventBytes k).2.calls
                    c.maxEventBytes ks).1) with
              | mk v result =>
                  rw [rest] at delivered
                  cases result with
                  | error e' =>
                      cases delivered
                      rfl
                  | ok frames => cases delivered

end Session

end Zhongzhuan.Protocol.Sse
