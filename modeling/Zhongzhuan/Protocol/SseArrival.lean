import Zhongzhuan.Protocol.SseDelivery

/-!
# The lines of the stream and how they arrive

A line of the stream normally arrives as one delivery.  A line over the limit may arrive
in pieces: the valve discards what is there whenever a call ends inside the line, and
the parser then takes the rest for a line of its own.

* `Arrival` is a line of the stream with the deliveries it arrived in; `arrivals` puts
  the deliveries of a stream together again.
* `stream_lines`: for every chunking the arrivals are the lines of the stream, and
  `arrivals_parts`: they hold every delivery, in order.
* `Arrival.Shape`: a line at most as long as the limit arrives whole.
-/

namespace Zhongzhuan.Protocol.Sse

open Kit

/-- A line of the stream and the deliveries it arrived in. -/
structure Arrival where
  line : Line
  parts : List Delivery
deriving DecidableEq, Repr

namespace Arrival

/-- A line that arrived in one piece. -/
def whole (l : Line) : Arrival := ⟨l, [.line l]⟩

/-- Bytes that were thrown away belong to the front of the next line; a CR that ends
them ends a line by itself unless the next one is the LF of a CRLF. -/
def attach (x : Bytes) (as : List Arrival) : List Arrival :=
  if x.getLast? = some cr then
    match as with
    | [] => [⟨⟨x.dropLast, [cr]⟩, [.discard x]⟩]
    | a :: as =>
        if a.line = ⟨[], [lf]⟩ then ⟨⟨x.dropLast, [cr, lf]⟩, .discard x :: a.parts⟩ :: as
        else ⟨⟨x.dropLast, [cr]⟩, [.discard x]⟩ :: a :: as
  else
    match as with
    | [] => [⟨⟨x, []⟩, [.discard x]⟩]
    | a :: as => ⟨a.line.prepend x, .discard x :: a.parts⟩ :: as

theorem attach_lines {x : Bytes} (nonempty : x ≠ []) (as : List Arrival) :
    (attach x as).map line = joinFront x (as.map line) := by
  unfold attach joinFront
  split
  · cases as with
    | nil => rfl
    | cons a as =>
        simp only [List.map_cons]
        split <;> rfl
  · cases as with
    | nil => simp [nonempty]
    | cons a as => rfl

theorem attach_parts (x : Bytes) (as : List Arrival) :
    (attach x as).flatMap parts = .discard x :: as.flatMap parts := by
  unfold attach
  split
  · cases as with
    | nil => rfl
    | cons a as =>
        dsimp only
        split <;> simp
  · cases as <;> simp

end Arrival

/-- The lines the deliveries of a stream belong to. -/
def arrivals : List Delivery → List Arrival
  | [] => []
  | .line l :: ds => .whole l :: arrivals ds
  | .discard x :: ds => Arrival.attach x (arrivals ds)
  | .finish :: ds => arrivals ds

theorem arrivals_append_lines (ls : List Line) (ds : List Delivery) :
    arrivals (ls.map .line ++ ds) = ls.map .whole ++ arrivals ds := by
  induction ls with
  | nil => rfl
  | cons l ls ih => simp [arrivals, ih]

theorem arrivals_parts {ds : List Delivery} (running : .finish ∉ ds) :
    (arrivals ds).flatMap Arrival.parts = ds := by
  induction ds with
  | nil => rfl
  | cons d ds ih =>
      rw [List.mem_cons, not_or] at running
      cases d with
      | line l => simp [arrivals, Arrival.whole, ih running.2]
      | discard x => rw [arrivals, Arrival.attach_parts, ih running.2]
      | finish => exact absurd rfl running.1

/-! ## The reader over a stream -/

namespace Reader

/-- The deliveries of a stream fed in chunks and flushed, the final one apart. -/
def stream (max : ℕ) : Reader → List Bytes → List Delivery
  | r, [] => (r.drain max true).1
  | r, chunk :: chunks =>
      (r.call max (.feed chunk)).1 ++ (r.call max (.feed chunk)).2.stream max chunks

/-- `feed` on each chunk, then `flush`. -/
def callsOf (chunks : List Bytes) : List Call := chunks.map .feed ++ [.flush]

theorem calls_callsOf (max : ℕ) (r : Reader) (chunks : List Bytes) :
    r.calls max (callsOf chunks) = (r.stream max chunks ++ [.finish], ⟨[], true⟩) := by
  induction chunks generalizing r with
  | nil => simp [callsOf, calls, call, stream]
  | cons chunk chunks ih =>
      have step := ih (r.call max (.feed chunk)).2
      simp only [callsOf] at step
      simp only [callsOf, List.map_cons, List.cons_append, calls, step, stream,
        List.append_assoc]

/-- What the valve throws away: over the limit, and with no complete line in it. -/
def Discards (max : ℕ) (ds : List Delivery) : Prop :=
  .finish ∉ ds ∧ ∀ x, .discard x ∈ ds → max < x.length ∧ Unread x

theorem discards_append {max : ℕ} {ds es : List Delivery} :
    Discards max (ds ++ es) ↔ Discards max ds ∧ Discards max es := by
  simp only [Discards, List.mem_append, not_or, or_imp, forall_and]
  tauto

theorem discards_lines (max : ℕ) (ls : List Line) : Discards max (ls.map .line) := by
  simp [Discards]

theorem drain_discards (max : ℕ) (final : Bool) (r : Reader) :
    Discards max (r.drain max final).1 := by
  unfold drain
  split
  · simp [Discards]
  · rename_i r _
    refine discards_append.2 ⟨discards_lines max _, ?_⟩
    unfold keepRest
    split
    · simp [Discards]
    · rename_i notLast
      split
      · rename_i beyond
        simp only [Discards, List.mem_singleton, reduceCtorEq, not_false_eq_true,
          Delivery.discard.injEq, forall_eq, true_and]
        refine ⟨beyond, ?_⟩
        cases final with
        | false => exact splitLines_unread _
        | true =>
            refine ⟨_, splitLines_final_plain _, .inl rfl⟩
      · simp [Discards]

theorem stream_discards (max : ℕ) (r : Reader) (chunks : List Bytes) :
    Discards max (r.stream max chunks) := by
  induction chunks generalizing r with
  | nil => exact drain_discards max true r
  | cons chunk chunks ih =>
      refine discards_append.2 ⟨?_, ih _⟩
      simp only [call]
      split
      · simp [Discards]
      · exact drain_discards max false _

theorem drain_arrivals (max : ℕ) (buf : Bytes) (ds : List Delivery) (later : Bytes)
    (rest : ∀ kept, (drain max false ⟨buf, true⟩).2 = ⟨kept, true⟩ →
      (arrivals ds).map Arrival.line = streamLines (kept ++ later)) :
    (arrivals ((drain max false ⟨buf, true⟩).1 ++ ds)).map Arrival.line
      = streamLines (buf ++ later) := by
  have shape : drain max false ⟨buf, true⟩
      = ((splitLines false buf).1.map .line
          ++ (keepRest max false (splitLines false buf).2).1,
          ⟨(keepRest max false (splitLines false buf).2).2, true⟩) := rfl
  rw [shape] at rest ⊢
  rw [List.append_assoc, arrivals_append_lines, List.map_append, streamLines_append]
  have wholes : ((splitLines false buf).1.map Arrival.whole).map Arrival.line
      = (splitLines false buf).1 := by simp [Arrival.whole, Function.comp_def]
  rw [wholes]
  congr 1
  have later := rest _ rfl
  unfold keepRest at later ⊢
  simp only [Bool.false_and, Bool.false_eq_true, if_false] at later ⊢
  split
  · rename_i beyond
    -- The rest was thrown away: its bytes come back in front of the next line.
    simp only [beyond, if_true, List.nil_append] at later
    have nonempty : (splitLines false buf).2 ≠ [] := by
      intro empty
      simp [empty] at beyond
    rw [List.singleton_append, arrivals, Arrival.attach_lines nonempty, later,
      streamLines_unread (splitLines_unread buf)]
  · rename_i fits
    simpa [fits] using later

theorem drain_final_arrivals (max : ℕ) (buf : Bytes) :
    (arrivals (drain max true ⟨buf, true⟩).1).map Arrival.line = streamLines buf := by
  have shape : (drain max true ⟨buf, true⟩).1
      = (splitLines true buf).1.map .line
          ++ (keepRest max true (splitLines true buf).2).1 := rfl
  rw [shape, arrivals_append_lines, streamLines]
  cases rest : (splitLines true buf).2 <;>
    simp [keepRest, arrivals, Arrival.whole, Function.comp_def]

/-- Once the BOM is out of the way, the arrivals are the lines of what is in the buffer
and of what is still to come. -/
theorem stream_lines_decided (max : ℕ) (buf : Bytes) (chunks : List Bytes) :
    (arrivals (stream max ⟨buf, true⟩ chunks)).map Arrival.line
      = streamLines (buf ++ chunks.flatten) := by
  induction chunks generalizing buf with
  | nil => simpa [stream] using drain_final_arrivals max buf
  | cons chunk chunks ih =>
      simp only [stream, call, List.flatten_cons, ← List.append_assoc]
      split
      · rename_i empty
        simpa [empty] using ih buf
      · exact drain_arrivals max _ _ _ fun kept left => by rw [left, ih]

/-- The stream without its BOM. -/
def body (bs : Bytes) : Bytes := if bs.take 3 = bom then bs.drop 3 else bs

/-- The bytes so far do not say yet whether the stream begins with a BOM. -/
def Undecided (buf : Bytes) : Prop := buf.length < 3 ∧ buf.isPrefixOf bom = true

theorem stripBom_undecided {buf : Bytes} (undecided : Undecided buf) :
    stripBom false ⟨buf, false⟩ = (⟨buf, false⟩, false) := by
  simp [stripBom, undecided.2, Nat.not_le.2 undecided.1]

theorem body_append {buf : Bytes} (decided : ¬ Undecided buf) (later : Bytes) :
    body (buf ++ later) = body buf ++ later := by
  by_cases long : 3 ≤ buf.length
  · simp only [body, List.take_append_of_le_length long, List.drop_append_of_le_length long]
    split <;> rfl
  · have notPrefix : ¬ buf <+: bom := by
      intro isPrefix
      exact decided ⟨by omega, List.isPrefixOf_iff_prefix.2 isPrefix⟩
    have short : buf.take 3 ≠ bom := by
      intro same
      have := congrArg List.length same
      simp only [List.length_take, bom, List.length_cons, List.length_nil] at this
      omega
    have whole : (buf ++ later).take 3 ≠ bom := by
      intro same
      refine notPrefix ?_
      rw [← same, List.take_append]
      rw [List.take_of_length_le (by omega)]
      exact List.prefix_append _ _
    simp [body, short, whole]

theorem stripBom_decided (final : Bool) {buf : Bytes}
    (decided : final = true ∨ ¬ Undecided buf) :
    stripBom final ⟨buf, false⟩ = (⟨body buf, true⟩, true) := by
  unfold stripBom body
  simp only [Bool.false_eq_true, if_false]
  split
  · rfl
  · rename_i short
    have noBom : buf.take 3 ≠ bom := by
      intro same
      have := congrArg List.length same
      simp only [List.length_take, bom, List.length_cons, List.length_nil] at this
      omega
    rw [if_neg noBom, if_pos]
    rcases decided with final | decided
    · simp [final]
    · have : ¬ buf.isPrefixOf bom = true := fun isPrefix => decided ⟨by omega, isPrefix⟩
      simp [this]

theorem drain_decided (max : ℕ) (final : Bool) {buf : Bytes}
    (decided : final = true ∨ ¬ Undecided buf) :
    drain max final ⟨buf, false⟩ = drain max final ⟨body buf, true⟩ := by
  have done : stripBom final ⟨body buf, true⟩ = (⟨body buf, true⟩, true) := rfl
  simp only [drain, stripBom_decided final decided, done]

theorem stream_lines (max : ℕ) {buf : Bytes} (undecided : Undecided buf)
    (chunks : List Bytes) :
    (arrivals (stream max ⟨buf, false⟩ chunks)).map Arrival.line
      = streamLines (body (buf ++ chunks.flatten)) := by
  induction chunks generalizing buf with
  | nil =>
      simp only [stream, drain_decided max true (.inl rfl), drain_final_arrivals,
        List.flatten_nil, List.append_nil]
  | cons chunk chunks ih =>
      simp only [stream, call, List.flatten_cons, ← List.append_assoc]
      split
      · rename_i empty
        simpa [empty] using ih undecided
      · by_cases still : Undecided (buf ++ chunk)
        · simpa [drain, stripBom_undecided still] using ih still
        · rw [drain_decided max false (.inr still), body_append still]
          exact drain_arrivals max _ _ _ fun kept left => by
            rw [left, stream_lines_decided]

end Reader

/-! ## The shape of an arrival -/

/-- A line arrives whole, or it is over the limit and arrives as discarded pieces with
perhaps a rest. -/
def Arrival.Shape (max : ℕ) (a : Arrival) : Prop :=
  a = .whole a.line
    ∨ max < a.line.raw.length ∧ a.line.text ≠ []
      ∧ ∃ xs : List Bytes, xs ≠ []
        ∧ (a.parts = xs.map .discard ∨ ∃ rest, a.parts = xs.map .discard ++ [.line rest])

theorem Arrival.attach_shape {max : ℕ} (positive : 0 < max) {x : Bytes}
    (beyond : max < x.length) {as : List Arrival} (shapes : ∀ a ∈ as, a.Shape max) :
    ∀ a ∈ attach x as, a.Shape max := by
  have nonempty : x ≠ [] := List.length_pos_iff.1 (by omega)
  have text : x.dropLast ≠ [] := by
    refine List.length_pos_iff.1 ?_
    rw [List.length_dropLast]
    omega
  have cut : Shape max ⟨⟨x.dropLast, [cr]⟩, [.discard x]⟩ := by
    refine .inr ⟨?_, text, [x], by simp, .inl rfl⟩
    simp only [Line.raw, List.length_append, List.length_dropLast, List.length_singleton]
    omega
  unfold attach
  split
  · cases as with
    | nil => simpa using cut
    | cons b as =>
        rw [List.forall_mem_cons] at shapes
        dsimp only
        split
        · rename_i feed
          refine List.forall_mem_cons.2 ⟨.inr ⟨?_, text, [x], by simp, .inr ?_⟩, shapes.2⟩
          · simp only [Line.raw, List.length_append, List.length_dropLast, List.length_cons,
              List.length_nil]
            omega
          · rcases shapes.1 with whole | ⟨_, noText, _⟩
            · exact ⟨b.line, by rw [whole]; rfl⟩
            · exact absurd (by rw [feed]) noText
        · exact List.forall_mem_cons.2 ⟨cut, List.forall_mem_cons.2 shapes⟩
  · cases as with
    | nil =>
        simpa [Shape, whole, Line.raw, beyond, nonempty] using ⟨[x], by simp, .inl rfl⟩
    | cons b as =>
        rw [List.forall_mem_cons] at shapes
        refine List.forall_mem_cons.2 ⟨.inr ⟨?_, by simp [Line.prepend, nonempty], ?_⟩, shapes.2⟩
        · rw [Line.raw_prepend, List.length_append]
          omega
        · rcases shapes.1 with whole | ⟨_, _, xs, _, parts | ⟨rest, parts⟩⟩
          · exact ⟨[x], by simp, .inr ⟨b.line, by rw [whole]; rfl⟩⟩
          · exact ⟨x :: xs, by simp, .inl (by simp [parts])⟩
          · exact ⟨x :: xs, by simp, .inr ⟨rest, by simp [parts]⟩⟩

theorem arrivals_shape {max : ℕ} (positive : 0 < max) {ds : List Delivery}
    (discards : Reader.Discards max ds) : ∀ a ∈ arrivals ds, a.Shape max := by
  induction ds with
  | nil => simp [arrivals]
  | cons d ds ih =>
      rw [← List.singleton_append, Reader.discards_append] at discards
      cases d with
      | line l => exact List.forall_mem_cons.2 ⟨.inl rfl, ih discards.2⟩
      | discard x =>
          have beyond := (discards.1.2 x (by simp)).1
          exact Arrival.attach_shape positive beyond (ih discards.2)
      | finish => exact ih discards.2

end Zhongzhuan.Protocol.Sse
