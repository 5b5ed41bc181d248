import Zhongzhuan.Kit.Segments
import Zhongzhuan.Protocol.SseArrival
import Zhongzhuan.Protocol.SseBlock

/-!
# The one-shot reference parser

`reference` reads a whole stream at once: the BOM is dropped, the bytes are cut into
lines, the lines into blocks at the blank lines, and every block, the unterminated last
one included, is an event of its own.  There is no buffer and no state.

`feed_flush_eq_reference`: fed in any chunks, the incremental parser computes the same,
as long as no block is over the limit.
-/

namespace Zhongzhuan.Protocol.Sse

open Kit

/-- A blank line ends a block. -/
def isBlank (l : Line) : Bool := l.text.isEmpty

/-- The block of a segment of lines. -/
def Block.ofSegment (g : Segment Line) : Block := ⟨g.body, g.stop.elim [] Line.raw⟩

/-- The event blocks of a stream; what follows the last blank line is a block too. -/
def streamBlocks (stream : Bytes) : List Block :=
  (segments isBlank [] (streamLines (Reader.body stream))).map .ofSegment

/-- What the reference parser reports. -/
structure Reference where
  frames : List SseFrame
  notes : List MalformedReason
  lastEventId : String

/-- **The reference parser.** -/
def reference (c : Config) (stream : Bytes) : Reference where
  frames := (streamBlocks stream).filterMap (Block.frame c)
  notes := (streamBlocks stream).flatMap (Block.notes c)
  lastEventId :=
    (lastOf Field.idValue ((streamBlocks stream).flatMap Block.lines)).getD ""

/-! ## The parser on one block -/

namespace BlockState

theorem deliver_field (c : Config) (s : BlockState) {held : List Line} {l : Line}
    (field : l.text ≠ [])
    (small : ((held ++ [l]).map Line.raw).flatten.length ≤ c.maxEventBytes) :
    (s.reading held).deliver c (.line l)
      = (s.reading (held ++ [l]),
          if fieldOf l.text = .longRetry then .error .valueError else .ok none) := by
  have fits : ¬ c.maxEventBytes < ((s.reading held).rawBlock ++ l.raw).length := by
    simpa using small
  rw [deliver, consumeLine_of_reading rfl, if_neg field, if_neg fits, parseField_reading]
  by_cases long : fieldOf l.text = .longRetry <;> simp [long]

theorem deliverAll_fields {c : Config} (s : BlockState) (held : List Line)
    {lines : List Line}
    (fields : ∀ l ∈ lines, l.text ≠ [])
    (small : ((held ++ lines).map Line.raw).flatten.length ≤ c.maxEventBytes)
    (digits : ∀ l ∈ lines, fieldOf l.text ≠ .longRetry) :
    (s.reading held).deliverAll c (lines.map .line)
      = (s.reading (held ++ lines), .ok []) := by
  induction lines generalizing held with
  | nil => simp
  | cons l lines ih =>
      rw [List.forall_mem_cons] at fields digits
      have smaller : ((held ++ [l]).map Line.raw).flatten.length ≤ c.maxEventBytes := by
        simp only [List.map_append, List.flatten_append, List.length_append, List.map_cons,
          List.flatten_cons, List.map_nil, List.flatten_nil, List.length_nil] at small ⊢
        omega
      have first := deliver_field c s fields.1 smaller
      rw [if_neg digits.1] at first
      rw [List.map_cons, deliverAll_cons_ok first, ih _ fields.2 (by simpa using small) digits.2]
      simp [Except.map]

/-- The deliveries of a block: its lines, and the end of the stream for the last one. -/
def segmentDeliveries (g : Segment Line) : List Delivery :=
  g.body.map .line ++ g.stop.elim [.finish] fun l => [.line l]

theorem deliver_stop {c : Config} (s : BlockState) {g : Segment Line}
    (blank : ∀ l ∈ g.stop, l.text = [])
    (returns : (Block.ofSegment g).jsonProbe c ≠ .raises) :
    (s.reading g.body).deliverAll c (g.stop.elim [.finish] fun l => [.line l])
      = (s.afterBlock c (.ofSegment g), .ok ((Block.ofSegment g).frame c).toList) := by
  have ends := dispatch_reading c s (.ofSegment g) returns
  cases stop : g.stop with
  | none =>
      have raw : (Block.ofSegment g).raw = (g.body.map Line.raw).flatten := by
        simp [Block.raw, Block.fieldBytes, Block.ofSegment, stop]
      have same : { s.reading g.body with rawBlock := (Block.ofSegment g).raw }
          = s.reading g.body := by rw [raw]; rfl
      rw [show (Block.ofSegment g).lines = g.body from rfl, same] at ends
      simp only [Option.elim_none, deliverAll_singleton, deliver, reading_skipBlock,
        Bool.false_eq_true, if_false, ends, Except.map]
      rfl
  | some l =>
      have empty := blank l (by simp [stop])
      have raw : (Block.ofSegment g).raw = (g.body.map Line.raw).flatten ++ l.raw := by
        simp [Block.raw, Block.fieldBytes, Block.ofSegment, stop]
      rw [raw] at ends
      rw [Option.elim_some, deliverAll_singleton, deliver, consumeLine_of_reading rfl,
        if_pos empty]
      exact congrArg (fun r => (r.1, Except.map Option.toList r.2)) ends

end BlockState

/-- A segment of lines that the parser reads to its end: blank lines where blocks end,
nothing over the limit, nothing that raises. -/
structure Fits (c : Config) (g : Segment Line) : Prop where
  fields : ∀ l ∈ g.body, l.text ≠ []
  blank : ∀ l ∈ g.stop, l.text = []
  small : (Block.ofSegment g).fieldBytes.length ≤ c.maxEventBytes
  digits : ∀ l ∈ g.body, fieldOf l.text ≠ .longRetry
  json : (Block.ofSegment g).jsonProbe c ≠ .raises

namespace BlockState

theorem deliverAll_segment {c : Config} {s : BlockState} (clean : s.Clean)
    {g : Segment Line} (fits : Fits c g) :
    s.deliverAll c (segmentDeliveries g)
      = (s.afterBlock c (.ofSegment g), .ok ((Block.ofSegment g).frame c).toList) := by
  have fields : (s.reading []).deliverAll c (g.body.map .line)
      = (s.reading ([] ++ g.body), .ok []) :=
    deliverAll_fields s [] fits.fields fits.small fits.digits
  rw [clean, List.nil_append] at fields
  rw [segmentDeliveries, deliverAll_append_ok fields, deliver_stop s fits.blank fits.json]
  rfl

theorem deliverAll_segments {c : Config} {s : BlockState} (clean : s.Clean)
    {gs : List (Segment Line)} (fits : ∀ g ∈ gs, Fits c g) :
    s.deliverAll c (gs.flatMap segmentDeliveries)
      = ((gs.map Block.ofSegment).foldl (afterBlock c) s,
          .ok ((gs.map Block.ofSegment).filterMap (Block.frame c))) := by
  induction gs generalizing s with
  | nil => rfl
  | cons g gs ih =>
      rw [List.forall_mem_cons] at fits
      rw [List.flatMap_cons, deliverAll_append_ok (deliverAll_segment clean fits.1),
        ih (afterBlock_clean c s _) fits.2]
      cases frame : (Block.ofSegment g).frame c <;> simp [Except.map, frame]

theorem foldl_afterBlock (c : Config) (s : BlockState) (bs : List Block) :
    (bs.foldl (afterBlock c) s).malformed = s.malformed + (bs.flatMap (Block.notes c)).length
      ∧ (∀ reason, (bs.foldl (afterBlock c) s).reasons reason
          = s.reasons reason + (bs.flatMap (Block.notes c)).count reason)
      ∧ (bs.foldl (afterBlock c) s).lastEventId
          = (lastOf Field.idValue (bs.flatMap Block.lines)).getD s.lastEventId := by
  induction bs generalizing s with
  | nil => simp [lastOf, valuesOf]
  | cons b bs ih =>
      obtain ⟨malformed, reasons, lastId⟩ := ih (s.afterBlock c b)
      refine ⟨?_, fun reason => ?_, ?_⟩
      · rw [List.foldl_cons, malformed]
        simp [afterBlock, noteAll, Nat.add_assoc]
      · rw [List.foldl_cons, reasons]
        simp [afterBlock, noteAll, Nat.add_assoc]
      · rw [List.foldl_cons, lastId, List.flatMap_cons, lastOf_append]
        cases lastOf Field.idValue (bs.flatMap Block.lines) <;> simp [afterBlock]

end BlockState

/-- `json.loads` reports a bad document only as a `ValueError` or a `TypeError`, where it
is asked at all. -/
def Config.JsonTotal (c : Config) : Prop :=
  c.validateJson = true → ∀ text, c.jsonLoads text ≠ .raises

theorem Block.jsonProbe_ne_raises {c : Config} (total : c.JsonTotal) (b : Block) :
    b.jsonProbe c ≠ .raises := by
  unfold jsonProbe probeData
  split
  · dsimp only
    split
    · exact nofun
    · rename_i asked
      simp only [Bool.or_eq_true, not_or] at asked
      exact total (by simpa using asked.1.1) _
  · exact nofun

/-! ## The parser on a stream -/

theorem deliveries_of_small {max : ℕ} (positive : 0 < max) {ds : List Delivery}
    (discards : Reader.Discards max ds)
    (small : ∀ l ∈ (arrivals ds).map Arrival.line, l.raw.length ≤ max) :
    ds = ((arrivals ds).map Arrival.line).map .line := by
  have wholes : ∀ a ∈ arrivals ds, a.parts = [.line a.line] := by
    intro a member
    rcases arrivals_shape positive discards a member with whole | ⟨beyond, _⟩
    · rw [whole]; rfl
    · exact absurd (small _ (List.mem_map_of_mem member)) (Nat.not_le.2 beyond)
  calc ds = (arrivals ds).flatMap Arrival.parts := (arrivals_parts discards.1).symm
    _ = (arrivals ds).flatMap fun a => [.line a.line] := List.flatMap_congr wholes
    _ = ((arrivals ds).map Arrival.line).map .line := by
        simp [← List.map_eq_flatMap, Function.comp_def]

theorem lines_eq_segments (ls : List Line) :
    ls.map Delivery.line ++ [.finish]
      = (segments isBlank [] ls).flatMap BlockState.segmentDeliveries := by
  have cut := segments_flatMap isBlank (fun l => [Delivery.line l]) [.finish] [] ls
  simp only [List.flatMap_nil, List.nil_append, ← List.map_eq_flatMap] at cut
  exact cut.symm

theorem fits_of_stream {c : Config} {stream : Bytes} (total : c.JsonTotal)
    (small : ∀ b ∈ streamBlocks stream, b.raw.length ≤ c.maxEventBytes)
    (digits : ∀ b ∈ streamBlocks stream, ∀ l ∈ b.lines, fieldOf l.text ≠ .longRetry) :
    ∀ g ∈ segments isBlank [] (streamLines (Reader.body stream)), Fits c g := by
  intro g member
  have block : Block.ofSegment g ∈ streamBlocks stream := List.mem_map_of_mem member
  obtain ⟨fields, blank⟩ := segments_separate (by simp) member
  have fieldsFit := small _ block
  rw [Block.raw, List.length_append] at fieldsFit
  exact {
    fields := fun l inBody => by simpa [isBlank] using fields l inBody
    blank := fun l isStop => by simpa [isBlank] using blank l isStop
    small := by omega
    digits := digits _ block
    json := Block.jsonProbe_ne_raises total _ }

theorem Block.raw_ofSegment (g : Segment Line) :
    (Block.ofSegment g).raw = (g.members.map Line.raw).flatten := by
  cases stop : g.stop <;>
    simp [Block.raw, Block.fieldBytes, Block.ofSegment, Segment.members, stop]

theorem line_le_of_blocks {stream : Bytes} {max : ℕ}
    (small : ∀ b ∈ streamBlocks stream, b.raw.length ≤ max) :
    ∀ l ∈ streamLines (Reader.body stream), l.raw.length ≤ max := by
  intro l member
  have inSegments := segments_members isBlank [] (streamLines (Reader.body stream))
  rw [List.nil_append] at inSegments
  rw [← inSegments] at member
  obtain ⟨g, segment, inSegment⟩ := List.mem_flatMap.1 member
  have block := small (.ofSegment g) (List.mem_map_of_mem segment)
  rw [Block.raw_ofSegment] at block
  have inBlock : l.raw.Sublist (g.members.map Line.raw).flatten :=
    List.sublist_flatten_of_mem (List.mem_map_of_mem inSegment)
  exact Nat.le_trans inBlock.length_le block

theorem calls_fresh (max : ℕ) (chunks : List Bytes) :
    (Reader.calls max ⟨[], false⟩ (Reader.callsOf chunks)).1
      = Reader.stream max ⟨[], false⟩ chunks ++ [.finish] := by
  rw [Reader.calls_callsOf]

theorem stream_lines_fresh (max : ℕ) (chunks : List Bytes) :
    (arrivals (Reader.stream max ⟨[], false⟩ chunks)).map Arrival.line
      = streamLines (Reader.body chunks.flatten) :=
  Reader.stream_lines max ⟨by decide, by decide⟩ chunks

/-- **The incremental parser is the reference parser**: fed in any chunks and flushed, it
returns the frames, counts the malformed notes and keeps the last event id that the
reference reads off the whole stream. -/
theorem feed_flush_eq_reference (c : Config) (chunks : List Bytes) (total : c.JsonTotal)
    (small : ∀ b ∈ streamBlocks chunks.flatten, b.raw.length ≤ c.maxEventBytes)
    (digits : ∀ b ∈ streamBlocks chunks.flatten,
      ∀ l ∈ b.lines, fieldOf l.text ≠ .longRetry) :
    let session := Session.run c (Reader.callsOf chunks)
    let expected := reference c chunks.flatten
    session.Returned expected.frames
      ∧ session.parser.block.malformed = expected.notes.length
      ∧ (∀ reason, session.parser.block.reasons reason = expected.notes.count reason)
      ∧ session.parser.block.lastEventId = expected.lastEventId := by
  have fits := fits_of_stream total small digits
  have lines := stream_lines_fresh c.maxEventBytes chunks
  have asLines := deliveries_of_small c.positive
    (Reader.stream_discards c.maxEventBytes ⟨[], false⟩ chunks)
    (by rw [lines]; exact line_le_of_blocks small)
  rw [lines] at asLines
  have delivered : BlockState.fresh.deliverAll c
      (Reader.calls c.maxEventBytes ⟨[], false⟩ (Reader.callsOf chunks)).1
      = ((streamBlocks chunks.flatten).foldl (BlockState.afterBlock c) .fresh,
          .ok (reference c chunks.flatten).frames) := by
    rw [calls_fresh, asLines, lines_eq_segments]
    exact BlockState.deliverAll_segments BlockState.fresh_clean fits
  have none : Session.fresh.Returned [] := ⟨[], rfl, rfl⟩
  obtain ⟨parser, returned⟩ := Session.runSchedule_returned none delivered
  obtain ⟨malformed, reasons, lastId⟩ :=
    BlockState.foldl_afterBlock c .fresh (streamBlocks chunks.flatten)
  refine ⟨returned, ?_, fun reason => ?_, ?_⟩
  · rw [Session.run, parser, malformed]
    exact Nat.zero_add _
  · rw [Session.run, parser, reasons]
    exact Nat.zero_add _
  · rw [Session.run, parser, lastId]
    rfl

/-- A BOM, a character and two CRLFs, each cut in the middle. -/
def splitEverywhere : List Bytes :=
  [[0xEF], [0xBB, 0xBF, 0x64, 0x61, 0x74, 0x61, 0x3A, 0x20, 0xE4], [0xBD, 0xA0, cr], [],
    [lf, 0x69, 0x64, 0x3A, 0x37, cr, lf, cr], [lf, 0x64, 0x61, 0x74, 0x61]]

theorem splitEverywhere_eq_reference :
    let session := Session.run (.default fun _ => .accepts) (Reader.callsOf splitEverywhere)
    session.Returned (reference (.default fun _ => .accepts) splitEverywhere.flatten).frames
      ∧ (reference (.default fun _ => .accepts) splitEverywhere.flatten).frames.map
          SseFrame.data = ["你", ""] := by
  refine ⟨?_, by decide +kernel⟩
  exact (feed_flush_eq_reference (.default fun _ => .accepts) splitEverywhere
    (fun _ _ => nofun) (by decide +kernel) (by decide +kernel)).1

end Zhongzhuan.Protocol.Sse
