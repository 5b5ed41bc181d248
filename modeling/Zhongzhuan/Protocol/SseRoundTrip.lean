import Zhongzhuan.Kit.JsonText
import Zhongzhuan.Protocol.SseReference

/-!
# Writing frames and reading them back

The frames that the proxy writes, an event with its type and one line of data, and the heartbeat
comment.  `frames_read_back`: a stream of such frames, cut in any way, is read back by the parser
frame by frame, as long as no frame is over its limit.
-/

namespace Zhongzhuan.Protocol.Sse

open Kit

/-- A frame that is written. -/
inductive WireFrame
  | event (type data : String)
  /-- `SSE_HEARTBEAT_FRAME`. -/
  | heartbeat
deriving DecidableEq, Repr

namespace WireFrame

/-- The text of a frame. -/
def text : WireFrame → String
  | .event type data => "event: " ++ type ++ "\ndata: " ++ data ++ "\n\n"
  | .heartbeat => ": hb\n\n"

/-- The bytes of a frame. -/
def bytes (f : WireFrame) : Bytes := Utf8.encode f.text.toList

/-- Type and data are one line each. -/
def Plain : WireFrame → Prop
  | .event type data => OneLine type.toList ∧ OneLine data.toList
  | .heartbeat => True

/-- The lines before the blank one. -/
def fields : WireFrame → List Bytes
  | .event type data =>
    [Utf8.encode ("event: ".toList ++ type.toList), Utf8.encode ("data: ".toList ++ data.toList)]
  | .heartbeat => [Utf8.encode ": hb".toList]

/-- The block that the frame is read as. -/
def block (f : WireFrame) : Block := ⟨f.fields.map fun line => ⟨line, [lf]⟩, [lf]⟩

/-- What the parser returns for the frame. -/
def parsed (f : WireFrame) : Option SseFrame :=
  match f with
  | .event type data => some ⟨some type, data, none, none, f.bytes⟩
  | .heartbeat => none

end WireFrame

/-! ## One frame -/

theorem plain_encode {text : List Char} (oneLine : OneLine text) :
    ∀ b ∈ Utf8.encode text, Plain b := by
  intro b mem
  obtain ⟨c, inText, inChar⟩ := List.mem_flatMap.mp mem
  obtain ⟨notLf, notCr⟩ := oneLine c inText
  constructor
  · rintro rfl
    have same := Utf8.eq_of_mem_encodeChar inChar (by decide)
    exact notLf (Char.ext (UInt32.toNat_inj.mp same.symm))
  · rintro rfl
    have same := Utf8.eq_of_mem_encodeChar inChar (by decide)
    exact notCr (Char.ext (UInt32.toNat_inj.mp same.symm))

theorem streamLines_line {x : Bytes} (plain : ∀ b ∈ x, Plain b) (rest : Bytes) :
    streamLines (x ++ lf :: rest) = ⟨x, [lf]⟩ :: streamLines rest := by
  rw [streamLines_plain plain, streamLines_lf]
  simp [Line.prepend]

theorem plain_fields {f : WireFrame} (plain : f.Plain) :
    ∀ line ∈ f.fields, ∀ b ∈ line, Plain b := by
  have typeName : OneLine "event: ".toList := by simp [OneLine]
  have dataName : OneLine "data: ".toList := by simp [OneLine]
  have comment : OneLine ": hb".toList := by simp [OneLine]
  intro line mem
  cases f with
  | event type data =>
      simp only [WireFrame.fields, List.mem_cons, List.not_mem_nil, or_false] at mem
      rcases mem with rfl | rfl
      · exact plain_encode (oneLine_append.mpr ⟨typeName, plain.1⟩)
      · exact plain_encode (oneLine_append.mpr ⟨dataName, plain.2⟩)
  | heartbeat =>
      rw [WireFrame.fields, List.mem_singleton] at mem
      rw [mem]
      exact plain_encode comment

theorem fields_ne_nil {f : WireFrame} : ∀ line ∈ f.fields, line ≠ [] := by
  intro line mem
  cases f with
  | event type data =>
      simp only [WireFrame.fields, List.mem_cons, List.not_mem_nil, or_false] at mem
      rcases mem with rfl | rfl
      all_goals
        simp [Utf8.encode, String.utf8EncodeChar_ne_nil]
  | heartbeat =>
      rw [WireFrame.fields, List.mem_singleton] at mem
      rw [mem]
      decide

theorem bytes_eq (f : WireFrame) : f.bytes = f.block.raw := by
  have newline : Utf8.encode "\n".toList = [lf] := by decide
  cases f with
  | event type data =>
      have cut : (WireFrame.event type data).text.toList
          = ("event: ".toList ++ type.toList) ++ "\n".toList
            ++ (("data: ".toList ++ data.toList) ++ "\n".toList) ++ "\n".toList := by
        simp [WireFrame.text]
      rw [WireFrame.bytes, cut]
      simp only [WireFrame.block, WireFrame.fields, Block.raw, Block.fieldBytes, Line.raw,
        Utf8.encode_append, newline, List.map_cons, List.map_nil, List.flatten_cons,
        List.flatten_nil, List.append_nil, List.append_assoc]
  | heartbeat => decide

/-! ## What a line of a frame means -/

theorem fieldOf_event (type : String) :
    fieldOf (Utf8.encode ("event: ".toList ++ type.toList)) = .event type := by
  have name : "event: ".toList = ['e', 'v', 'e', 'n', 't', ':', ' '] := by simp
  have noComment : isComment (Utf8.encode ("event: ".toList ++ type.toList)) = false := by
    rw [name]
    rfl
  rw [fieldOf, noComment, Utf8.decodeReplacing_encode, name]
  simp [BlockState.splitField, fieldOfPair]

theorem fieldOf_data (data : String) :
    fieldOf (Utf8.encode ("data: ".toList ++ data.toList)) = .data data := by
  have name : "data: ".toList = ['d', 'a', 't', 'a', ':', ' '] := by simp
  have noComment : isComment (Utf8.encode ("data: ".toList ++ data.toList)) = false := by
    rw [name]
    rfl
  rw [fieldOf, noComment, Utf8.decodeReplacing_encode, name]
  simp [BlockState.splitField, fieldOfPair]

theorem fieldOf_heartbeat : fieldOf (Utf8.encode ": hb".toList) = .ignored := by
  have comment : isComment (Utf8.encode ": hb".toList) = true := by decide
  rw [fieldOf, comment]
  rfl

theorem frame_block (c : Config) (f : WireFrame) : f.block.frame c = f.parsed := by
  cases f with
  | event type data =>
      have raw := bytes_eq (.event type data)
      have lines : (WireFrame.event type data).block.lines
          = [⟨Utf8.encode ("event: ".toList ++ type.toList), [lf]⟩,
            ⟨Utf8.encode ("data: ".toList ++ data.toList), [lf]⟩] := rfl
      rw [Block.frame, ← raw, lines, WireFrame.parsed]
      simp only [valuesOf, lastOf, List.filterMap_cons, List.filterMap_nil, fieldOf_event,
        fieldOf_data, Field.dataValue, Field.eventValue, Field.idValue, Field.retryValue]
      rfl
  | heartbeat =>
      have lines : WireFrame.heartbeat.block.lines = [⟨Utf8.encode ": hb".toList, [lf]⟩] := rfl
      rw [Block.frame, lines, WireFrame.parsed]
      simp only [valuesOf, lastOf, List.filterMap_cons, List.filterMap_nil, fieldOf_heartbeat,
        Field.dataValue, Field.eventValue, Field.idValue, Field.retryValue]
      simp [dispatches]

/-! ## A stream of frames -/

/-- The bytes of a stream. -/
def streamOf (frames : List WireFrame) : Bytes := frames.flatMap WireFrame.bytes

theorem streamLines_fields {fields : List Bytes} (plain : ∀ line ∈ fields, ∀ b ∈ line, Plain b)
    (rest : Bytes) :
    streamLines (((fields.map fun line => (⟨line, [lf]⟩ : Line)).map Line.raw).flatten ++ rest)
      = (fields.map fun line => ⟨line, [lf]⟩) ++ streamLines rest := by
  induction fields with
  | nil => rfl
  | cons line fields ih =>
      rw [List.forall_mem_cons] at plain
      simp only [List.map_cons, List.flatten_cons, Line.raw, List.append_assoc,
        List.singleton_append, List.cons_append]
      rw [streamLines_line plain.1]
      exact congrArg (⟨line, [lf]⟩ :: ·) (ih plain.2)

theorem streamLines_frame {f : WireFrame} (plain : f.Plain) (rest : Bytes) :
    streamLines (f.bytes ++ rest) = f.block.lines ++ ⟨[], [lf]⟩ :: streamLines rest := by
  rw [bytes_eq, Block.raw, Block.fieldBytes, List.append_assoc]
  have lines := streamLines_fields (plain_fields plain) (f.block.stop ++ rest)
  have blank : streamLines (f.block.stop ++ rest) = ⟨[], [lf]⟩ :: streamLines rest :=
    streamLines_lf rest
  rw [blank] at lines
  exact lines

theorem segments_block {lines : List Line} (fields : ∀ l ∈ lines, isBlank l = false)
    (held : List Line) {blank : Line} (stop : isBlank blank = true) (rest : List Line) :
    segments isBlank held (lines ++ blank :: rest)
      = ⟨held ++ lines, some blank⟩ :: segments isBlank [] rest := by
  induction lines generalizing held with
  | nil => rw [List.nil_append, segments, if_pos stop, List.append_nil]
  | cons l lines ih =>
      rw [List.forall_mem_cons] at fields
      rw [List.cons_append, segments, fields.1, if_neg Bool.false_ne_true, ih fields.2]
      simp

theorem body_streamOf (frames : List WireFrame) :
    Reader.body (streamOf frames) = streamOf frames := by
  have noMark : (streamOf frames).take 3 ≠ bom := by
    intro mark
    have head : (streamOf frames).head? = some 0xEF := by
      cases stream : streamOf frames with
      | nil =>
          rw [stream] at mark
          cases mark
      | cons b bs =>
          rw [stream, List.take_succ_cons] at mark
          exact congrArg some (List.cons.inj mark).1
    cases frames with
    | nil => cases head
    | cons f frames =>
        cases f with
        | event type data =>
            have name : (WireFrame.event type data).text.toList
                = 'e' :: ("vent: ".toList ++ type.toList ++ "\ndata: ".toList ++ data.toList
                    ++ "\n\n".toList) := by
              simp [WireFrame.text]
            rw [streamOf, List.flatMap_cons, WireFrame.bytes, name] at head
            exact absurd (Option.some.inj head) (by decide)
        | heartbeat => exact absurd (Option.some.inj head) (by decide)
  rw [Reader.body, if_neg noMark]

theorem streamBlocks_streamOf {frames : List WireFrame} (plain : ∀ f ∈ frames, f.Plain) :
    streamBlocks (streamOf frames) = frames.map WireFrame.block ++ [⟨[], []⟩] := by
  rw [streamBlocks, body_streamOf]
  induction frames with
  | nil => rfl
  | cons f frames ih =>
      rw [List.forall_mem_cons] at plain
      have fields : ∀ l ∈ f.block.lines, isBlank l = false := by
        intro l mem
        obtain ⟨line, inFields, rfl⟩ := List.mem_map.mp mem
        simpa [isBlank] using fields_ne_nil line inFields
      have blocks := ih plain.2
      rw [streamOf, List.flatMap_cons, streamLines_frame plain.1, segments_block fields [] rfl,
        List.nil_append, List.map_cons, List.map_cons, List.cons_append]
      exact congrArg (f.block :: ·) blocks

theorem fieldOf_ne_longRetry (f : WireFrame) :
    ∀ l ∈ f.block.lines, fieldOf l.text ≠ .longRetry := by
  intro l mem
  obtain ⟨line, inFields, rfl⟩ := List.mem_map.mp mem
  cases f with
  | event type data =>
      simp only [WireFrame.fields, List.mem_cons, List.not_mem_nil, or_false] at inFields
      rcases inFields with rfl | rfl
      · rw [fieldOf_event]
        simp
      · rw [fieldOf_data]
        simp
  | heartbeat =>
      rw [WireFrame.fields, List.mem_singleton] at inFields
      rw [inFields, fieldOf_heartbeat]
      simp

/-- **What was written is read back**: a stream of frames within the limit, cut in any way, gives
the events of its frames. -/
theorem frames_read_back {c : Config} (total : c.JsonTotal) {frames : List WireFrame}
    (plain : ∀ f ∈ frames, f.Plain) (fits : ∀ f ∈ frames, f.bytes.length ≤ c.maxEventBytes)
    {chunks : List Bytes} (stream : chunks.flatten = streamOf frames) :
    (Session.run c (Reader.callsOf chunks)).Returned (frames.filterMap WireFrame.parsed) := by
  have blocks := streamBlocks_streamOf plain
  have small : ∀ b ∈ streamBlocks chunks.flatten, b.raw.length ≤ c.maxEventBytes := by
    rw [stream, blocks]
    intro b mem
    rcases List.mem_append.mp mem with inFrames | last
    · obtain ⟨f, inList, rfl⟩ := List.mem_map.mp inFrames
      rw [← bytes_eq]
      exact fits f inList
    · rw [List.mem_singleton.mp last]
      exact Nat.zero_le _
  have digits : ∀ b ∈ streamBlocks chunks.flatten, ∀ l ∈ b.lines,
      fieldOf l.text ≠ .longRetry := by
    rw [stream, blocks]
    intro b mem l inBlock
    rcases List.mem_append.mp mem with inFrames | last
    · obtain ⟨f, -, rfl⟩ := List.mem_map.mp inFrames
      exact fieldOf_ne_longRetry f l inBlock
    · rw [List.mem_singleton.mp last] at inBlock
      exact absurd inBlock List.not_mem_nil
  have frames' : (reference c chunks.flatten).frames = frames.filterMap WireFrame.parsed := by
    have last : (⟨[], []⟩ : Block).frame c = none := by
      simp [Block.frame, dispatches, valuesOf, lastOf]
    have each : (fun f => Block.frame c (WireFrame.block f)) = WireFrame.parsed :=
      funext (frame_block c)
    rw [reference, stream, blocks, List.filterMap_append, List.filterMap_map]
    simp only [Function.comp_def, each, List.filterMap_cons, last, List.filterMap_nil,
      List.append_nil]
  rw [← frames']
  exact (feed_flush_eq_reference c chunks total small digits).1

end Zhongzhuan.Protocol.Sse
