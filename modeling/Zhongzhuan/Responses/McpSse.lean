import Zhongzhuan.Kit.StrLines
import Zhongzhuan.Protocol.SseReference
import Zhongzhuan.Proxy.FrameContent

/-!
# An event stream read by the MCP client

`_parse_sse_jsonrpc` looks for the answer of a JSON-RPC call in the body of an event stream.  It
does not use `SSEParser` but cuts the text into lines and blocks itself.

* `parseSseJsonrpc` is the function, `jsonrpcBlocks` its loop over the lines.
* `firstAnswer` is the first answer among the data of events.
* `PlainBody` says of a text that none of the differences between the two readers shows in it: no
  byte order mark, no end of a line but CR and LF, no line of blanks, no `data` without a colon,
  and no `retry` with more digits than `int` takes.
* `jsonrpc_agrees`: then both find the same answer.

The nesting of the values is within the recursion limit of the interpreter.
-/

namespace Zhongzhuan.Responses

open Kit Kit.JsonDoc Protocol Protocol.Sse Proxy

/-! ## The function -/

/-- What a `data:` line adds to a block. -/
def dataChunk (line : List Char) : String :=
  let chunk := line.drop dataField.length
  String.ofList (if chunk.head? = some ' ' then chunk.tail else chunk)

/-- `_flush`. -/
def flushBlock (dataLines : List String) : List String :=
  if dataLines = [] then [] else [String.intercalate "\n" dataLines]

/-- The blocks, with the `data` lines of the current one. -/
def jsonrpcBlocks (dataLines : List String) : List (List Char) → List String
  | [] => flushBlock dataLines
  | line :: lines =>
    if dataField.isPrefixOf line then jsonrpcBlocks (dataLines ++ [dataChunk line]) lines
    else if strip line = [] then flushBlock dataLines ++ jsonrpcBlocks [] lines
    else jsonrpcBlocks dataLines lines

variable (rd : FloatReader)

/-- The answer in a block: an object with a result or an error. -/
def answerOf (block : String) : Option JsonObject :=
  let text := strip block.toList
  if text = [] ∨ text = "[DONE]".toList then none
  else
    match loads rd text with
    | some (.obj decoded) =>
      if (member decoded "result").isSome || (member decoded "error").isSome then some decoded
      else none
    | _ => none

/-- The first answer among the data of events. -/
def firstAnswer (blocks : List String) : Option JsonObject :=
  blocks.findSome? (answerOf rd)

/-- `_parse_sse_jsonrpc`; none is a `McpTransportError`. -/
def parseSseJsonrpc (payload : Bytes) : Option JsonObject :=
  firstAnswer rd (jsonrpcBlocks [] (splitlines (Utf8.decodeReplacing payload)))

/-! ## Bodies that both read alike -/

/-- A line that both readers take for the same. -/
structure PlainLine (line : List Char) : Prop where
  /-- A line of blanks ends a block for the one and not for the other. -/
  blank : strip line = [] → line = []
  /-- Without a colon, `data` is a field without a value for the one and nothing for the other. -/
  colon : line ≠ "data".toList
  /-- The number is too long for `int`, and the parser raises. -/
  retry : fieldOf (Utf8.encode line) ≠ .longRetry

/-- A text that both readers cut alike. -/
structure PlainBody (text : List Char) : Prop where
  noBom : text.head? ≠ some '\uFEFF'
  breaks : ∀ c ∈ text, isLineBreak c → c = '\n' ∨ c = '\r'
  lines : ∀ line ∈ splitlines text, PlainLine line

/-! ## Lines of bytes and lines of characters -/

section Lines

theorem ne_of_mem_encodeChar {c d : Char} (small : d.toNat < 0x80) (other : c ≠ d) :
    ∀ b ∈ String.utf8EncodeChar c, b ≠ UInt8.ofNat d.toNat := by
  intro b mem same
  have value : b.toNat = d.toNat := by rw [same, Utf8.toNat_ofNat (by omega)]
  have char := Utf8.eq_of_mem_encodeChar mem (by omega)
  exact other (Char.toNat_inj.mp (char.symm.trans value))

theorem plain_encodeChar {c : Char} (notLf : c ≠ '\n') (notCr : c ≠ '\r') :
    ∀ b ∈ String.utf8EncodeChar c, Plain b := fun b mem =>
  ⟨ne_of_mem_encodeChar (d := '\n') (by decide) notLf b mem,
    ne_of_mem_encodeChar (d := '\r') (by decide) notCr b mem⟩

theorem encode_cons (c : Char) (text : List Char) :
    Utf8.encode (c :: text) = String.utf8EncodeChar c ++ Utf8.encode text := rfl

theorem encode_eq_nil {text : List Char} : Utf8.encode text = [] ↔ text = [] := by
  cases text with
  | nil => simp
  | cons c text => simp [encode_cons, String.utf8EncodeChar_ne_nil]

/-- **The lines of the bytes are the lines of the text**, when only CR and LF end lines. -/
theorem streamLines_encode {text : List Char}
    (breaks : ∀ c ∈ text, isLineBreak c → c = '\n' ∨ c = '\r') :
    (streamLines (Utf8.encode text)).map Line.text = (splitlines text).map Utf8.encode := by
  induction text using splitlines.induct with
  | case1 => simp [splitlines]
  | case2 cs ih =>
    have rest := ih fun c mem => breaks c (by simp [mem])
    show (streamLines (cr :: lf :: Utf8.encode cs)).map Line.text = _
    rw [streamLines_crlf, splitlines_crlf, List.map_cons, List.map_cons, rest]
    rfl
  | case3 c cs single broken ih =>
    have rest := ih fun c mem => breaks c (List.mem_cons_of_mem _ mem)
    rw [splitlines.eq_3 c cs single, if_pos broken, List.map_cons, ← rest]
    rcases breaks c List.mem_cons_self broken with rfl | rfl
    · show (streamLines (lf :: Utf8.encode cs)).map Line.text = _
      rw [streamLines_lf]
      rfl
    · have noLf : (Utf8.encode cs).head? ≠ some lf := by
        intro first
        cases cs with
        | nil => cases first
        | cons d ds =>
          have other : d ≠ '\n' := fun same => single ds rfl (by rw [same])
          rw [encode_cons, List.head?_append_of_ne_nil _ String.utf8EncodeChar_ne_nil] at first
          exact ne_of_mem_encodeChar (d := '\n') (by decide) other lf
            (List.mem_of_head? first) rfl
      show (streamLines (cr :: Utf8.encode cs)).map Line.text = _
      rw [streamLines_cr noLf]
      rfl
  | case4 c cs single plain ih =>
    have rest := ih fun c mem => breaks c (List.mem_cons_of_mem _ mem)
    have plain' : isLineBreak c = false := by simpa using plain
    have notLf : c ≠ '\n' := by
      rintro rfl
      exact absurd plain' (by decide)
    have notCr : c ≠ '\r' := by
      rintro rfl
      exact absurd plain' (by decide)
    rw [splitlines_char plain', encode_cons, streamLines_plain (plain_encodeChar notLf notCr)]
    rcases first : splitlines cs with _ | ⟨line, lines⟩
    · have none_ : streamLines (Utf8.encode cs) = [] := by simpa [first] using rest
      simp [none_, prependChar, encode_cons, String.utf8EncodeChar_ne_nil]
    · rw [first, List.map_cons] at rest
      obtain ⟨l, ls, cut⟩ : ∃ l ls, streamLines (Utf8.encode cs) = l :: ls := by
        cases cut : streamLines (Utf8.encode cs) with
        | nil => simp [cut] at rest
        | cons l ls => exact ⟨l, ls, rfl⟩
      rw [cut, List.map_cons] at rest
      obtain ⟨here, others⟩ := List.cons.inj rest
      rw [cut, prependChar, List.map_cons, List.map_cons, others, encode_cons, ← here]
      rfl

end Lines

/-! ## Data values -/

section Values

theorem dataValue_of_other {name value : List Char} (other : name ≠ "data".toList) :
    (fieldOfPair name value).dataValue = none := by
  unfold fieldOfPair
  rw [if_neg other]
  split
  · rfl
  split
  · split <;> rfl
  split
  · split
    · split <;> rfl
    · rfl
  · rfl

theorem dataValue_encode {line : List Char} (colon : line ≠ "data".toList) :
    (fieldOf (Utf8.encode line)).dataValue =
      if dataField.isPrefixOf line then some (dataChunk line) else none := by
  cases line with
  | nil => decide
  | cons c cs =>
    by_cases comment : c = ':'
    · -- a comment
      subst comment
      have isComment_ : isComment (Utf8.encode (':' :: cs)) = true := rfl
      rw [fieldOf, if_pos isComment_, if_neg (by simp [dataField])]
      rfl
    · have noComment : isComment (Utf8.encode (c :: cs)) = false := by
        rw [isComment, encode_cons, List.head?_append_of_ne_nil _ String.utf8EncodeChar_ne_nil]
        refine decide_eq_false fun first => ?_
        exact ne_of_mem_encodeChar (d := ':') (by decide) comment _ (List.mem_of_head? first) rfl
      rw [fieldOf, noComment, if_neg Bool.false_ne_true, Utf8.decodeReplacing_encode]
      generalize c :: cs = line at colon ⊢
      have whole : line.takeWhile (· ≠ ':') ++ line.dropWhile (· ≠ ':') = line :=
        List.takeWhile_append_dropWhile
      -- where the line begins with `data:`, its name is `data`
      have named : dataField.isPrefixOf line → line.takeWhile (· ≠ ':') = "data".toList := by
        intro field
        obtain ⟨rest, rfl⟩ := List.isPrefixOf_iff_prefix.mp field
        rfl
      unfold BlockState.splitField
      rcases tail : line.dropWhile (· ≠ ':') with _ | ⟨d, value⟩
      · rw [tail, List.append_nil] at whole
        rw [dataValue_of_other colon, if_neg fun field => colon (whole ▸ named field)]
      · have isColon : d = ':' := by
          have first := List.head?_dropWhile_not (· ≠ ':') line
          rw [tail] at first
          simpa using first
        subst isColon
        by_cases data : line.takeWhile (· ≠ ':') = "data".toList
        · have text : line = dataField ++ value := by
            rw [← whole, tail, data]
            rfl
          have chunk : dataChunk line =
              String.ofList (if value.head? = some ' ' then value.tail else value) := by
            rw [dataChunk, text, List.drop_left]
          have field : dataField.isPrefixOf line := by
            rw [text]
            exact List.isPrefixOf_iff_prefix.mpr (List.prefix_append _ _)
          dsimp only
          rw [data, if_pos field, chunk]
          rfl
        · dsimp only
          rw [dataValue_of_other data, if_neg fun field => data (named field)]

end Values

/-! ## Blocks -/

section Blocks

variable {rd} {c : Config}

/-- A line of the stream that both readers take for the same. -/
structure ReadAlike (l : Line) (line : List Char) : Prop where
  text : l.text = Utf8.encode line
  blank : strip line = [] → line = []
  colon : line ≠ "data".toList

theorem answerOf_empty : answerOf rd "" = none := by
  rw [answerOf]
  exact if_pos (Or.inl (by decide))

theorem answer_of_frame (b : Block) :
    firstAnswer rd ((b.frame c).toList.map SseFrame.data) =
      firstAnswer rd (flushBlock (valuesOf Field.dataValue b.lines)) := by
  unfold Block.frame flushBlock
  by_cases none_ : valuesOf Field.dataValue b.lines = []
  · rw [none_, if_pos rfl]
    split
    · -- an event without data
      show [String.intercalate "\n" []].findSome? (answerOf rd) = _
      have empty : String.intercalate "\n" [] = "" := rfl
      rw [empty, List.findSome?_cons, answerOf_empty]
      rfl
    · rfl
  · have sent : dispatches c (valuesOf Field.dataValue b.lines)
        (lastOf Field.eventValue b.lines) (lastOf Field.idValue b.lines)
        (lastOf Field.retryValue b.lines) = true := by
      simp [dispatches, none_]
    rw [if_pos sent, if_neg none_]
    rfl

theorem firstAnswer_append (blocks more : List String) :
    firstAnswer rd (blocks ++ more) = (firstAnswer rd blocks).or (firstAnswer rd more) :=
  List.findSome?_append

theorem answers_of_lines {ls : List Line} {lines : List (List Char)}
    (alike : List.Forall₂ ReadAlike ls lines) (held : List Line) :
    firstAnswer rd ((((segments Sse.isBlank held ls).map Block.ofSegment).filterMap
        (Block.frame c)).map SseFrame.data) =
      firstAnswer rd (jsonrpcBlocks (valuesOf Field.dataValue held) lines) := by
  -- the events of a segment, and those of the others
  have split : ∀ (g : Segment Line) (gs : List (Segment Line)),
      firstAnswer rd ((((g :: gs).map Block.ofSegment).filterMap (Block.frame c)).map SseFrame.data)
        = (firstAnswer rd (flushBlock (valuesOf Field.dataValue g.body))).or
          (firstAnswer rd (((gs.map Block.ofSegment).filterMap (Block.frame c)).map
            SseFrame.data)) := by
    intro g gs
    have cons : ((g :: gs).map Block.ofSegment).filterMap (Block.frame c) =
        ((Block.ofSegment g).frame c).toList
          ++ (gs.map Block.ofSegment).filterMap (Block.frame c) := by
      rw [List.map_cons, List.filterMap_cons]
      cases (Block.ofSegment g).frame c <;> rfl
    rw [cons, List.map_append, firstAnswer_append, answer_of_frame]
    rfl
  induction alike generalizing held with
  | nil =>
    rw [segments, split, jsonrpcBlocks]
    exact Option.or_none
  | @cons l line ls lines here _ ih =>
    have empty : Sse.isBlank l = decide (line = []) := by
      rw [Sse.isBlank, here.text, Bool.eq_iff_iff, List.isEmpty_iff, encode_eq_nil,
        decide_eq_true_eq]
    rw [segments, empty, jsonrpcBlocks]
    by_cases stop : line = []
    · subst stop
      rw [if_pos (by simp), split, ih [], if_neg (by decide), if_pos (by decide),
        firstAnswer_append]
      rfl
    · rw [if_neg (by simp [stop]), ih (held ++ [l]), BlockState.valuesOf_concat]
      have value : Field.dataValue (fieldOf l.text) =
          if dataField.isPrefixOf line then some (dataChunk line) else none := by
        rw [here.text]
        exact dataValue_encode here.colon
      rw [value]
      by_cases field : dataField.isPrefixOf line
      · rw [if_pos field, if_pos field]
        rfl
      · rw [if_neg field, if_neg field, if_neg fun blank => stop (here.blank blank)]
        simp

end Blocks

/-! ## The two readers -/

section Readers

variable {rd} {c : Config} {text : List Char}

theorem body_encode (noBom : text.head? ≠ some '\uFEFF') :
    Reader.body (Utf8.encode text) = Utf8.encode text := by
  refine if_neg fun isBom => noBom ?_
  have mark : bom = String.utf8EncodeChar '\uFEFF' := by decide
  have whole : Utf8.encode text =
      String.utf8EncodeChar '\uFEFF' ++ (Utf8.encode text).drop 3 := by
    rw [← mark, ← isBom, List.take_append_drop]
  have decoded := Utf8.decode_encode text
  rw [whole, Utf8.decode, Utf8.decodeFrom_encodeChar] at decoded
  cases text with
  | nil => cases decoded
  | cons d ds =>
    rw [List.map_cons] at decoded
    exact (List.cons.inj decoded).1.symm

theorem body_length (stream : Bytes) : (Reader.body stream).length ≤ stream.length := by
  unfold Reader.body
  split
  · rw [List.length_drop]
    omega
  · exact le_rfl

theorem block_length {stream : Bytes} {b : Block} (mem : b ∈ streamBlocks stream) :
    b.raw.length ≤ stream.length := by
  obtain ⟨g, inStream, rfl⟩ := List.mem_map.mp mem
  have whole := segments_members Sse.isBlank [] (streamLines (Reader.body stream))
  rw [List.nil_append] at whole
  have bytes := streamLines_raw (Reader.body stream)
  rw [← whole] at bytes
  have part : (g.members.map Line.raw).flatten.length ≤ (Reader.body stream).length := by
    rw [← bytes]
    have sub : (g.members.map Line.raw).Sublist
        (((segments Sse.isBlank [] (streamLines (Reader.body stream))).flatMap
          Segment.members).map Line.raw) := by
      refine List.Sublist.map _ ?_
      rw [List.flatMap_def]
      exact List.sublist_flatten_of_mem (List.mem_map_of_mem inStream)
    exact sub.flatten.length_le
  rw [Block.raw_ofSegment]
  exact part.trans (body_length stream)

theorem alike_of_lines {ls : List Line} {lines : List (List Char)}
    (same : ls.map Line.text = lines.map Utf8.encode) (plain : ∀ line ∈ lines, PlainLine line) :
    List.Forall₂ ReadAlike ls lines := by
  induction lines generalizing ls with
  | nil =>
    obtain rfl := List.map_eq_nil_iff.mp same
    exact .nil
  | cons line lines ih =>
    obtain ⟨l, ls', rfl, here, others⟩ := List.map_eq_cons_iff.mp same
    obtain ⟨alike, rest⟩ := List.forall_mem_cons.mp plain
    exact .cons ⟨here, alike.blank, alike.colon⟩ (ih others rest)

theorem alike_of_plain (plain : PlainBody text) :
    List.Forall₂ ReadAlike (streamLines (Reader.body (Utf8.encode text))) (splitlines text) := by
  rw [body_encode plain.noBom]
  exact alike_of_lines (streamLines_encode plain.breaks) plain.lines

theorem digits_of_plain (plain : PlainBody text) {b : Block}
    (mem : b ∈ streamBlocks (Utf8.encode text)) : ∀ l ∈ b.lines, fieldOf l.text ≠ .longRetry := by
  intro l inBlock
  obtain ⟨g, inStream, rfl⟩ := List.mem_map.mp mem
  have whole := segments_members Sse.isBlank [] (streamLines (Reader.body (Utf8.encode text)))
  rw [List.nil_append] at whole
  have inLines : l ∈ streamLines (Reader.body (Utf8.encode text)) := by
    rw [← whole]
    exact List.mem_flatMap.mpr ⟨g, inStream, List.mem_append_left _ inBlock⟩
  have isLine : l.text ∈ (splitlines text).map Utf8.encode := by
    rw [← streamLines_encode plain.breaks, ← body_encode plain.noBom]
    exact List.mem_map_of_mem inLines
  obtain ⟨line, mem', same⟩ := List.mem_map.mp isLine
  rw [← same]
  exact (plain.lines line mem').retry

/-- An answer with a line separator in it. -/
def separatedAnswer : String := "data: \x7b\"result\": \"a\u2028b\"\x7d\n\n"

/-- An answer behind a byte order mark. -/
def markedAnswer : String := "\uFEFFdata: \x7b\"result\": 1\x7d\n\n"

/-- An answer with a line of one blank in it. -/
def spacedAnswer : String := "data: \x7b\"result\":\n \ndata: 1\x7d\n\n"

/-- The parser finds an answer in the body, and the MCP client finds none. -/
def AnswerLost (body : String) : Prop :=
  ∃ frames, (Session.run (.default fun _ => .accepts)
      [.feed (Utf8.encode body.toList), .flush]).Returned frames
    ∧ (Utf8.encode body.toList).length ≤ (Config.default fun _ => .accepts).maxEventBytes
    ∧ (firstAnswer .verbatim (frames.map SseFrame.data)).isSome
    ∧ parseSseJsonrpc .verbatim (Utf8.encode body.toList) = none

theorem answers_lost :
    AnswerLost separatedAnswer ∧ AnswerLost markedAnswer ∧ AnswerLost spacedAnswer := by
  have run : ∀ body : String,
      (∀ b ∈ streamBlocks [Utf8.encode body.toList].flatten,
        b.raw.length ≤ (Config.default fun _ => .accepts).maxEventBytes) →
      (∀ b ∈ streamBlocks [Utf8.encode body.toList].flatten,
        ∀ l ∈ b.lines, fieldOf l.text ≠ .longRetry) →
      (Session.run (.default fun _ => .accepts)
        [.feed (Utf8.encode body.toList), .flush]).Returned
          (reference (.default fun _ => .accepts) [Utf8.encode body.toList].flatten).frames :=
    fun body small digits =>
      (feed_flush_eq_reference (.default fun _ => .accepts) [Utf8.encode body.toList]
        (fun impossible => absurd impossible (by decide)) small digits).1
  refine ⟨?_, ?_, ?_⟩
  · exact ⟨_, run _ (by decide +kernel) (by decide +kernel), by decide +kernel,
      by decide +kernel, by decide +kernel⟩
  · exact ⟨_, run _ (by decide +kernel) (by decide +kernel), by decide +kernel,
      by decide +kernel, by decide +kernel⟩
  · exact ⟨_, run _ (by decide +kernel) (by decide +kernel), by decide +kernel,
      by decide +kernel, by decide +kernel⟩

/-- **The two readers agree** on every plain body. -/
theorem jsonrpc_agrees (rd : FloatReader) (c : Config) (total : c.JsonTotal) (text : List Char)
    (small : (Utf8.encode text).length ≤ c.maxEventBytes) (plain : PlainBody text) :
    ∃ frames, (Session.run c [.feed (Utf8.encode text), .flush]).Returned frames
      ∧ parseSseJsonrpc rd (Utf8.encode text) = firstAnswer rd (frames.map SseFrame.data) := by
  have stream : [Utf8.encode text].flatten = Utf8.encode text := by simp
  obtain ⟨returned, -⟩ := feed_flush_eq_reference c [Utf8.encode text] total
    (fun b mem => (block_length (stream ▸ mem)).trans small)
    (fun b mem => digits_of_plain plain (stream ▸ mem))
  rw [stream] at returned
  refine ⟨_, returned, ?_⟩
  rw [parseSseJsonrpc, Utf8.decodeReplacing_encode]
  exact (answers_of_lines (alike_of_plain plain) []).symm

/-- An answer in one line, and the blank line behind it. -/
def shortAnswer : List Char := "data: \x7b\"result\": 1\x7d\n\n".toList

theorem shortAnswer_plain : PlainBody shortAnswer where
  noBom := by decide +kernel
  breaks := fun c mem => by
    have all : shortAnswer.all fun c => !isLineBreak c || c = '\n' := by decide +kernel
    have here := List.all_eq_true.mp all c mem
    intro broken
    exact Or.inl (by simpa [broken] using here)
  lines := by
    have cut : splitlines shortAnswer = ["data: \x7b\"result\": 1\x7d".toList, []] := by
      decide +kernel
    rw [cut]
    refine List.forall_mem_cons.mpr ⟨⟨?_, ?_, ?_⟩, List.forall_mem_cons.mpr ⟨⟨?_, ?_, ?_⟩, ?_⟩⟩
    all_goals first | decide +kernel | simp

/-- Both readers find this answer. -/
theorem shortAnswer_read :
    ∃ frames, (Session.run (.default fun _ => .accepts)
        [.feed (Utf8.encode shortAnswer), .flush]).Returned frames
      ∧ parseSseJsonrpc .verbatim (Utf8.encode shortAnswer)
        = firstAnswer .verbatim (frames.map SseFrame.data) :=
  jsonrpc_agrees .verbatim (.default fun _ => .accepts)
    (fun impossible => absurd impossible (by decide)) shortAnswer (by decide +kernel)
    shortAnswer_plain

end Readers

end Zhongzhuan.Responses
