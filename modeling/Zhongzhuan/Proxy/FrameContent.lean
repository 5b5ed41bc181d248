import Zhongzhuan.Kit.JsonPhase
import Zhongzhuan.Kit.StrLines
import Zhongzhuan.Kit.Text
import Zhongzhuan.Kit.Utf8
import Zhongzhuan.Proxy.CreateStream
import Zhongzhuan.Proxy.SwapModelName
import Zhongzhuan.Responses.Events

/-!
# Frames with content

The streaming create commits its answer at the first frame that has content.  Whether a frame has
content is read from its bytes: `_v3_frame_has_content` decodes them, cuts the text into lines,
and reads the JSON of every line that begins with `data:`.

* `sseFrameBytes` is `sse_frame`, and `frameHasContent` is `_v3_frame_has_content`.
* `carriesContent` says of an event, without its frame, that it carries content.
* `SentEvent` is an event with the frame it is sent as.
* `frameHasContent_eq`: the frame of an event has content if the event carries some, is not a
  delta of a reasoning summary, whose name is not among the ones that are looked for, and has no
  string with one of three characters at which the lines are cut and which JSON does not escape.
* `content_seen_iff`: exactly then the two agree, and an attempt with text is retried unless an
  event of this kind is among its events.

The nesting of the values is within the recursion limit of the interpreter.
-/

namespace Zhongzhuan.Kit.JsonDoc

/-- `bool(v)`: empty, zero and `None` are false. -/
def Value.truthy : Value → Bool
  | .null => false
  | .bool b => b
  | .number text => !([['0'], ['0', '.', '0'], ['-', '0', '.', '0']].contains text)
  | .str string => string ≠ []
  | .arr items => !items.isEmpty
  | .obj fields => !fields.isEmpty

end Zhongzhuan.Kit.JsonDoc

namespace Zhongzhuan.Proxy

open Kit Kit.JsonDoc Responses

/-! ## Values -/

/-- The fields of a `dict`. -/
abbrev JsonObject := List (List ℕ × Value)

/-- `obj.get(key)`, and none for a field that is not there. -/
def member (obj : JsonObject) (key : String) : Option Value := obj.lookup (points key.toList)

/-- `obj.get("type") == name`. -/
def hasType (obj : JsonObject) (name : String) : Bool :=
  (member obj "type").any (isStr (points name.toList))

/-- `delta` is a nonempty string, or a `dict` with one of these fields set. -/
def hasDelta (obj : JsonObject) (keys : List String) : Bool :=
  match member obj "delta" with
  | some (.obj delta) => keys.any fun key => (member delta key).any Value.truthy
  | some (.str string) => string ≠ []
  | _ => false

/-- `item` is a `dict` of a type that is not `message`. -/
def hasOtherItem (obj : JsonObject) : Bool :=
  match member obj "item" with
  | some (.obj item) =>
    match member item "type" with
    | none | some .null => false
    | some v => !isStr (points "message".toList) v
  | _ => false

/-! ## The detector -/

/-- What `_v3_frame_has_content` asks of the object of a line. -/
def objectHasContent (obj : JsonObject) : Bool :=
  if hasType obj "response.output_text.delta" then hasDelta obj ["text"]
  else if hasType obj "response.reasoning.delta"
      || hasType obj "response.reasoning_summary.delta" then
    hasDelta obj ["text", "summary"]
  else if hasType obj "response.output_audio.delta" then true
  else if hasType obj "response.output_item.added" then hasOtherItem obj
  else if hasType obj "response.function_call_arguments.delta" then
    (member obj "delta").any Value.truthy
  else false

/-- `data:`. -/
def dataField : List Char := ['d', 'a', 't', 'a', ':']

variable (rd : FloatReader)

/-- What a line is worth. -/
def lineHasContent (line : List Char) : Bool :=
  if dataField.isPrefixOf line then
    let payload := strip (line.drop dataField.length)
    if payload = [] then false
    else
      match loads rd payload with
      | some (.obj obj) => objectHasContent obj
      | _ => false
  else false

/-- `_v3_frame_has_content`. -/
def frameHasContent (frame : Bytes) : Bool :=
  (splitlines (Utf8.decodeReplacing frame)).any (lineHasContent rd)

/-! ## Events -/

/-- `event:` and a space. -/
def eventField : List Char := ['e', 'v', 'e', 'n', 't', ':', ' ']

/-- The text of a frame with this JSON. -/
def frameText (type : EventType) (body : List Char) : List Char :=
  (eventField ++ type.value.toList) ++ '\n' :: ((dataField ++ ' ' :: body) ++ ['\n', '\n'])

/-- `sse_frame`; none is a `UnicodeEncodeError`. -/
def sseFrameBytes (type : EventType) (data : JsonObject) : Option Bytes :=
  (dumpsText (.obj data)).map fun body => Utf8.encode (frameText type body)

/-- The event is a nonempty delta of the text, of a reasoning summary or of the arguments of a
call, or adds an item that is no message. -/
def carriesContent (type : EventType) (data : JsonObject) : Bool :=
  match type with
  | .outputTextDelta => hasDelta data ["text"]
  | .reasoningSummaryTextDelta => hasDelta data ["text", "summary"]
  | .functionCallArgumentsDelta => (member data "delta").any Value.truthy
  | .outputItemAdded => hasOtherItem data
  | _ => false

/-- An event, and the frame it is sent as. -/
structure SentEvent where
  type : EventType
  data : JsonObject
  frame : Bytes
  /-- The data is what a `dict` can hold. -/
  canonical : (Value.obj data).Canonical rd
  typed : member data "type" = some (.str (points type.value.toList))
  sent : sseFrameBytes type data = some frame

/-! ## Cutting at breaks -/

section Cut

variable {c : Char}

theorem not_space_of_atomChar (atom : isAtomChar c) : isSpace c = false := by
  simp only [isAtomChar, Char.isAlphanum, Char.isAlpha, Char.isUpper, Char.isLower,
    Char.isDigit, Bool.or_eq_true, Bool.and_eq_true, decide_eq_true_eq,
    UInt32.le_iff_toNat_le, ge_iff_le] at atom
  change (((((65 ≤ c.toNat ∧ c.toNat ≤ 90) ∨ (97 ≤ c.toNat ∧ c.toNat ≤ 122))
    ∨ (48 ≤ c.toNat ∧ c.toNat ≤ 57)) ∨ c = '+') ∨ c = '-') ∨ c = '.' at atom
  simp only [isSpace, Bool.or_eq_false_iff, Bool.and_eq_false_iff, decide_eq_false_iff_not,
    beq_eq_false_iff_ne]
  rcases atom with ((((named | named) | named) | rfl) | rfl) | rfl
  · omega
  · omega
  · omega
  all_goals decide

theorem space_of_break (broken : isLineBreak c) : isSpace c := by
  simp only [isLineBreak, isSpace, Bool.or_eq_true, Bool.and_eq_true, decide_eq_true_eq,
    beq_iff_eq] at broken ⊢
  omega

theorem inner_of_break (broken : isLineBreak c) (printable : 32 ≤ c.toNat) :
    Inner c ∧ (c.toNat = 0x85 ∨ c.toNat = 0x2028 ∨ c.toNat = 0x2029) := by
  have which : c.toNat = 0x85 ∨ c.toNat = 0x2028 ∨ c.toNat = 0x2029 := by
    simp only [isLineBreak, Bool.or_eq_true, Bool.and_eq_true, decide_eq_true_eq,
      beq_iff_eq] at broken
    omega
  refine ⟨?_, which⟩
  rcases which with same | same | same
  · obtain rfl : c = '\u0085' := Char.toNat_inj.mp same
    decide
  · obtain rfl : c = '\u2028' := Char.toNat_inj.mp same
    decide
  · obtain rfl : c = '\u2029' := Char.toNat_inj.mp same
    decide

theorem strip_text (text : List Char) : ∃ front back, text = front ++ (strip text ++ back)
    ∧ (∀ c ∈ front, isSpace c) ∧ ∀ c ∈ back, isSpace c := by
  refine ⟨text.takeWhile isSpace, ((text.dropWhile isSpace).reverse.takeWhile isSpace).reverse,
    ?_, fun c mem => List.mem_takeWhile_imp mem,
    fun c mem => List.mem_takeWhile_imp (List.mem_reverse.mp mem)⟩
  rw [strip, ← List.reverse_append, List.takeWhile_append_dropWhile, List.reverse_reverse,
    List.takeWhile_append_dropWhile]

end Cut

/-! ## The JSON of an event -/

theorem members_ends (members : Members) : ∃ front, members.text = front ++ ['\x7d'] := by
  cases members with
  | last head d after => exact ⟨head.text ++ d.text ++ after, by simp [Members.text]⟩
  | more head d after rest =>
    obtain ⟨front, text⟩ := members_ends rest
    exact ⟨head.text ++ d.text ++ after ++ ',' :: front, by simp [Members.text, text]⟩

/-- The JSON that is written for an object, and its document. -/
structure Body (data : JsonObject) (body : List Char) (doc : Doc) : Prop where
  valid : doc.Valid
  text : doc.text = body
  read : loads rd body = some (.obj data)
  spelled : Spelled (Value.obj data).points body
  begins : ∃ inner, body = '\x7b' :: inner
  ends : ∃ front, body = front ++ ['\x7d']

variable {rd} {data : JsonObject} {body : List Char} {doc : Doc}

theorem body_of_dumps (canonical : (Value.obj data).Canonical rd)
    (written : dumpsText (.obj data) = some body) : ∃ doc, Body rd data body doc := by
  have read := loads_dumpsText canonical written
  obtain ⟨doc, inner, rfl⟩ := Option.map_eq_some_iff.mp written
  obtain ⟨valid, -⟩ := value_printed _ canonical doc inner
  have spelled := spelled_printed _ canonical doc inner
  cases data with
  | nil =>
    obtain rfl := Option.some.inj inner
    exact ⟨_, valid, rfl, read, spelled, ⟨_, rfl⟩, ['\x7b'], rfl⟩
  | cons field rest =>
    obtain ⟨members, -, rfl⟩ := Option.map_eq_some_iff.mp inner
    obtain ⟨front, text⟩ := members_ends members
    exact ⟨_, valid, rfl, read, spelled, ⟨_, rfl⟩, '\x7b' :: front, by rw [Doc.text, text]; rfl⟩

/-- One of the three characters stands in a string of the data. -/
def HasBreak (data : JsonObject) : Prop :=
  0x85 ∈ (Value.obj data).points ∨ 0x2028 ∈ (Value.obj data).points
    ∨ 0x2029 ∈ (Value.obj data).points

instance : Decidable (HasBreak data) := inferInstanceAs (Decidable (_ ∨ _))

namespace Body

variable (b : Body rd data body doc)

include b

theorem hasBreak_iff : HasBreak data ↔ ¬ Unbroken body := by
  constructor
  · have found : ∀ c : Char, Inner c → isLineBreak c → c.toNat ∈ (Value.obj data).points →
        ¬ Unbroken body := by
      intro c inner broken mem unbroken
      exact absurd broken (by simp [unbroken c ((b.spelled.mem c inner).mpr mem)])
    rintro (mem | mem | mem)
    · exact found '\u0085' (by decide) (by decide) mem
    · exact found '\u2028' (by decide) (by decide) mem
    · exact found '\u2029' (by decide) (by decide) mem
  · intro broken
    obtain ⟨c, mem, isBreak⟩ : ∃ c ∈ body, isLineBreak c := by
      simpa [Unbroken] using broken
    obtain ⟨inner, which⟩ := inner_of_break isBreak (b.spelled.printable c mem)
    have found := (b.spelled.mem c inner).mp mem
    rcases which with same | same | same
    · exact Or.inl (same ▸ found)
    · exact Or.inr (Or.inl (same ▸ found))
    · exact Or.inr (Or.inr (same ▸ found))

end Body

/-! ## Lines that are cut off -/

theorem lineHasContent_data (cs : List Char) :
    lineHasContent rd (dataField ++ cs) =
      if strip cs = [] then false
      else
        match loads rd (strip cs) with
        | some (.obj obj) => objectHasContent obj
        | _ => false := by
  rw [lineHasContent, if_pos (List.isPrefixOf_iff_prefix.mpr (List.prefix_append _ _)),
    List.drop_left]

theorem strip_space {cs : List Char} (begins : ∀ c ∈ cs.head?, isSpace c = false) :
    ∃ back, cs = strip (' ' :: cs) ++ back ∧ ∀ c ∈ back, isSpace c := by
  have front : (' ' :: cs).dropWhile isSpace = cs := by
    rw [List.dropWhile_cons_of_pos (by decide)]
    cases cs with
    | nil => rfl
    | cons c cs => exact List.dropWhile_cons_of_neg (by simp [begins c rfl])
  refine ⟨(cs.reverse.takeWhile isSpace).reverse, ?_,
    fun c mem => List.mem_takeWhile_imp (List.mem_reverse.mp mem)⟩
  rw [strip, front, ← List.reverse_append, List.takeWhile_append_dropWhile, List.reverse_reverse]

theorem objectHasContent_of_separated {obj : JsonObject}
    (separated : ∀ k ∈ obj.map Prod.fst, Separated k) : objectHasContent obj = false := by
  have noType : member obj "type" = none := by
    refine (absent_of_not_mem fun mem => ?_).1
    obtain ⟨c, isSep, inName⟩ := separated _ mem
    simp only [isSeparator, Bool.or_eq_true, decide_eq_true_eq] at isSep
    rcases isSep with rfl | rfl
    · exact absurd inName (by decide)
    · exact absurd inName (by decide)
  simp [objectHasContent, hasType, noType]

theorem lineHasContent_first (b : Body rd data body doc) {line after : List Char} {c : Char}
    (whole : dataField ++ ' ' :: body = line ++ c :: after) (broken : isLineBreak c) :
    lineHasContent rd line = false := by
  by_cases field : dataField.isPrefixOf line
  case neg => exact if_neg field
  obtain ⟨rest, rfl⟩ := List.isPrefixOf_iff_prefix.mp field
  rw [List.append_assoc] at whole
  have behind : ' ' :: body = rest ++ c :: after := List.append_cancel_left whole
  rw [lineHasContent_data]
  split
  · rfl
  case isFalse some_ =>
  cases rest with
  | nil => exact absurd (by decide : strip [] = []) some_
  | cons e rest =>
    obtain ⟨rfl, tail⟩ := List.cons.inj behind
    have cut : body = rest ++ c :: after := tail
    obtain ⟨inner, begins⟩ := b.begins
    have visible : ∀ d ∈ rest.head?, isSpace d = false := by
      intro d first
      cases rest with
      | nil => cases first
      | cons d' rest =>
        obtain rfl : d' = d := Option.some.inj first
        rw [begins] at cut
        rw [← (List.cons.inj cut).1]
        decide
    -- what is read is the front of the JSON, up to blanks before the break
    obtain ⟨back, stripped, blank⟩ := strip_space visible
    have front : doc.text = strip (' ' :: rest) ++ (back ++ c :: after) := by
      rw [b.text, cut, ← List.append_assoc, ← stripped]
    have stops : Stops isAtomChar (back ++ c :: after) := by
      have noAtom : ∀ d : Char, isSpace d → isAtomChar d = false := by
        intro d space
        by_contra atom
        rw [Bool.not_eq_false] at atom
        exact absurd space (by simp [not_space_of_atomChar atom])
      cases back with
      | nil => exact stops_cons (noAtom c (space_of_break broken))
      | cons d back => exact stops_cons (noAtom d (blank d List.mem_cons_self))
    rw [loads, parse_front b.valid front (by simp) stops]
    rfl

theorem lineHasContent_later (b : Body rd data body doc) {before line after : List Char}
    {c : Char} (whole : dataField ++ ' ' :: body = before ++ c :: (line ++ after))
    (broken : isLineBreak c) :
    lineHasContent rd line = false := by
  by_cases field : dataField.isPrefixOf line
  case neg => exact if_neg field
  obtain ⟨rest, rfl⟩ := List.isPrefixOf_iff_prefix.mp field
  rw [lineHasContent_data]
  split
  · rfl
  -- the break is in the JSON
  obtain ⟨front, cut⟩ : ∃ front, body = front ++ c :: (dataField ++ rest ++ after) := by
    have whole' : (dataField ++ [' ']) ++ body = before ++ c :: (dataField ++ rest ++ after) := by
      rw [← whole]
      simp
    rcases List.append_eq_append_iff.mp whole' with ⟨front, -, cut⟩ | ⟨more, named, cut⟩
    · exact ⟨front, cut⟩
    · cases more with
      | nil => exact ⟨[], cut.symm⟩
      | cons d more =>
        obtain ⟨rfl, -⟩ := List.cons.inj cut
        have mem : c ∈ dataField ++ [' '] := by rw [named]; simp
        have plain : Unbroken (dataField ++ [' ']) := by decide
        exact absurd broken (by simp [plain c mem])
  have inner : Inner c :=
    (inner_of_break broken (b.spelled.printable c (by rw [cut]; simp))).1
  have reads := reads_text doc b.valid [] (Reads.done false)
  rw [List.append_nil, b.text] at reads
  have inside := reads.behind inner cut
  obtain ⟨before', back, stripped, blank, -⟩ := strip_text rest
  have begins : Reads .inside (strip rest ++ (back ++ after)) := by
    have text : dataField ++ rest ++ after =
        (dataField ++ before') ++ (strip rest ++ (back ++ after)) := by
      conv_lhs => rw [stripped]
      simp
    rw [text] at inside
    refine inside.behind_plains fun d mem => ?_
    rcases List.mem_append.mp mem with named | space
    · have plain : ∀ d ∈ dataField, d ≠ '"' ∧ d ≠ '\\' := by simp [dataField]
      exact plain d named
    · have isBlank_ := blank d space
      constructor
      · rintro rfl
        exact absurd isBlank_ (by decide)
      · rintro rfl
        exact absurd isBlank_ (by decide)
  split
  · case h_1 obj read => exact objectHasContent_of_separated (separated_keys read begins)
  · rfl

/-! ## Frames -/

theorem value_unbroken (type : EventType) :
    Unbroken (eventField ++ type.value.toList) := by
  cases type <;> decide

theorem lines_frame (b : Body rd data body doc) (type : EventType) :
    splitlines (frameText type body) =
      (eventField ++ type.value.toList) ::
        (splitlines (dataField ++ ' ' :: body) ++ [[]]) := by
  have named : (eventField ++ type.value.toList).getLast?.any fun c => !isLineBreak c := by
    cases type <;> decide
  have closed : (dataField ++ ' ' :: body).getLast?.any fun c => !isLineBreak c := by
    obtain ⟨front, ends⟩ := b.ends
    have text : dataField ++ ' ' :: body = (dataField ++ ' ' :: front) ++ ['\x7d'] := by
      rw [ends]
      simp
    rw [text, List.getLast?_concat]
    decide
  rw [frameText, splitlines_append named,
    splitlines_plain (by simp [eventField]) (value_unbroken type), splitlines_append closed]
  rfl

/-- **The content of a frame** is the content of its object, if nothing cuts the JSON. -/
theorem any_lines (b : Body rd data body doc) (type : EventType) :
    (splitlines (frameText type body)).any (lineHasContent rd) =
      (decide (¬ HasBreak data) && objectHasContent data) := by
  have header : lineHasContent rd (eventField ++ type.value.toList) = false := by
    rw [lineHasContent, if_neg]
    simp [dataField, eventField]
  have last : lineHasContent rd [] = false := if_neg (by decide)
  rw [lines_frame b, List.any_cons, header, Bool.false_or, List.any_append, List.any_cons, last]
  simp only [List.any_nil, Bool.or_false]
  by_cases unbroken : Unbroken body
  · have plain : Unbroken (dataField ++ ' ' :: body) :=
      (by decide : Unbroken (dataField ++ [' '])).append unbroken
    have stripped : strip (' ' :: body) = body := by
      obtain ⟨inner, begins⟩ := b.begins
      obtain ⟨front, ends⟩ := b.ends
      have left : (' ' :: body).dropWhile isSpace = body := by
        rw [List.dropWhile_cons_of_pos (by decide), begins,
          List.dropWhile_cons_of_neg (by decide)]
      rw [strip, left, ends, List.reverse_append, List.reverse_singleton, List.singleton_append,
        List.dropWhile_cons_of_neg (by decide)]
      simp
    have some_ : body ≠ [] := by
      obtain ⟨inner, begins⟩ := b.begins
      simp [begins]
    have noBreak : ¬ HasBreak data := fun broken => b.hasBreak_iff.mp broken unbroken
    rw [splitlines_plain (by simp) plain, List.any_cons, List.any_nil, Bool.or_false,
      lineHasContent_data, stripped, if_neg some_, b.read, decide_eq_true noBreak, Bool.true_and]
  · rw [decide_eq_false (not_not.mpr (b.hasBreak_iff.mpr unbroken)), Bool.false_and]
    refine List.any_eq_false.mpr fun line mem => ?_
    rw [Bool.not_eq_true]
    obtain ⟨first, others, cut⟩ := List.exists_cons_of_ne_nil (List.ne_nil_of_mem mem)
    rw [cut] at mem
    rcases List.mem_cons.mp mem with rfl | mem'
    · obtain ⟨after, whole, plain, ended⟩ := first_line cut
      cases after with
      | nil =>
        -- the line would be the whole JSON
        rw [List.append_nil] at whole
        refine absurd (fun c inBody => plain c ?_) unbroken
        rw [← whole]
        simp [inBody]
      | cons c after => exact lineHasContent_first b whole (ended c rfl)
    · obtain ⟨before, c, after, whole, broken⟩ := later_line cut mem'
      exact lineHasContent_later b whole broken

/-! ## Sent events -/

namespace SentEvent

variable (e : SentEvent rd)

/-- The frame shows what the event carries: the event is no delta of a reasoning summary, and no
string in it is cut. -/
def Shown : Prop := e.type ≠ .reasoningSummaryTextDelta ∧ ¬ HasBreak e.data

instance : Decidable e.Shown := inferInstanceAs (Decidable (_ ∧ _))

/-- The event carries content. -/
def carries : Bool := carriesContent e.type e.data

theorem objectHasContent_eq :
    objectHasContent e.data =
      (decide (e.type ≠ .reasoningSummaryTextDelta) && e.carries) := by
  have typed := e.typed
  unfold objectHasContent hasType carries
  rw [typed]
  generalize e.type = type
  generalize e.data = data
  cases type <;> rfl

theorem frameHasContent_eq : frameHasContent rd e.frame = (decide e.Shown && e.carries) := by
  obtain ⟨body, written, encoded⟩ := Option.map_eq_some_iff.mp e.sent
  obtain ⟨doc, b⟩ := body_of_dumps e.canonical written
  rw [frameHasContent, ← encoded, Utf8.decodeReplacing_encode, any_lines b, e.objectHasContent_eq]
  by_cases summary : e.type = .reasoningSummaryTextDelta
  · simp [Shown, summary]
  · by_cases broken : HasBreak e.data <;> simp [Shown, summary, broken]

end SentEvent

/-! ## Attempts -/

section Attempt

variable (cfg : StreamConfig Bytes) (prep : V3CreateContext) (st : StreamState Bytes)
  (stream : UpstreamStream Bytes) (attempt : List (SentEvent rd))

theorem passFrames_of_frames {Frame : Type} (hasContent : Frame → Bool) (frames : List Frame)
    (p : Passed Frame) :
    (passFrames hasContent p (frames.map some)).clientGone = p.clientGone
      ∧ (passFrames hasContent p (frames.map some)).committed
        = (p.committed || frames.any hasContent) := by
  induction frames generalizing p with
  | nil => simp [passFrames]
  | cons frame frames ih =>
    rw [List.map_cons, passFrames]
    split
    · case isTrue committed =>
      exact ⟨(ih _).1, by rw [(ih _).2]; simp [committed]⟩
    · case isFalse open_ =>
      rw [Bool.not_eq_true] at open_
      dsimp only
      split
      · case isTrue content =>
        exact ⟨(ih _).1, by rw [(ih _).2]; simp [content]⟩
      · case isFalse silent =>
        rw [Bool.not_eq_true] at silent
        exact ⟨(ih _).1, by rw [(ih _).2]; simp [silent]⟩

/-- The attempt over these events is judged empty and the next key is tried. -/
def Retried : Prop :=
  ∃ st', consumeStream { cfg with hasContent := frameHasContent rd } prep st
    { stream with events := attempt.map fun e => some e.frame } = .next st'

/-- **An attempt is retried** unless it has an event that carries content and shows it. -/
theorem retried_iff :
    Retried cfg prep st stream attempt ↔ ¬ ∃ e ∈ attempt, e.carries ∧ e.Shown := by
  have events : (attempt.map fun e => some e.frame) = (attempt.map SentEvent.frame).map some := by
    simp
  obtain ⟨gone, committed⟩ := passFrames_of_frames (frameHasContent rd)
    (attempt.map SentEvent.frame)
    { committed := false, clientGone := false, buf := [], written := [] }
  have found : (attempt.map SentEvent.frame).any (frameHasContent rd)
      ↔ ∃ e ∈ attempt, e.carries ∧ e.Shown := by
    simp only [List.any_map, List.any_eq_true, Function.comp_apply, SentEvent.frameHasContent_eq,
      Bool.and_eq_true, decide_eq_true_eq]
    exact exists_congr fun e => and_congr_right fun _ => and_comm
  unfold Retried consumeStream UpstreamStream.passed
  dsimp only
  rw [events, gone, committed, Bool.false_or, ← found]
  simp only [Bool.false_eq_true, if_false]
  cases (attempt.map SentEvent.frame).any (frameHasContent rd) with
  | true => simp
  | false => cases stream.terminalReason <;> simp

/-- A delta of the text that is not empty. -/
def SentEvent.IsText (e : SentEvent rd) : Prop := e.type = .outputTextDelta ∧ e.carries

/-- The delta of a text with a line separator in it. -/
def separatedData : JsonObject :=
  [(points "type".toList, .str (points "response.output_text.delta".toList)),
    (points "output_index".toList, .number ['0']),
    (points "delta".toList, .str [97, 0x2028, 98])]

theorem separatedData_canonical : (Value.obj separatedData).Canonical .verbatim := by
  refine ⟨by decide +kernel, trivial, ⟨by decide, by decide, ?_⟩, trivial, trivial⟩
  decide

theorem separatedData_sent :
    (sseFrameBytes .outputTextDelta separatedData).isSome := by
  decide +kernel

/-- The event of this delta. -/
def separatedText : SentEvent .verbatim where
  type := .outputTextDelta
  data := separatedData
  frame := (sseFrameBytes .outputTextDelta separatedData).get separatedData_sent
  canonical := separatedData_canonical
  typed := rfl
  sent := (Option.some_get separatedData_sent).symm

/-- The text is not seen, and an attempt with this text is retried. -/
theorem separatedText_missed :
    separatedText.IsText
      ∧ ¬ (frameHasContent .verbatim separatedText.frame = separatedText.carries)
      ∧ Retried { hasContent := fun _ => true, looksBlocked := fun _ _ => false, blockedBody := [] }
          { bodyObj := [], responseId := "resp_1", previousResponseId := "", storeEnabled := false,
            hasStore := false }
          (.init Bytes)
          { events := [], state := .ended .completed, terminalReason := none, output := [] }
          [separatedText] := by
  have carries : separatedText.carries = true := by decide +kernel
  have cut : ¬ separatedText.Shown := fun shown => shown.2 (Or.inr (Or.inl (by decide +kernel)))
  refine ⟨⟨rfl, carries⟩, ?_, ?_⟩
  · rw [separatedText.frameHasContent_eq, carries]
    simp [cut]
  · rw [retried_iff]
    simp [cut]

/-- **When the detector is right**: exactly about the events that carry nothing or show what they
carry, and an attempt with text is kept exactly if one of its events does both. -/
theorem content_seen_iff (rd : FloatReader) (e : SentEvent rd) (cfg : StreamConfig Bytes)
    (prep : V3CreateContext) (st : StreamState Bytes) (stream : UpstreamStream Bytes)
    (attempt : List (SentEvent rd)) :
    (frameHasContent rd e.frame = e.carries ↔ (e.carries → e.Shown)) ∧
      (((∃ sent ∈ attempt, sent.IsText) → ¬ Retried cfg prep st stream attempt) ↔
        ((∃ sent ∈ attempt, sent.IsText) → ∃ sent ∈ attempt, sent.carries ∧ sent.Shown)) := by
  refine ⟨?_, ?_⟩
  · rw [e.frameHasContent_eq]
    cases e.carries <;> simp
  · rw [retried_iff, not_not]

end Attempt

end Zhongzhuan.Proxy
