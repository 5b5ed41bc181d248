import Zhongzhuan.Kit.JsonText
import Zhongzhuan.Protocol.BlockContent
import Zhongzhuan.Protocol.Segmentation

/-!
# The token count of a stream with a usage chunk

With `include_usage` the upstream sends its count in a chunk of its own, after the chunk with the
finish reason.  `StreamO2A` writes its `message_delta` at the finish reason, when it has no count
yet, so what it reports is its estimate: a quarter of the characters, and at least one
(`outputTokens_iff`).  The count that follows is recorded and never written.
-/

namespace Zhongzhuan.Protocol

open Kit

/-! ## Events on the wire -/

/-- An event with one line of data. -/
def dataEvent (text : List Char) : Bytes := Utf8.encode ("data: ".toList ++ text)

/-- Events with the blank lines after them. -/
def sseStream (texts : List (List Char)) : Bytes :=
  texts.flatMap fun text => dataEvent text ++ [lf, lf]

/-- The text of a JSON object on one line. -/
structure ObjectText (text : List Char) : Prop where
  begins : text.head? = some '{'
  oneLine : OneLine text

/-- The data of the sentinel. -/
def doneText : List Char := "[DONE]".toList

theorem oneLine_done : OneLine doneText := by
  intro c mem
  constructor <;> rintro rfl <;> revert mem <;> decide

namespace StreamO2A

/-- The counts in the `message_delta` events. -/
def outputTokensOf (events : List AnthropicEvent) : List ℕ :=
  events.filterMap fun e =>
    match e with
    | .messageDelta _ outputTokens => some outputTokens
    | _ => none

theorem outputTokensOf_append (events more : List AnthropicEvent) :
    outputTokensOf (events ++ more) = outputTokensOf events ++ outputTokensOf more :=
  List.filterMap_append

/-- A step before the end: no count is written, and the characters are counted. -/
structure Counts (s : StreamO2A) (step : StreamO2A × List AnthropicEvent) (chars : ℕ) : Prop where
  silent : outputTokensOf step.2 = []
  chars : step.1.outputChars = s.outputChars + chars
  tokens : step.1.upstreamCompletionTokens = s.upstreamCompletionTokens
  finished : step.1.finished = s.finished

variable {env : O2AEnv} {s : StreamO2A}

theorem Counts.then {first second : StreamO2A × List AnthropicEvent} {m n : ℕ}
    (h : Counts s first m) (h' : Counts first.1 second n) :
    Counts s (second.1, first.2 ++ second.2) (m + n) where
  silent := by rw [outputTokensOf_append, h.silent, h'.silent]; rfl
  chars := by rw [h'.chars, h.chars, Nat.add_assoc]
  tokens := h'.tokens.trans h.tokens
  finished := h'.finished.trans h.finished

/-- A text on the wire and the chunk it is read as. -/
structure SentChunk (env : O2AEnv) where
  text : List Char
  chunk : OpenAIChunk
  object : ObjectText text
  reads : ∃ v, env.loads (String.ofList text) = .value v
    ∧ ∀ finished, OpenAIChunk.read env finished v = some chunk

/-- A stream of a request with `include_usage`. -/
structure UsageStream (env : O2AEnv) where
  body : List (SentChunk env)
  finish : SentChunk env
  usage : SentChunk env
  completionTokens : ℕ
  continues : ∀ sent ∈ body, sent.chunk.Continues ∧ sent.chunk.completionTokens = none
  finish_good : finish.chunk.error = [] ∧ finish.chunk.completionTokens = none
  finish_ends : ∃ choice, finish.chunk.choice = some choice ∧ choice.finishReason ≠ none
  usage_only : usage.chunk.error = [] ∧ usage.chunk.choice = none
  usage_counts : usage.chunk.completionTokens = some completionTokens ∧ 0 < completionTokens

namespace UsageStream

/-- The data of the events. -/
def texts (u : UsageStream env) : List (List Char) :=
  u.body.map SentChunk.text ++ [u.finish.text, u.usage.text, doneText]

/-- The bytes of the stream. -/
def bytes (u : UsageStream env) : Bytes := sseStream u.texts

theorem oneLine (u : UsageStream env) : ∀ text ∈ u.texts, OneLine text := by
  intro text mem
  rcases List.mem_append.mp mem with inside | last
  · obtain ⟨sent, _, rfl⟩ := List.mem_map.mp inside
    exact sent.object.oneLine
  · simp only [List.mem_cons, List.not_mem_nil, or_false] at last
    rcases last with rfl | rfl | rfl
    · exact u.finish.object.oneLine
    · exact u.usage.object.oneLine
    · exact oneLine_done

end UsageStream

end StreamO2A

end Zhongzhuan.Protocol
