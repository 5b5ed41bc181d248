import Zhongzhuan.Protocol.SseParser

/-!
# What an event block means

The declarative reading of the event-stream format, line by line and block by block,
with no parser state: this is what the one-shot reference parser computes.

* `fieldOf` classifies a line; `lineNotes` lists what the line counts as malformed.
* `Block` is the field lines of an event and the bytes of the blank line that closes it;
  `Block.frame` and `Block.notes` are its event and its malformed notes.
* `BlockState.reading` is the parser state after the field lines of a block, and
  `parseField_reading` and `dispatch_reading` say that the methods compute it.
-/

namespace Zhongzhuan.Protocol.Sse

open Kit

/-- What a field line asks for. -/
inductive Field
  /-- A comment, or a field name the format does not know. -/
  | ignored
  | data (value : String)
  | event (value : String)
  | id (value : String)
  /-- An `id` with a NUL, which the format ignores. -/
  | nulId
  | retry (milliseconds : ℕ)
  /-- A `retry` that is not a number. -/
  | badRetry
  /-- A `retry` of more digits than `int` converts. -/
  | longRetry
deriving DecidableEq, Repr

/-- A comment line begins with a colon. -/
def isComment (line : Bytes) : Bool := line.head? = some 0x3A

/-- The meaning of a field's name and value. -/
def fieldOfPair (name value : List Char) : Field :=
  if name = "data".toList then .data (String.ofList value)
  else if name = "event".toList then .event (String.ofList value)
  else if name = "id".toList then
    if '\x00' ∈ value then .nulId else .id (String.ofList value)
  else if name = "retry".toList then
    if isAsciiDigits value then
      match intOfDigits value with
      | some n => .retry n
      | none => .longRetry
    else .badRetry
  else .ignored

/-- The meaning of a nonempty line. -/
def fieldOf (line : Bytes) : Field :=
  if isComment line then .ignored
  else
    let pair := BlockState.splitField (Utf8.decodeReplacing line)
    fieldOfPair pair.1 pair.2

/-- What a field counts as malformed. -/
def Field.notes : Field → List MalformedReason
  | .nulId => [.nulInId]
  | .badRetry => [.badRetry]
  | _ => []

/-- What a line counts as malformed, in order. -/
def lineNotes (line : Bytes) : List MalformedReason :=
  if isComment line then []
  else (if Utf8.wellFormed line then [] else [.invalidUtf8]) ++ (fieldOf line).notes

/-- A `data` value. -/
def Field.dataValue : Field → Option String
  | .data value => some value
  | _ => none

/-- An `event` value. -/
def Field.eventValue : Field → Option String
  | .event value => some value
  | _ => none

/-- An `id` value. -/
def Field.idValue : Field → Option String
  | .id value => some value
  | _ => none

/-- A `retry` value. -/
def Field.retryValue : Field → Option ℕ
  | .retry n => some n
  | _ => none

/-- The values of the lines that have one, in order. -/
def valuesOf {α : Type} (value : Field → Option α) (lines : List Line) : List α :=
  lines.filterMap fun l => value (fieldOf l.text)

/-- The last of the values: a later field replaces an earlier one. -/
def lastOf {α : Type} (value : Field → Option α) (lines : List Line) : Option α :=
  (valuesOf value lines).getLast?

/-- A block without data is an event only where `emit_dataless` asks for it. -/
def dispatches (c : Config) (parts : List String) (event id : Option String)
    (retry : Option ℕ) : Bool :=
  !parts.isEmpty || (c.emitDataless && (event.isSome || id.isSome || retry.isSome))

/-- What `_check_json` learns about the data of an event; data it does not look at is
fine. -/
def probeData (c : Config) (parts : List String) : JsonProbe :=
  let probe := String.ofList (strip (String.intercalate "\n" parts).toList)
  if !c.validateJson || probe = "" || probe ∈ c.jsonExempt then .accepts
  else c.jsonLoads probe

/-- The field lines of an event and the bytes of the blank line that closes it; these are
empty when the stream ends first. -/
structure Block where
  lines : List Line
  stop : Bytes
deriving DecidableEq, Repr

namespace Block

variable (c : Config) (b : Block)

/-- The bytes of the field lines. -/
def fieldBytes : Bytes := (b.lines.map Line.raw).flatten

/-- The bytes of the block. -/
def raw : Bytes := b.fieldBytes ++ b.stop

/-- The event. -/
def frame : Option SseFrame :=
  if dispatches c (valuesOf Field.dataValue b.lines) (lastOf Field.eventValue b.lines)
      (lastOf Field.idValue b.lines) (lastOf Field.retryValue b.lines) then
    some ⟨lastOf Field.eventValue b.lines,
      String.intercalate "\n" (valuesOf Field.dataValue b.lines),
      lastOf Field.idValue b.lines, lastOf Field.retryValue b.lines, b.raw⟩
  else none

/-- How the JSON check of the event's data ends. -/
def jsonProbe : JsonProbe :=
  if (b.frame c).isSome then probeData c (valuesOf Field.dataValue b.lines) else .accepts

/-- What the block counts as malformed, in order. -/
def notes : List MalformedReason :=
  b.lines.flatMap (fun l => lineNotes l.text)
    ++ (if b.jsonProbe c = .rejects then [.badJson] else [])

end Block

namespace BlockState

/-- Several notes. -/
def noteAll (s : BlockState) (notes : List MalformedReason) : BlockState :=
  { s with
    malformed := s.malformed + notes.length
    reasons := fun reason => s.reasons reason + notes.count reason }

@[simp] theorem noteAll_nil (s : BlockState) : s.noteAll [] = s := by
  simp [noteAll]

theorem noteAll_append (s : BlockState) (first second : List MalformedReason) :
    s.noteAll (first ++ second) = (s.noteAll first).noteAll second := by
  simp [noteAll, Nat.add_assoc]

theorem noteMalformed_eq (s : BlockState) (reason : MalformedReason) :
    s.noteMalformed reason = s.noteAll [reason] := by
  ext other
  all_goals try rfl
  by_cases same : other = reason
  · subst same
    simp [noteMalformed, noteAll]
  · simp [noteMalformed, noteAll, Function.update_of_ne same,
      List.count_singleton, Ne.symm same]

theorem decode_eq (s : BlockState) (raw : Bytes) :
    s.decode raw
      = (s.noteAll (if Utf8.wellFormed raw then [] else [.invalidUtf8]),
          Utf8.decodeReplacing raw) := by
  unfold decode
  split <;> simp [noteMalformed_eq]

/-- What a field does to the block slots, its notes apart. -/
def applyField (s : BlockState) : Field → BlockState
  | .data value => { s with dataParts := s.dataParts ++ [value] }
  | .event value => { s with event := some value }
  | .id value => { s with id := some value, lastEventId := value }
  | .retry n => { s with retry := some n }
  | .ignored | .nulId | .badRetry | .longRetry => s

theorem parseField_eq (s : BlockState) (line : Bytes) :
    s.parseField line
      = ((s.noteAll (lineNotes line)).applyField (fieldOf line),
          if fieldOf line = .longRetry then .error .valueError else .ok ()) := by
  by_cases comment : isComment line = true
  · have colon : line.head? = some 0x3A := by simpa [isComment] using comment
    simp [parseField, colon, fieldOf, lineNotes, comment, applyField]
  · have noColon : line.head? ≠ some 0x3A := by simpa [isComment] using comment
    simp only [parseField, noColon, if_false, decode_eq, fieldOf, lineNotes, comment,
      Bool.false_eq_true, noteAll_append]
    generalize s.noteAll (if Utf8.wellFormed line = true then [] else [.invalidUtf8]) = t
    generalize splitField (Utf8.decodeReplacing line) = pair
    -- Both sides now branch on the name and the value in the same order.
    unfold fieldOfPair
    (repeat' split) <;> simp_all [applyField, Field.notes, noteMalformed_eq]

/-- The state after the field lines of a block, from the state `s` before it. -/
def reading (s : BlockState) (lines : List Line) : BlockState :=
  { s.noteAll (lines.flatMap fun l => lineNotes l.text) with
    rawBlock := (lines.map Line.raw).flatten
    dataParts := valuesOf Field.dataValue lines
    event := lastOf Field.eventValue lines
    id := lastOf Field.idValue lines
    retry := lastOf Field.retryValue lines
    lastEventId := (lastOf Field.idValue lines).getD s.lastEventId
    skipBlock := false }

@[simp] theorem reading_skipBlock (s : BlockState) (lines : List Line) :
    (s.reading lines).skipBlock = false := rfl

@[simp] theorem reading_rawBlock (s : BlockState) (lines : List Line) :
    (s.reading lines).rawBlock = (lines.map Line.raw).flatten := rfl

theorem lastOf_append {α : Type} (value : Field → Option α) (first second : List Line) :
    lastOf value (first ++ second) = (lastOf value second).or (lastOf value first) := by
  simp [lastOf, valuesOf]

theorem valuesOf_concat {α : Type} (value : Field → Option α) (lines : List Line)
    (l : Line) :
    valuesOf value (lines ++ [l]) = valuesOf value lines ++ (value (fieldOf l.text)).toList := by
  cases found : value (fieldOf l.text) <;> simp [valuesOf, found]

theorem lastOf_concat {α : Type} (value : Field → Option α) (lines : List Line) (l : Line) :
    lastOf value (lines ++ [l])
      = (value (fieldOf l.text)).or (lastOf value lines) := by
  rw [lastOf_append]
  cases found : value (fieldOf l.text) <;> simp [lastOf, valuesOf, found]

theorem consumeLine_of_reading {c : Config} {s : BlockState}
    (reading : s.skipBlock = false) (line raw : Bytes) :
    s.consumeLine c line raw
      = if line = [] then { s with rawBlock := s.rawBlock ++ raw }.dispatch c
        else if c.maxEventBytes < (s.rawBlock ++ raw).length then
          ({ (s.noteMalformed .oversize).resetBlock with skipBlock := true }, .ok none)
        else
          match { s with rawBlock := s.rawBlock ++ raw }.parseField line with
          | (s, .ok ()) => (s, .ok none)
          | (s, .error e) => (s, .error e) := by
  rw [consumeLine, if_neg (by simp [reading])]
  rfl

theorem parseField_reading (s : BlockState) (lines : List Line) (l : Line) :
    { s.reading lines with rawBlock := (s.reading lines).rawBlock ++ l.raw }.parseField
        l.text
      = (s.reading (lines ++ [l]),
          if fieldOf l.text = .longRetry then .error .valueError else .ok ()) := by
  rw [parseField_eq]
  congr 1
  cases field : fieldOf l.text
  all_goals
    ext <;>
      simp [reading, applyField, noteAll, valuesOf_concat, lastOf_concat, field,
        Field.dataValue, Field.eventValue, Field.idValue, Field.retryValue, Nat.add_assoc]

theorem dispatch_eq (c : Config) (s : BlockState) :
    s.dispatch c
      = if dispatches c s.dataParts s.event s.id s.retry then
          match probeData c s.dataParts with
          | .accepts => (s.resetBlock, .ok (some ⟨s.event,
              String.intercalate "\n" s.dataParts, s.id, s.retry, s.rawBlock⟩))
          | .rejects => ((s.noteAll [.badJson]).resetBlock, .ok (some ⟨s.event,
              String.intercalate "\n" s.dataParts, s.id, s.retry, s.rawBlock⟩))
          | .raises => (s, .error .other)
        else (s.resetBlock, .ok none) := by
  have guard : (!(!s.dataParts.isEmpty)
      && !(c.emitDataless && (s.event.isSome || s.id.isSome || s.retry.isSome)))
        = !dispatches c s.dataParts s.event s.id s.retry := by
    simp [dispatches]
  simp only [dispatch, guard]
  cases due : dispatches c s.dataParts s.event s.id s.retry with
  | false => simp
  | true =>
      simp only [Bool.not_true, Bool.false_eq_true, if_false, if_true, probeData]
      cases c.validateJson with
      | false => simp
      | true =>
          simp only [checkJson, if_true, Bool.not_true, Bool.false_or, Bool.or_eq_true,
            decide_eq_true_eq]
          generalize String.ofList (strip (String.intercalate "\n" s.dataParts).toList) = probe
          by_cases exempt : probe = "" ∨ probe ∈ c.jsonExempt
          · simp [exempt]
          · simp only [exempt, if_false]
            cases c.jsonLoads probe <;> simp [noteMalformed_eq]

/-- The state between two blocks: nothing of a block is held. -/
def Clean (s : BlockState) : Prop := s.reading [] = s

theorem fresh_clean : Clean fresh := by
  simp [Clean, reading, fresh, valuesOf, lastOf]

/-- The state after a block that was read to its end. -/
def afterBlock (c : Config) (s : BlockState) (b : Block) : BlockState :=
  { s.noteAll (b.notes c) with
    rawBlock := []
    dataParts := []
    event := none
    id := none
    retry := none
    lastEventId := (lastOf Field.idValue b.lines).getD s.lastEventId
    skipBlock := false }

theorem afterBlock_clean (c : Config) (s : BlockState) (b : Block) :
    (s.afterBlock c b).Clean := by
  simp [Clean, reading, afterBlock, valuesOf, lastOf]

theorem dispatch_reading (c : Config) (s : BlockState) (b : Block)
    (returns : b.jsonProbe c ≠ .raises) :
    { s.reading b.lines with rawBlock := b.raw }.dispatch c
      = (s.afterBlock c b, .ok (b.frame c)) := by
  rw [dispatch_eq]
  simp only [reading]
  by_cases due : dispatches c (valuesOf Field.dataValue b.lines)
      (lastOf Field.eventValue b.lines) (lastOf Field.idValue b.lines)
      (lastOf Field.retryValue b.lines) = true
  · have probe : b.jsonProbe c = probeData c (valuesOf Field.dataValue b.lines) := by
      simp [Block.jsonProbe, Block.frame, due]
    rw [probe] at returns
    simp only [due, if_true, Block.frame, afterBlock, Block.notes, probe]
    cases result : probeData c (valuesOf Field.dataValue b.lines) with
    | accepts => simp [resetBlock, noteAll]
    | rejects => simp [resetBlock, noteAll, Nat.add_assoc]
    | raises => exact absurd result returns
  · have frame : b.frame c = none := by simp [Block.frame, due]
    have probe : b.jsonProbe c = .accepts := by simp [Block.jsonProbe, frame]
    simp [due, afterBlock, Block.notes, frame, probe, resetBlock, noteAll]

theorem dispatch_reading_raises (c : Config) (s : BlockState) (b : Block)
    (raises : b.jsonProbe c = .raises) :
    ({ s.reading b.lines with rawBlock := b.raw }.dispatch c).2 = .error .other := by
  have due : (b.frame c).isSome = true := by
    by_contra none
    simp [Block.jsonProbe, none] at raises
  have probe : probeData c (valuesOf Field.dataValue b.lines) = .raises := by
    simpa [Block.jsonProbe, due] using raises
  have dispatches : dispatches c (valuesOf Field.dataValue b.lines)
      (lastOf Field.eventValue b.lines) (lastOf Field.idValue b.lines)
      (lastOf Field.retryValue b.lines) = true := by
    by_contra none
    simp [Block.frame, none] at due
  rw [dispatch_eq]
  simp [reading, dispatches, probe]

end BlockState

end Zhongzhuan.Protocol.Sse
