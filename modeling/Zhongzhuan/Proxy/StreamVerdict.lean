import Zhongzhuan.Proxy.PassedExactly

/-!
# What an attempt counts for

`_stream_proxy` counts an attempt as a success or takes it back and tries another key.

* `StreamReaders.Deserves` is what the stream alone deserves: its payload comes before any error,
  or it has no error and carries a usage object.
* `Judged` says that the attempt is counted so, and that a failed one leaves no trace with the
  client.
* `VerdictRight` is the condition.  The scan speaks for a whole chunk and not for the first of its
  lines; it never sees a last line without a line feed; and without a line that matters the
  verdict depends on whether the translator has an attribute `usage`, which for a Responses client
  always has a value and for the other ones never: the usage of the stream is not asked.
-/

namespace Zhongzhuan.Proxy

open Kit Protocol

/-! ## The law -/

/-- A line carries a usage object. -/
def StreamReaders.CarriesUsage (r : StreamReaders) (stream : Bytes) : Prop :=
  ∃ line ∈ wireLines stream, ∃ usage, r.usageOfLine line = some (some usage)

/-- The stream is an answer. -/
def StreamReaders.Deserves (r : StreamReaders) (stream : Bytes) : Prop :=
  r.PayloadFirst stream
    ∨ (∀ line ∈ wireLines stream, r.lineKind line ≠ .error) ∧ r.CarriesUsage stream

/-- The calls that count an attempt as a failure. -/
def marksFailure : KeyEvent → Bool
  | .serverError _ | .networkFailure _ | .emptyResponse _ => true
  | _ => false

/-- The attempt is counted as a success. -/
def CountedSuccess {Frame : Type} (o : AttemptOutcome Frame) : Prop :=
  .success ∈ o.calls ∧ (∀ call ∈ o.calls, marksFailure call = false) ∧ o.audit = some 200

/-- The attempt is counted as a failure. -/
def CountedFailure {Frame : Type} (o : AttemptOutcome Frame) : Prop :=
  (∃ call, o.calls = [call] ∧ marksFailure call = true) ∧ o.audit ≠ some 200

/-- The attempt is judged by what the stream deserves. -/
def Judged {Frame : Type} (deserves : Prop) (o : AttemptOutcome Frame) : Prop :=
  (deserves → CountedSuccess o) ∧
    (¬ deserves → CountedFailure o ∧ o.next = .again ∧ o.written = [])

/-- The counts that are reported when these chunks were heard. -/
def StreamReaders.heardCounts (r : StreamReaders) (t : LegacyTranslator) (chunks : List Bytes) :
    Option (ℤ × ℤ) :=
  (t.feedAll t.init (r.heard [] chunks)).bind fun last =>
    ({ ReadState.start t with
        translator := last.1
        rawStreamUsage := if t.raw then
          r.usageOfChunks ((r.heard [] chunks).drop (r.place [] chunks)) else none } :
      ReadState t).reported r

/-- The last line, if it lacks its line feed. -/
def lastLine (stream : Bytes) : Bytes := (separate [lf] [] stream).2

/-- The condition. -/
structure VerdictRight (r : StreamReaders) (env : LegacyEnv) (inbound outbound : LegacyProtocol)
    (cfg : AttemptConfig) (chunks : List Bytes) : Prop where
  /-- The first chunk that completes a line that matters: payload comes first in it, or none. -/
  lines : ∀ lines, r.firstLines [] chunks = some lines →
    r.firstWord lines = some .payload ∨ r.brings .payload (some lines) = false
  /-- There is no such chunk: only for a Responses client and another upstream the attempt counts,
  and only a last line without a line feed, or usage, can deserve it. -/
  silent : r.firstLines [] chunks = none →
    ((inbound = .responses ∧ outbound ≠ .responses) ↔
      r.lineKind (lastLine chunks.flatten) = .payload ∨
        r.lineKind (lastLine chunks.flatten) ≠ .error ∧ r.CarriesUsage chunks.flatten)
  /-- `int()` reads the counts of an answer. -/
  counts : r.Deserves chunks.flatten →
    (r.heardCounts (legacyTranslator env inbound outbound) chunks).isSome = true
  /-- A failure is not the last one that is retried. -/
  retries : ¬ r.Deserves chunks.flatten → cfg.precommitFail + 1 < maxPrecommitRetries

/-! ## Two ends of an attempt -/

variable {r : StreamReaders} {t : LegacyTranslator} {cfg : AttemptConfig} {s : ReadState t}

theorem judged_complete (deserves : Prop) :
    Judged deserves (complete r cfg s) ↔ deserves ∧ (s.reported r).isSome = true := by
  cases reported : s.reported r with
  | none =>
    rw [complete_of_unreadable reported]
    refine ⟨fun judged => ?_, fun given => absurd given.2 (by simp)⟩
    by_cases is : deserves
    · have audited := (judged.1 is).2.2
      cases audited
    · obtain ⟨⟨⟨call, single, -⟩, -⟩, -⟩ := judged.2 is
      simp at single
  | some counts =>
    rw [complete_of_reported reported]
    refine ⟨fun judged => ⟨?_, rfl⟩, fun given => ⟨fun _ => ⟨List.mem_cons_self, ?_, rfl⟩, ?_⟩⟩
    · by_contra isNot
      exact (judged.2 isNot).1.2 rfl
    · rintro call mem
      rcases List.mem_cons.mp mem with rfl | later
      · rfl
      · split at later
        · rw [List.mem_singleton.mp later]
          rfl
        · cases later
    · exact fun isNot => absurd given.1 isNot

theorem judged_refuse (deserves : Prop) {mark : KeyEvent} (marks : marksFailure mark = true)
    (nothing : s.written = []) :
    Judged deserves (refuse cfg mark s) ↔
      ¬ deserves ∧ cfg.precommitFail + 1 < maxPrecommitRetries := by
  constructor
  · intro judged
    have isNot : ¬ deserves := by
      intro is
      have audited := (judged.1 is).2.2
      exact absurd audited (by simp [refuse])
    refine ⟨isNot, ?_⟩
    have again := (judged.2 isNot).2.1
    by_contra last
    rw [refuse, if_pos (Nat.le_of_not_lt last)] at again
    cases again
  · rintro ⟨isNot, room⟩
    refine ⟨fun is => absurd is isNot,
      fun _ => ⟨⟨⟨mark, rfl, marks⟩, by simp [refuse]⟩, ?_, nothing⟩⟩
    exact if_neg (Nat.not_le_of_lt room)

/-! ## What the stream deserves, from its first lines -/

theorem mem_wireLines {stream line : Bytes} :
    line ∈ wireLines stream ↔
      line ∈ (separate [lf] [] stream).1 ∨ lastLine stream ≠ [] ∧ line = lastLine stream := by
  unfold wireLines lastLine
  simp only [List.mem_append]
  split <;> simp_all

theorem lineKind_nil : r.lineKind [] = .plain := rfl

theorem firstWord_singleton {line : Bytes} :
    r.firstWord [line] = some .payload ↔ r.lineKind line = .payload := by
  unfold StreamReaders.firstWord
  cases kind : r.lineKind line <;> simp [kind]

theorem deserves_of_none {chunks : List Bytes} (none : r.firstLines [] chunks = none) :
    r.Deserves chunks.flatten ↔
      r.lineKind (lastLine chunks.flatten) = .payload ∨
        r.lineKind (lastLine chunks.flatten) ≠ .error ∧ r.CarriesUsage chunks.flatten := by
  have plain := StreamReaders.firstLines_eq_none none
  have first : r.PayloadFirst chunks.flatten ↔ r.lineKind (lastLine chunks.flatten) = .payload := by
    rw [payloadFirst_iff]
    simp only [wireLines]
    rw [firstWord_append plain]
    by_cases empty : (separate [lf] [] chunks.flatten).2 = []
    · rw [if_pos empty, lastLine, empty, lineKind_nil]
      simp [StreamReaders.firstWord]
    · rw [if_neg empty, firstWord_singleton]
      rfl
  have noError : (∀ line ∈ wireLines chunks.flatten, r.lineKind line ≠ .error)
      ↔ r.lineKind (lastLine chunks.flatten) ≠ .error := by
    constructor
    · intro all isError
      refine all _ (mem_wireLines.mpr (.inr ⟨fun empty => ?_, rfl⟩)) isError
      rw [empty, lineKind_nil] at isError
      cases isError
    · rintro last line mem isError
      rcases mem_wireLines.mp mem with ended | ⟨-, rfl⟩
      · rw [plain line ended] at isError
        cases isError
      · exact last isError
  rw [StreamReaders.Deserves, first, noError]

theorem deserves_of_payload {chunks : List Bytes} {lines : List Bytes}
    (first : r.firstLines [] chunks = some lines)
    (payload : r.brings .payload (some lines) = true) :
    r.Deserves chunks.flatten ↔ r.firstWord lines = some .payload := by
  obtain ⟨-, before, after, cut, plain⟩ := StreamReaders.firstLines_eq_some first
  obtain ⟨spoken, mem, isPayload⟩ := brings_iff.mp payload
  -- there is a first word among the lines, and it is the first word of the stream
  have there : (r.firstWord lines).isSome = true := by
    rw [StreamReaders.firstWord, List.find?_isSome]
    exact ⟨_, List.mem_map_of_mem mem, by simp [isPayload]⟩
  have word : r.firstWord (wireLines chunks.flatten) = r.firstWord lines := by
    obtain ⟨kind, found⟩ := Option.isSome_iff_exists.mp there
    simp only [wireLines, cut]
    rw [List.append_assoc, firstWord_append plain, List.append_assoc,
      firstWord_append_of_some found, found]
  rw [StreamReaders.Deserves, payloadFirst_iff, word]
  refine ⟨fun deserves => ?_, .inl⟩
  rcases deserves with is | ⟨noError, -⟩
  · exact is
  · obtain ⟨kind, found⟩ := Option.isSome_iff_exists.mp there
    obtain ⟨rfl | rfl, line, inLines, is⟩ := firstWord_eq_some found
    · exact found
    · refine absurd is (noError line ?_)
      exact mem_wireLines.mpr (.inl (by rw [cut]; simp [inLines]))

theorem not_deserves_of_error {chunks : List Bytes} {lines : List Bytes}
    (first : r.firstLines [] chunks = some lines) (error : r.brings .error (some lines) = true)
    (noPayload : r.brings .payload (some lines) = false) : ¬ r.Deserves chunks.flatten := by
  obtain ⟨-, before, after, cut, plain⟩ := StreamReaders.firstLines_eq_some first
  rintro (payload | ⟨noError, -⟩)
  · have word := payloadFirst_iff.mp payload
    simp only [wireLines, cut] at word
    rw [List.append_assoc, firstWord_append plain, List.append_assoc,
      firstWord_of_no_payload error noPayload] at word
    cases word
  · obtain ⟨line, inLines, is⟩ := brings_iff.mp error
    exact noError line (mem_wireLines.mpr (.inl (by rw [cut]; simp [inLines]))) is

/-! ## The verdict -/

variable {env : LegacyEnv} {inbound outbound : LegacyProtocol}

theorem usage_isSome (s : (legacyTranslator env inbound outbound).State) :
    ((legacyTranslator env inbound outbound).usage s).isSome = true
      ↔ inbound = .responses ∧ outbound ≠ .responses := by
  revert s
  cases inbound <;> cases outbound <;> intro s <;> simp [legacyTranslator] <;> rfl

theorem reported_eq_heardCounts {chunks : List Bytes} (read : Read r chunks (.start t) s) :
    s.reported r = r.heardCounts t chunks := by
  obtain ⟨-, -, -, -, -, ⟨out, fed, -⟩, usage⟩ := read
  change t.feedAll t.init (r.heard [] chunks) = _ at fed
  change s.rawStreamUsage = if t.raw then
    r.usageOfChunks ((r.heard [] chunks).drop (r.place [] chunks)) else none at usage
  rw [StreamReaders.heardCounts, fed, Option.bind_some, ← usage]
  rfl

/-- What the chunks and the last line settle. -/
def Settled (r : StreamReaders) (inbound outbound : LegacyProtocol) (chunks : List Bytes) : Prop :=
  (∀ lines, r.firstLines [] chunks = some lines →
    r.firstWord lines = some .payload ∨ r.brings .payload (some lines) = false) ∧
  (r.firstLines [] chunks = none →
    ((inbound = .responses ∧ outbound ≠ .responses) ↔
      r.lineKind (lastLine chunks.flatten) = .payload ∨
        r.lineKind (lastLine chunks.flatten) ≠ .error ∧ r.CarriesUsage chunks.flatten))

theorem verdictRight_iff {chunks : List Bytes} :
    VerdictRight r env inbound outbound cfg chunks ↔
      Settled r inbound outbound chunks
        ∧ (r.Deserves chunks.flatten →
          (r.heardCounts (legacyTranslator env inbound outbound) chunks).isSome = true)
        ∧ (¬ r.Deserves chunks.flatten → cfg.precommitFail + 1 < maxPrecommitRetries) :=
  ⟨fun right => ⟨⟨right.lines, right.silent⟩, right.counts, right.retries⟩,
    fun given => ⟨given.1.1, given.1.2, given.2.1, given.2.2⟩⟩

theorem settled_of_none {chunks : List Bytes} (first : r.firstLines [] chunks = none) :
    Settled r inbound outbound chunks
      ↔ ((inbound = .responses ∧ outbound ≠ .responses) ↔ r.Deserves chunks.flatten) := by
  rw [deserves_of_none first, Settled]
  simp [first]

theorem settled_of_some {chunks lines : List Bytes} (first : r.firstLines [] chunks = some lines) :
    Settled r inbound outbound chunks
      ↔ r.firstWord lines = some .payload ∨ r.brings .payload (some lines) = false := by
  rw [Settled]
  simp [first]

/-- **The verdict.**  An attempt whose stream is read to its end is counted for what the stream
deserves if and only if the condition holds. -/
theorem judged_iff (r : StreamReaders) (env : LegacyEnv) (inbound outbound : LegacyProtocol)
    (cfg : AttemptConfig) (chunks : List Bytes)
    (toEnd : ReadToEnd r (legacyTranslator env inbound outbound) chunks) :
    Judged (r.Deserves chunks.flatten)
        (attempt r (legacyTranslator env inbound outbound) cfg chunks)
      ↔ VerdictRight r env inbound outbound cfg chunks := by
  rw [attempt_of_readToEnd toEnd, verdictRight_iff]
  have read := readToEnd_read toEnd
  generalize (readChunks r (.start (legacyTranslator env inbound outbound)) chunks).1 = s at read
  have reported := reported_eq_heardCounts read
  obtain ⟨saw, upError, whole, -, held, -, usage⟩ := read
  change s.sawPayload = r.brings .payload (r.firstLines [] chunks) at saw
  change s.upError = r.brings .error (r.firstLines [] chunks) at upError
  change r.brings .broken (r.firstLines [] chunks) = false at whole
  change s.rawStreamUsage = if (legacyTranslator env inbound outbound).raw then
    r.usageOfChunks ((r.heard [] chunks).drop (r.place [] chunks)) else none at usage
  cases first : r.firstLines [] chunks with
  | none =>
    rw [first] at saw upError
    have noUsage : s.rawStreamUsage = none := by
      rw [usage, heard_of_no_error (by rw [first]; rfl), place_of_none first]
      split <;> rfl
    have nothing : s.written = [] := held (.inl saw)
    rw [settled_of_none first]
    by_cases translates : inbound = .responses ∧ outbound ≠ .responses
    · have given := (@usage_isSome env _ _ s.translator).mpr translates
      obtain ⟨counts, ofTranslator⟩ := Option.isSome_iff_exists.mp given
      have completes : concludes r cfg s = complete r cfg s := by
        rw [concludes, saw, upError, noUsage, ofTranslator]
        rfl
      rw [completes, judged_complete, reported, iff_true_left translates]
      tauto
    · have none : (legacyTranslator env inbound outbound).usage s.translator = none :=
        Option.not_isSome_iff_eq_none.mp fun given => translates ((usage_isSome _).mp given)
      have refuses : concludes r cfg s = refuse cfg (.emptyResponse cfg.singleKey) s := by
        rw [concludes, saw, upError, noUsage, none]
        rfl
      rw [refuses, judged_refuse _ rfl nothing]
      tauto
  | some lines =>
    rw [first] at saw upError whole
    rw [settled_of_some first]
    cases payload : r.brings .payload (some lines) with
    | true =>
      rw [concludes_of_saw (saw.trans payload), judged_complete, reported,
        ← deserves_of_payload first payload]
      have spoken : ¬ (true = false) := by simp
      tauto
    | false =>
      have event := (StreamReaders.firstLines_eq_some first).1
      have error := brings_of_eventful event whole payload
      have isNot := not_deserves_of_error first error payload
      have refuses : concludes r cfg s = refuse cfg (.serverError cfg.singleKey) s := by
        rw [concludes, saw, upError, payload, error]
        rfl
      rw [refuses, judged_refuse _ rfl (held (.inl (saw.trans payload)))]
      tauto

theorem perm_id (ids : List String) : (id ids).Perm ids := List.Perm.refl ids

/-- What the translators draw. -/
def plainLegacyEnv : LegacyEnv where
  turn :=
    { setOrder := ⟨id, perm_id⟩, sanitize := id,
      loads := fun _ => .rejected, responseId := "resp_1", model := "", createdAt := 0,
      mode := "disabled" }
  o2a :=
    { model := "", loads := fun _ => .rejected, strOf := fun _ => "", floatCount := fun _ => none,
      floatKey := .str, messageId := "msg_1", toolId := fun _ => "toolu_1" }
  a2o :=
    { model := "", loads := fun _ => .rejected, strOf := fun _ => "", floatCount := fun _ => none,
      floatKey := .str, chunkId := "chatcmpl-1", created := 0 }

/-- A stream that is passed on for a client of the same protocol: payload in one chunk, an error in
the next. -/
theorem judged_apart :
    ReadToEnd plainStreamReaders (legacyTranslator plainLegacyEnv .openai .openai)
        [payloadLine, errorLine] ∧
      Judged (plainStreamReaders.Deserves [payloadLine, errorLine].flatten)
        (attempt plainStreamReaders (legacyTranslator plainLegacyEnv .openai .openai) ⟨false, 0⟩
          [payloadLine, errorLine]) := by
  have toEnd : ReadToEnd plainStreamReaders (legacyTranslator plainLegacyEnv .openai .openai)
      [payloadLine, errorLine] := by decide
  refine ⟨toEnd, (judged_iff plainStreamReaders plainLegacyEnv .openai .openai ⟨false, 0⟩
    [payloadLine, errorLine] toEnd).mpr ⟨fun lines first => ?_, fun none => ?_, fun _ => ?_, ?_⟩⟩
  · have there : plainStreamReaders.firstLines [] [payloadLine, errorLine]
        = some [payloadLine.dropLast] := by decide
    obtain rfl := Option.some.inj (there.symm.trans first)
    exact .inl (by decide)
  · exact absurd none (by decide)
  · decide
  · exact fun isNot => absurd (.inl (payloadFirst_iff.mpr (by decide))) isNot

/-- An error and payload behind it, completed by the same chunk, count as a success. -/
theorem refusal_counted :
    ReadToEnd plainStreamReaders (legacyTranslator plainLegacyEnv .openai .openai)
        [errorLine ++ payloadLine] ∧
      ¬ Judged (plainStreamReaders.Deserves [errorLine ++ payloadLine].flatten)
        (attempt plainStreamReaders (legacyTranslator plainLegacyEnv .openai .openai) ⟨false, 0⟩
          [errorLine ++ payloadLine]) := by
  refine ⟨by decide, fun judged => ?_⟩
  have isNot : ¬ plainStreamReaders.Deserves [errorLine ++ payloadLine].flatten := by
    rintro (payload | ⟨noError, -⟩)
    · exact absurd (payloadFirst_iff.mp payload) (by decide)
    · exact noError errorLine.dropLast (by decide) (by decide)
  have again := (judged.2 isNot).2.1
  have served : (attempt plainStreamReaders (legacyTranslator plainLegacyEnv .openai .openai)
      ⟨false, 0⟩ [errorLine ++ payloadLine]).next = .served := by rfl
  rw [served] at again
  cases again

end Zhongzhuan.Proxy
