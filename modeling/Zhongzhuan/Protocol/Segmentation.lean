import Zhongzhuan.Protocol.OpenAIStream

/-!
# The chunks in which a stream arrives

Neither translator depends on how the bytes of its upstream are cut into chunks, apart from two
slips.  A translator that has finished takes no further chunk, but the events that stand behind
the last one in the same chunk are handled; and `StreamO2A` normalises line ends in the whole
buffer again with every chunk, so that of two carriage returns before a line feed one or both are
removed.  `segmentation_iff` says that for a stream without the latter (and within the limit of the
buffer) the first is all that can go wrong.
-/

namespace Zhongzhuan.Protocol

open Kit

/-! ## Line ends -/

namespace StreamO2A

/-- Two carriage returns stand before a line feed. -/
def DoubleReturn (bs : Bytes) : Prop := [cr, cr, lf] <:+: bs

theorem DoubleReturn.cons {b : UInt8} {bs : Bytes} (double : DoubleReturn bs) :
    DoubleReturn (b :: bs) := double.trans (List.infix_cons (List.infix_refl _))

theorem replaceCrlf_eq_nil {bs : Bytes} : replaceCrlf bs = [] ↔ bs = [] := by
  induction bs with
  | nil => exact Iff.rfl
  | cons b bs ih =>
      rw [replaceCrlf]
      split
      case isTrue ends =>
        rw [ih]
        refine iff_of_false (fun none => ?_) (List.cons_ne_nil _ _)
        rw [none] at ends
        cases ends.2
      case isFalse _ => simp

theorem head?_replaceCrlf {bs : Bytes} (head : (replaceCrlf bs).head? = some lf) :
    bs.head? = some lf ∨ [cr, lf] <+: bs := by
  cases bs with
  | nil => cases head
  | cons b bs =>
      rw [replaceCrlf] at head
      split at head
      case isTrue ends =>
        obtain ⟨rfl, next⟩ := ends
        cases bs with
        | nil => cases next
        | cons c bs =>
            obtain rfl : c = lf := Option.some.inj next
            exact .inr ⟨bs, rfl⟩
      case isFalse _ => exact .inl head

theorem replaceCrlf_append {before : Bytes} (single : ¬ DoubleReturn before) (after : Bytes) :
    replaceCrlf (replaceCrlf before ++ after) = replaceCrlf (before ++ after) := by
  induction before with
  | nil => rfl
  | cons b before ih =>
      have ih := ih fun double => single double.cons
      rw [List.cons_append]
      by_cases ends : b = cr ∧ before.head? = some lf
      · have ends' : b = cr ∧ (before ++ after).head? = some lf :=
          ⟨ends.1, by rw [List.head?_append, ends.2]; rfl⟩
        rw [replaceCrlf, if_pos ends, ih, replaceCrlf, if_pos ends']
      · rw [replaceCrlf, if_neg ends]
        cases before with
        | nil => rfl
        | cons c before =>
            have ends' : ¬ (b = cr ∧ (c :: before ++ after).head? = some lf) := ends
            have apart : ¬ (b = cr ∧ (replaceCrlf (c :: before) ++ after).head? = some lf) := by
              rintro ⟨rfl, head⟩
              have filled : replaceCrlf (c :: before) ≠ [] :=
                fun none => List.cons_ne_nil _ _ (replaceCrlf_eq_nil.mp none)
              rw [List.head?_append_of_ne_nil _ filled] at head
              rcases head?_replaceCrlf head with first | ⟨rest, split⟩
              · exact ends ⟨rfl, first⟩
              · exact single ⟨[], rest, by rw [← split]; rfl⟩
            rw [List.cons_append, replaceCrlf, if_neg apart, ih, replaceCrlf, if_neg ends']

/-- No carriage return stands before a line feed. -/
def Normal (bs : Bytes) : Prop := ¬ [cr, lf] <:+: bs

theorem normal_replaceCrlf {bs : Bytes} (single : ¬ DoubleReturn bs) :
    Normal (replaceCrlf bs) := by
  induction bs with
  | nil =>
      rintro ⟨before, after, split⟩
      simp [replaceCrlf] at split
  | cons b bs ih =>
      have ih := ih fun double => single double.cons
      rw [replaceCrlf]
      split
      case isTrue _ => exact ih
      case isFalse ends =>
        intro pair
        rcases List.infix_cons_iff.mp pair with first | later
        · obtain ⟨rfl, rest⟩ := List.cons_prefix_cons.mp first
          have head : (replaceCrlf bs).head? = some lf := by
            obtain ⟨rest, split⟩ := rest
            rw [← split]
            rfl
          rcases head?_replaceCrlf head with here | ⟨rest, split⟩
          · exact ends ⟨rfl, here⟩
          · exact single ⟨[], rest, by rw [← split]; rfl⟩
        · exact ih later

theorem replaceCrlf_of_normal {front : Bytes} (normal : Normal front)
    (ends : front.getLast? ≠ some cr) (back : Bytes) :
    replaceCrlf (front ++ back) = front ++ replaceCrlf back := by
  induction front with
  | nil => rfl
  | cons b front ih =>
      rw [List.cons_append, replaceCrlf]
      have apart : ¬ (b = cr ∧ (front ++ back).head? = some lf) := by
        rintro ⟨rfl, head⟩
        cases front with
        | nil => exact ends rfl
        | cons c front =>
            obtain rfl : c = lf := Option.some.inj head
            exact normal ⟨[], front, rfl⟩
      rw [if_neg apart, ih (fun pair => normal (pair.trans (List.infix_cons (List.infix_refl _))))]
      · rfl
      · cases front with
        | nil => exact fun none => by cases none
        | cons c front => simpa using ends

theorem Normal.of_part {front back : Bytes} (normal : Normal back) (part : front <:+: back) :
    Normal front := fun pair => normal (pair.trans part)

theorem replaceCrlf_snoc {bs : Bytes} (normal : Normal bs) (a : UInt8) :
    replaceCrlf (bs ++ [a]) = bs ++ [a]
      ∨ ∃ front, bs = front ++ [cr] ∧ replaceCrlf (bs ++ [a]) = front ++ [a] := by
  induction bs with
  | nil => exact .inl (by simp [replaceCrlf])
  | cons b bs ih =>
      have ih := ih (normal.of_part (List.infix_cons (List.infix_refl _)))
      rw [List.cons_append, replaceCrlf]
      by_cases ends : b = cr ∧ (bs ++ [a]).head? = some lf
      · -- the pair can only be made by the new byte
        rw [if_pos ends]
        obtain ⟨rfl, head⟩ := ends
        cases bs with
        | nil => exact .inr ⟨[], rfl, by simp [replaceCrlf]⟩
        | cons c bs =>
            obtain rfl : c = lf := Option.some.inj head
            exact absurd ⟨[], bs, rfl⟩ normal
      · rw [if_neg ends]
        rcases ih with same | ⟨front, rfl, shorter⟩
        · exact .inl (by rw [same])
        · exact .inr ⟨b :: front, rfl, by rw [shorter]; rfl⟩

/-- The unfinished event never exceeds the limit of the buffer. -/
def Bounded (stream : Bytes) : Prop :=
  ∀ before, before <+: stream →
    (separate [lf, lf] [] (replaceCrlf before)).2.length ≤ maxBuffer

theorem scan_of_bounded {stream before : Bytes} (bounded : Bounded stream)
    (part : before <+: stream) :
    scan [] before = separate [lf, lf] [] (replaceCrlf before) := by
  have small := bounded before part
  unfold scan
  rw [List.nil_append]
  dsimp only
  rw [if_neg (not_lt.mpr small)]

theorem incremental (env : O2AEnv) {stream : Bytes} (single : ¬ DoubleReturn stream)
    (bounded : Bounded stream) : (translator env).Incremental [] stream where
  empty := by
    show scan [] [] = ([], [])
    rw [scan_of_bounded bounded List.nil_prefix]
    rfl
  append before chunk after split := by
    show scan [] (before ++ chunk) = ((scan [] before).1 ++ (scan (scan [] before).2 chunk).1,
      (scan (scan [] before).2 chunk).2)
    have part : before ++ chunk <+: stream := ⟨after, split.symm⟩
    have front : before <+: stream := (List.prefix_append before chunk).trans part
    have single' : ¬ DoubleReturn before := fun double => single (double.trans front.isInfix)
    rw [scan_of_bounded bounded front]
    obtain ⟨taken, apart, ends, cut⟩ :=
      separate_consumed (Whole.nil [lf, lf]) (replaceCrlf before)
    rw [List.nil_append] at apart
    generalize separate [lf, lf] [] (replaceCrlf before) = pieces at apart cut
    have normal : Normal taken := (normal_replaceCrlf single').of_part (by
      rw [apart]
      exact (List.prefix_append _ _).isInfix)
    have last : taken.getLast? ≠ some cr := by
      rcases ends with rfl | ⟨front, rfl⟩
      · exact fun none => by cases none
      · simp [cr, lf]
    have normalised : replaceCrlf (before ++ chunk) = taken ++ replaceCrlf (pieces.2 ++ chunk) := by
      rw [← replaceCrlf_append single', apart, List.append_assoc,
        replaceCrlf_of_normal normal last]
    have whole : separate [lf, lf] [] (replaceCrlf (before ++ chunk))
        = (pieces.1 ++ (separate [lf, lf] [] (replaceCrlf (pieces.2 ++ chunk))).1,
          (separate [lf, lf] [] (replaceCrlf (pieces.2 ++ chunk))).2) := by
      rw [normalised, separate_append, cut]
    have small := bounded (before ++ chunk) part
    rw [whole] at small
    rw [scan_of_bounded bounded part, whole]
    unfold scan
    dsimp only at small ⊢
    rw [if_neg (not_lt.mpr small)]
  one before a after split := by
    show (scan (scan [] before).2 [a]).1.length ≤ 1
    have front : before <+: stream := ⟨a :: after, split.symm⟩
    have single' : ¬ DoubleReturn before := fun double => single (double.trans front.isInfix)
    rw [scan_of_bounded bounded front]
    obtain ⟨taken, apart, _, _⟩ := separate_consumed (Whole.nil [lf, lf]) (replaceCrlf before)
    rw [List.nil_append] at apart
    have whole : Whole [lf, lf] (separate [lf, lf] [] (replaceCrlf before)).2 :=
      whole_rest (Whole.nil _) _
    generalize (separate [lf, lf] [] (replaceCrlf before)).2 = rest at apart whole
    have normal : Normal rest := (normal_replaceCrlf single').of_part (by
      rw [apart]
      exact (List.suffix_append _ _).isInfix)
    show (separate [lf, lf] [] (replaceCrlf (rest ++ [a]))).1.length ≤ 1
    rcases replaceCrlf_snoc normal a with same | ⟨shorter, rfl, same⟩
    · rw [same, whole.separate_append]
      exact length_separate_singleton _ _ _
    · rw [same, whole.of_append.separate_append]
      exact length_separate_singleton _ _ _

/-! ## Events after the end -/

variable {env : O2AEnv} {s : StreamO2A}

/-- An event of which nothing is written when the stream has finished. -/
def QuietItem (env : O2AEnv) (s : StreamO2A) : StreamItem → Prop
  | .json v => ∀ chunk ∈ OpenAIChunk.read env s.finished v, chunk.error = [] →
    ∀ choice ∈ chunk.choice, ∀ tool ∈ choice.toolCalls,
      (s.toolIndexMap.get? tool.key).isSome ∧ tool.arguments = none
  | .nothing | .sentinel | .broken => True

theorem finished_start (s : StreamO2A) (chunk : OpenAIChunk) :
    (s.start env chunk).1.finished = s.finished := by
  unfold start
  split <;> rfl

theorem finished_handleContent (s : StreamO2A) (content : Option String) :
    (s.handleContent content).1.finished = s.finished := by
  unfold handleContent
  cases content with
  | none => rfl
  | some text =>
      dsimp only
      split <;> rfl

variable (env) in
theorem finished_handleToolCalls (s : StreamO2A) (tools : List ToolDelta) :
    (s.handleToolCalls env tools).1.finished = s.finished := by
  induction tools generalizing s with
  | nil => rfl
  | cons tool tools ih =>
      have first : (s.handleToolCall env tool).1.finished = s.finished := by
        unfold handleToolCall
        split <;> rfl
      rw [handleToolCalls, ih, first]

variable (env) in
theorem handleToolCalls_silent (s : StreamO2A) (tools : List ToolDelta) :
    ((s.handleToolCalls env tools).2 = [] ↔ ∀ tool ∈ tools,
        (s.toolIndexMap.get? tool.key).isSome ∧ tool.arguments = none)
      ∧ ((s.handleToolCalls env tools).2 = [] → (s.handleToolCalls env tools).1 = s) := by
  induction tools with
  | nil => simp [handleToolCalls]
  | cons tool tools ih =>
      rw [handleToolCalls]
      cases known : s.toolIndexMap.get? tool.key with
      | none =>
          have opened : (s.handleToolCall env tool).2 ≠ [] := by
            unfold handleToolCall
            rw [known]
            simp
          simp [opened, known]
      | some index =>
          cases given : tool.arguments with
          | none =>
              have same : s.handleToolCall env tool = (s, []) := by
                unfold handleToolCall
                rw [known, given]
                rfl
              rw [same]
              simpa [known, given] using ih
          | some arguments =>
              have filled : (s.handleToolCall env tool).2 ≠ [] := by
                unfold handleToolCall
                rw [known, given]
                exact List.cons_ne_nil _ _
              simp [filled, given]

variable (env) in
theorem handleChoice_finished (ended : s.finished = true) (done : s.state = .done)
    (chunk : OpenAIChunk) (choice : ChunkChoice) :
    ((s.handleChoice env chunk choice).2 = [] ↔ ∀ tool ∈ choice.toolCalls,
        (s.toolIndexMap.get? tool.key).isSome ∧ tool.arguments = none)
      ∧ ((s.handleChoice env chunk choice).2 = [] →
        (s.handleChoice env chunk choice).1.state = .done) := by
  have started : s.start env chunk = (s, []) := by simp [start, done]
  obtain ⟨said, told, map, state⟩ : ∃ said, s.handleContent choice.content = (said, [])
      ∧ said.toolIndexMap = s.toolIndexMap ∧ said.state = .done := by
    unfold handleContent
    cases choice.content with
    | none => exact ⟨s, rfl, rfl, done⟩
    | some text =>
        exact ⟨{ s with outputChars := s.outputChars + text.length }, by simp [done], rfl, done⟩
  have still : (said.handleToolCalls env choice.toolCalls).1.finished = true := by
    have kept := finished_handleContent s choice.content
    rw [told] at kept
    rw [finished_handleToolCalls, kept, ended]
  have closing : (said.handleToolCalls env choice.toolCalls).1.handleFinish env
      choice.finishReason = ((said.handleToolCalls env choice.toolCalls).1, []) := by
    cases choice.finishReason with
    | none => rfl
    | some reason => simp [handleFinish, finish, still]
  obtain ⟨silent, same⟩ := handleToolCalls_silent env said choice.toolCalls
  rw [map] at silent
  unfold handleChoice
  rw [started]
  dsimp only
  rw [told]
  dsimp only
  rw [closing]
  simp only [List.nil_append, List.append_nil]
  exact ⟨silent, fun none => by rw [same none, state]⟩

theorem handleItem_finished (ended : s.finished = true) (done : s.state = .done)
    {item : StreamItem} {next : StreamO2A × List AnthropicEvent}
    (handled : s.handleItem env item = some next) :
    (next.2 = [] ↔ QuietItem env s item) ∧ (next.2 = [] → next.1.state = .done) := by
  cases item with
  | nothing =>
      cases handled
      exact ⟨iff_of_true rfl trivial, fun _ => done⟩
  | sentinel =>
      have same : s.finish env none = (s, []) := by simp [finish, ended]
      cases handled
      rw [same]
      exact ⟨iff_of_true rfl trivial, fun _ => done⟩
  | broken => cases handled
  | json v =>
      obtain ⟨chunk, read, rfl⟩ := Option.map_eq_some_iff.mp handled
      have quiet : QuietItem env s (.json v) ↔ (chunk.error = [] →
          ∀ choice ∈ chunk.choice, ∀ tool ∈ choice.toolCalls,
            (s.toolIndexMap.get? tool.key).isSome ∧ tool.arguments = none) := by
        show (∀ chunk ∈ OpenAIChunk.read env s.finished v, _) ↔ _
        rw [read]
        simp
      rw [quiet]
      have ended' : (s.captureUsage chunk).finished = true := by
        unfold captureUsage
        split <;> exact ended
      have done' : (s.captureUsage chunk).state = .done := by rw [state_captureUsage, done]
      have map : (s.captureUsage chunk).toolIndexMap = s.toolIndexMap := by
        unfold captureUsage
        split <;> rfl
      unfold handleOpenaiChunk
      by_cases failed : chunk.error = []
      case neg =>
        have same : (s.captureUsage chunk).finishWithError env chunk.error
            = (s.captureUsage chunk, []) := by simp [finishWithError, ended']
        rw [if_pos failed, same]
        exact ⟨iff_of_true rfl fun good => absurd good failed, fun _ => done'⟩
      rw [if_neg (not_not.mpr failed)]
      cases chosen : chunk.choice with
      | none =>
          refine ⟨iff_of_true rfl fun _ choice mem => ?_, fun _ => done'⟩
          cases mem
      | some choice =>
          obtain ⟨silent, state⟩ := handleChoice_finished env ended' done' chunk choice
          rw [map] at silent
          refine ⟨?_, state⟩
          simpa [failed] using silent

theorem state_handleItem (going : s.finished = false) {item : StreamItem}
    {next : StreamO2A × List AnthropicEvent} (handled : s.handleItem env item = some next)
    (ended : next.1.finished = true) : next.1.state = .done := by
  have finishes : ∀ (s : StreamO2A) (reason : Option String), s.finished = false →
      (s.finish env reason).1.state = .done := fun s reason going => by simp [finish, going]
  cases item with
  | nothing =>
      cases handled
      rw [going] at ended
      cases ended
  | sentinel =>
      cases handled
      exact finishes s none going
  | broken => cases handled
  | json v =>
      obtain ⟨chunk, read, rfl⟩ := Option.map_eq_some_iff.mp handled
      have going' : (s.captureUsage chunk).finished = false := by
        unfold captureUsage
        split <;> exact going
      unfold handleOpenaiChunk at ended ⊢
      by_cases failed : chunk.error = []
      case neg =>
        rw [if_pos failed]
        simp [finishWithError, going']
      rw [if_neg (not_not.mpr failed)] at ended ⊢
      cases chosen : chunk.choice with
      | none =>
          rw [chosen] at ended
          dsimp only at ended
          rw [going'] at ended
          cases ended
      | some choice =>
          rw [chosen] at ended
          have kept := finished_handleToolCalls env
            (((s.captureUsage chunk).start env chunk).1.handleContent choice.content).1
            choice.toolCalls
          rw [finished_handleContent, finished_start, going'] at kept
          dsimp only [handleChoice] at ended ⊢
          cases given : choice.finishReason with
          | none =>
              rw [given] at ended
              rw [show handleFinish env _ none = (_, []) from rfl] at ended
              rw [kept] at ended
              cases ended
          | some reason => exact finishes _ (some reason) kept

theorem final (env : O2AEnv) : (translator env).Final where
  stays s item next handled ended := by
    have kept : ∀ (s : StreamO2A) (reason : Option String), s.finished = true →
        (s.finish env reason).1.finished = true := fun s reason ended => by simp [finish, ended]
    change s.handleItem env (readEvent env item) = some next at handled
    change s.finished = true at ended
    show next.1.finished = true
    cases event : readEvent env item with
    | nothing =>
        rw [event] at handled
        cases handled
        exact ended
    | sentinel =>
        rw [event] at handled
        cases handled
        exact kept s none ended
    | broken =>
        rw [event] at handled
        cases handled
    | json v =>
        rw [event] at handled
        obtain ⟨chunk, read, rfl⟩ := Option.map_eq_some_iff.mp handled
        have ended' : (s.captureUsage chunk).finished = true := by
          unfold captureUsage
          split <;> exact ended
        unfold handleOpenaiChunk
        by_cases failed : chunk.error = []
        case neg =>
          rw [if_pos failed]
          simp [finishWithError, ended']
        rw [if_neg (not_not.mpr failed)]
        cases chosen : chunk.choice with
        | none => exact ended'
        | some choice =>
            have still := finished_handleToolCalls env
              (((s.captureUsage chunk).start env chunk).1.handleContent choice.content).1
              choice.toolCalls
            rw [finished_handleContent, finished_start, ended'] at still
            dsimp only [handleChoice]
            cases choice.finishReason with
            | none => exact still
            | some reason => exact kept _ (some reason) still
  silent s ended := by
    change s.finished = true at ended
    show s.finishSafely env = []
    simp [finishSafely, finish, ended]

theorem bytes_ne_nil (e : AnthropicEvent) : e.bytes ≠ [] := by
  unfold AnthropicEvent.bytes
  rw [String.append_assoc, String.append_assoc, String.append_assoc, String.toList_append]
  exact List.cons_ne_nil _ _

/-- The events of a stream that `StreamO2A` does not lose or send by accident of the chunks. -/
def Settled (env : O2AEnv) (stream : Bytes) : Prop :=
  (translator env).AlongItems
    (fun s block => s.finished = true → QuietItem env s (readEvent env block)) {}
    (scan [] stream).1

theorem settled_iff (env : O2AEnv) {stream : Bytes} (single : ¬ DoubleReturn stream)
    (bounded : Bounded stream) :
    (∃ out, ∀ chunks : List Bytes, chunks.flatten = stream →
        ((translator env).output [] {} chunks).map (List.flatMap AnthropicEvent.bytes) = some out)
      ↔ Settled env stream := by
  rw [Translator.steady_iff_output bytes_ne_nil (incremental env single bounded) (final env) rfl]
  refine Translator.steady_iff_alongItems
    (fun s : StreamO2A => s.finished = true → s.state = .done) ?_ ?_ (fun ended => by cases ended) _
  · intro s block next inv handled quiet ended'
    cases ended : s.finished with
    | false => exact state_handleItem ended handled ended'
    | true =>
        obtain ⟨silent, state⟩ := handleItem_finished ended (inv ended) handled
        exact state (silent.mpr (quiet ended))
  · intro s block next inv handled
    refine forall_congr' fun ended => ?_
    exact (handleItem_finished ended (inv ended) handled).1

end StreamO2A

namespace StreamA2O

/-! ## The head of the stream -/

/-- The head of a stream, as it is when so much of it has come. -/
def headOf (before : Bytes) : HeadBuffer := HeadBuffer.stripBom ⟨false, before⟩

theorem headOf_append (before after : Bytes) :
    (headOf before).bomDone = true
        ∧ headOf (before ++ after) = ⟨true, (headOf before).buffer ++ after⟩
      ∨ headOf before = ⟨false, before⟩ ∧ before <+: utf8Bom := by
  unfold headOf HeadBuffer.stripBom
  simp only [Bool.false_eq_true, if_false]
  by_cases marked : before.take 3 = utf8Bom
  · left
    have long : 3 ≤ before.length := by
      have := congrArg List.length marked
      simp [utf8Bom] at this
      omega
    have marked' : (before ++ after).take 3 = utf8Bom := by
      rw [List.take_append_of_le_length long, marked]
    rw [if_pos marked, if_pos marked', List.drop_append_of_le_length long]
    exact ⟨rfl, rfl⟩
  · rw [if_neg marked]
    by_cases settled : 3 ≤ before.length ∨ ¬ before.isPrefixOf utf8Bom = true
    · left
      rw [if_pos settled]
      refine ⟨rfl, ?_⟩
      rcases settled with long | apart
      · have marked' : ¬ (before ++ after).take 3 = utf8Bom := by
          rw [List.take_append_of_le_length long]
          exact marked
        have long' : 3 ≤ (before ++ after).length := by
          rw [List.length_append]
          omega
        rw [if_neg marked', if_pos (.inl long')]
      · have apart' : ¬ before <+: utf8Bom := fun part =>
          apart (List.isPrefixOf_iff_prefix.mpr part)
        have marked' : ¬ (before ++ after).take 3 = utf8Bom := by
          intro marked'
          by_cases long : before.length ≤ 3
          · refine apart' ?_
            rw [← marked', List.prefix_take_iff]
            exact ⟨List.prefix_append _ _, long⟩
          · rw [List.take_append_of_le_length (by omega)] at marked'
            exact marked marked'
        have apart'' : ¬ (before ++ after).isPrefixOf utf8Bom = true := fun part =>
          apart' ((List.prefix_append _ _).trans (List.isPrefixOf_iff_prefix.mp part))
        rw [if_neg marked', if_pos (.inr apart'')]
    · right
      rw [if_neg settled]
      rw [not_or, not_not] at settled
      exact ⟨rfl, List.isPrefixOf_iff_prefix.mp settled.2⟩

theorem buffer_headOf (before : Bytes) :
    (headOf before).buffer = before ∨ (headOf before).buffer = before.drop 3 := by
  unfold headOf HeadBuffer.stripBom
  simp only [Bool.false_eq_true, if_false]
  split
  · exact .inr rfl
  · split <;> exact .inl rfl

/-- The unfinished line never exceeds the limit of the buffer. -/
def Bounded (stream : Bytes) : Prop :=
  ∀ before, before <+: stream →
    (separate [lf] [] (headOf before).buffer).2.length ≤ StreamO2A.maxBuffer

theorem scan_of_bounded {stream before : Bytes} (bounded : Bounded stream)
    (part : before <+: stream) :
    scan {} before = ((separate [lf] [] (headOf before).buffer).1,
      ⟨(headOf before).bomDone, (separate [lf] [] (headOf before).buffer).2⟩) := by
  have small := bounded before part
  unfold scan
  show (_, HeadBuffer.mk _
      (if _ < (separate [lf] [] (headOf before).buffer).2.length then _ else _)) = _
  rw [if_neg (not_lt.mpr small)]
  rfl

theorem separate_of_prefix_bom {before : Bytes} (part : before <+: utf8Bom) :
    separate [lf] [] before = ([], before) := by
  refine separate_plain rfl [] fun mem => ?_
  exact absurd (part.subset mem) (by decide)

theorem stripBom_done (buffer : Bytes) : HeadBuffer.stripBom ⟨true, buffer⟩ = ⟨true, buffer⟩ := rfl

theorem incremental (env : A2OEnv) {stream : Bytes} (bounded : Bounded stream) :
    (translator env).Incremental {} stream where
  empty := by
    show scan {} [] = ([], {})
    rw [scan_of_bounded bounded List.nil_prefix]
    rfl
  append before chunk after split := by
    show scan {} (before ++ chunk) = ((scan {} before).1 ++ (scan (scan {} before).2 chunk).1,
      (scan (scan {} before).2 chunk).2)
    have part : before ++ chunk <+: stream := ⟨after, split.symm⟩
    have front : before <+: stream := (List.prefix_append before chunk).trans part
    have small := bounded (before ++ chunk) part
    rw [scan_of_bounded bounded front, scan_of_bounded bounded part]
    rcases headOf_append before chunk with ⟨seen, longer⟩ | ⟨waiting, short⟩
    · rw [longer] at small ⊢
      have whole := whole_rest (Whole.nil [lf]) (headOf before).buffer
      unfold scan
      dsimp only at small ⊢
      rw [seen, stripBom_done]
      dsimp only
      rw [whole.separate_append, separate_append] at *
      rw [if_neg (not_lt.mpr small)]
    · rw [waiting, separate_of_prefix_bom short]
      unfold scan
      show _ = ([] ++ (separate [lf] [] (headOf (before ++ chunk)).buffer).1,
        HeadBuffer.mk (headOf (before ++ chunk)).bomDone
          (if _ < (separate [lf] [] (headOf (before ++ chunk)).buffer).2.length then [] else
            (separate [lf] [] (headOf (before ++ chunk)).buffer).2))
      rw [if_neg (not_lt.mpr small)]
      rfl
  one before a after split := by
    show (scan (scan {} before).2 [a]).1.length ≤ 1
    have front : before <+: stream := ⟨a :: after, split.symm⟩
    rw [scan_of_bounded bounded front]
    rcases headOf_append before [a] with ⟨seen, longer⟩ | ⟨waiting, short⟩
    · have whole := whole_rest (Whole.nil [lf]) (headOf before).buffer
      unfold scan
      dsimp only
      rw [seen, stripBom_done]
      dsimp only
      rw [whole.separate_append]
      exact length_separate_singleton _ _ _
    · rw [waiting, separate_of_prefix_bom short]
      show (separate [lf] [] (headOf (before ++ [a])).buffer).1.length ≤ 1
      have whole : Whole [lf] before := separate_of_prefix_bom short
      rcases buffer_headOf (before ++ [a]) with same | cut
      · rw [same, whole.separate_append]
        exact length_separate_singleton _ _ _
      · have few : before.length ≤ 3 := short.length_le
        rw [cut, List.drop_append]
        have none : before.drop 3 = [] := List.drop_eq_nil_of_le few
        rw [none, List.nil_append]
        by_cases full : before.length = 3
        · rw [full]
          exact length_separate_singleton _ _ _
        · rw [List.drop_eq_nil_of_le (by simp; omega)]
          exact Nat.zero_le _

/-! ## Events after the end -/

variable {env : A2OEnv} {s : StreamA2O}

theorem finished_handleInput (ended : s.finished = true) {input : AnthropicInput}
    {next : StreamA2O × List OpenAIFrame} (handled : s.handleInput env input = some next) :
    next.1.finished = true := by
  cases input with
  | messageStart | toolStart | text | messageDelta | nothing =>
      cases handled
      exact ended
  | inputJson key partialJson =>
      cases handled
      have still := (finished_toolIndexOf s key).trans ended
      cases partialJson <;> exact still
  | messageStop =>
      rw [handleInput, onMessageStop, if_pos ended] at handled
      cases handled
      exact ended
  | error message =>
      rw [handleInput, finishWithError, if_pos ended] at handled
      cases handled
      exact ended

theorem final (env : A2OEnv) : (translator env).Final where
  stays s line next handled ended := by
    change s.finished = true at ended
    show next.1.finished = true
    rcases handleLine_cases handled with ⟨input, _, handled⟩ | ⟨_, _, same⟩
    · have ended' : s.clear.finished = true := ended
      exact finished_handleInput ended' handled
    · rw [same, ended]
  silent s ended := by
    change s.finished = true at ended
    show s.finishSafely env = []
    simp [finishSafely, ended]

theorem bytes_ne_nil (created : ℤ) (f : OpenAIFrame) : f.bytes created ≠ [] := by
  cases f with
  | doneMarker => exact List.cons_ne_nil _ _
  | chunk id model delta finishReason usage =>
      unfold OpenAIFrame.bytes
      dsimp only
      rw [String.append_assoc, String.toList_append]
      exact List.cons_ne_nil _ _

theorem handleLine_finished {line : Bytes} {next : StreamA2O × List OpenAIFrame}
    (handled : s.handleLine env line = some next) :
    (s.finished = true → next.2 = []) ↔ ProperLine env s line := by
  refine forall_congr' fun ended => ?_
  rcases handleLine_cases handled with ⟨input, read, handled⟩ | ⟨none, silent, _⟩
  · have ended' : s.clear.finished = true := ended
    obtain ⟨quiet, loud⟩ := follow_handleInput_over ended' handled
    rw [read]
    constructor
    · intro silent input' same
      cases same
      by_contra bad
      have spoiled := loud bad
      rw [silent] at spoiled
      cases spoiled
    · exact fun proper => (quiet (proper input rfl)).1
  · rw [none]
    exact iff_of_true silent fun input mem => by cases mem

/-- The lines of a stream that `StreamA2O` does not send by accident of the chunks. -/
def Settled (env : A2OEnv) (stream : Bytes) : Prop :=
  (translator env).AlongItems (ProperLine env) (fresh env) (scan {} stream).1

theorem settled_iff (env : A2OEnv) {stream : Bytes} (bounded : Bounded stream) :
    (∃ out, ∀ chunks : List Bytes, chunks.flatten = stream →
        ((translator env).output {} (fresh env) chunks).map
          (List.flatMap (OpenAIFrame.bytes env.created)) = some out)
      ↔ Settled env stream := by
  rw [Translator.steady_iff_output (bytes_ne_nil env.created) (incremental env bounded) (final env)
    rfl]
  exact Translator.steady_iff_alongItems (fun _ => True) (fun _ _ _ _ _ _ => trivial)
    (fun _ _ _ _ handled => handleLine_finished handled) trivial _

end StreamA2O

/-- **When the output does not depend on the chunks**: for both translators, exactly when no event
raises and none that stands behind the end of the stream would still be sent.  For `StreamO2A` the
stream must not hold two carriage returns before a line feed. -/
theorem segmentation_iff (env : O2AEnv) (env' : A2OEnv) (stream : Bytes) :
    (¬ StreamO2A.DoubleReturn stream → StreamO2A.Bounded stream →
      ((∃ out, ∀ chunks : List Bytes, chunks.flatten = stream →
          ((StreamO2A.translator env).output [] {} chunks).map
            (List.flatMap AnthropicEvent.bytes) = some out)
        ↔ StreamO2A.Settled env stream))
    ∧ (StreamA2O.Bounded stream →
      ((∃ out, ∀ chunks : List Bytes, chunks.flatten = stream →
          ((StreamA2O.translator env').output {} (StreamA2O.fresh env') chunks).map
            (List.flatMap (OpenAIFrame.bytes env'.created)) = some out)
        ↔ StreamA2O.Settled env' stream)) :=
  ⟨StreamO2A.settled_iff env, StreamA2O.settled_iff env'⟩

/-! ## Two ways to cut a stream -/

namespace StreamO2A

theorem length_replaceCrlf_le (bs : Bytes) : (replaceCrlf bs).length ≤ bs.length := by
  induction bs with
  | nil => exact le_rfl
  | cons b bs ih =>
      rw [replaceCrlf]
      split
      · exact ih.trans (Nat.le_succ _)
      · exact Nat.succ_le_succ ih

theorem bounded_of_length {stream : Bytes} (short : stream.length ≤ maxBuffer) :
    Bounded stream := by
  intro before part
  obtain ⟨taken, split, _, _⟩ := separate_consumed (Whole.nil [lf, lf]) (replaceCrlf before)
  have parts := congrArg List.length split
  rw [List.nil_append, List.length_append] at parts
  have shorter := length_replaceCrlf_le before
  have front := part.length_le
  omega

/-- A finish reason, and a tool call. -/
def callAfterEnd : O2AEnv :=
  letterEnv [("a", .obj [("choices", .arr [.obj [("finish_reason", .str "stop")]])]),
    ("b", deltaChunk [("tool_calls", .arr [toolEntry 0 "call_1" "f" "\x7b\x7d"])])]

/-- The call is sent when it comes in the chunk of the finish reason, and not after it. -/
theorem callAfterEnd_differs :
    Bounded (Utf8.encode "data: a\n\ndata: b\n\n".toList)
      ∧ ((translator callAfterEnd).output [] {} [Utf8.encode "data: a\n\ndata: b\n\n".toList]).map
          (List.flatMap AnthropicEvent.bytes)
        ≠ ((translator callAfterEnd).output [] {}
            [Utf8.encode "data: a\n\n".toList, Utf8.encode "data: b\n\n".toList]).map
          (List.flatMap AnthropicEvent.bytes) := by
  refine ⟨bounded_of_length (by decide), ?_⟩
  have one : (translator callAfterEnd).output [] {}
      [Utf8.encode "data: a\n\ndata: b\n\n".toList]
      = some ([.messageStart (.str "msg_1") (.str "m"), .ping, .messageDelta "end_turn" 1,
          .messageStop] ++ [.contentBlockStart 0 (.toolUse (.str "call_1") (.str "f")),
          .contentBlockDelta 0 (.inputJson (.str "\x7b\x7d"))]) := by decide +kernel
  have two : (translator callAfterEnd).output [] {}
      [Utf8.encode "data: a\n\n".toList, Utf8.encode "data: b\n\n".toList]
      = some [.messageStart (.str "msg_1") (.str "m"), .ping, .messageDelta "end_turn" 1,
          .messageStop] := by decide +kernel
  rw [one, two]
  intro same
  have same := Option.some.inj same
  rw [List.flatMap_append] at same
  have nothing := List.flatMap_eq_nil_iff.mp (List.append_right_eq_self.mp same)
  exact bytes_ne_nil _ (nothing _ List.mem_cons_self)

end StreamO2A

end Zhongzhuan.Protocol
