import Zhongzhuan.Proxy.HeldLoop

/-!
# What the client gets without a translator

A client and an upstream of the same protocol: what the client gets are to be the bytes of the
upstream.  `passedExactly_iff` says when they are.  Two kinds of streams are cut short although
their payload comes first: one whose payload is completed by the same chunk as an error, since the
loop breaks off at the error without having passed the chunk on, and one whose only payload stands
in a last line without a line feed, which the scan never sees.
-/

namespace Zhongzhuan.Proxy

open Kit Protocol

variable {r : StreamReaders} {t : LegacyTranslator}

/-! ## What the client gets without a translator -/

theorem feedAll_passthrough (chunks : List Bytes) (u : LegacyTranslator.passthrough.State)
    {result : LegacyTranslator.passthrough.State × List LegacyTranslator.passthrough.Frame}
    (fed : LegacyTranslator.passthrough.feedAll u chunks = some result) :
    List.flatten (α := UInt8) result.2 = chunks.flatten := by
  induction chunks generalizing u result with
  | nil =>
    obtain rfl := Option.some.inj fed
    rfl
  | cons chunk chunks ih =>
    by_cases empty : chunk = []
    · have skip : LegacyTranslator.passthrough.feedAll u (chunk :: chunks)
          = LegacyTranslator.passthrough.feedAll u chunks := if_pos empty
      rw [ih u (skip.symm.trans fed), List.flatten_cons, empty, List.nil_append]
    · have step := LegacyTranslator.feedAll_cons (t := .passthrough) (s := u) empty chunks
      obtain ⟨last, later, rfl⟩ := Option.map_eq_some_iff.mp (step.symm.trans fed)
      exact congrArg (chunk ++ ·) (ih _ later)

theorem heard_shorter {held : Bytes} (buf : Whole [lf] held) {chunks : List Bytes}
    (error : r.brings .error (r.firstLines held chunks) = true) :
    (r.heard held chunks).flatten.length < chunks.flatten.length := by
  induction chunks generalizing held with
  | nil => cases error
  | cons chunk chunks ih =>
    cases event : r.eventful (separate [lf] [] (held ++ chunk)).1 with
    | true =>
      have nonempty : chunk ≠ [] := by
        rintro rfl
        rw [List.append_nil, show separate [lf] [] held = ([], held) from buf] at event
        cases event
      rw [StreamReaders.heard, if_pos error, StreamReaders.place_cons_of_eventful event,
        List.take_zero, List.flatten_cons, List.length_append]
      have positive := List.length_pos_iff.mpr nonempty
      simp only [List.flatten_nil, List.length_nil]
      omega
    | false =>
      rw [StreamReaders.firstLines_cons_of_plain event] at error
      have shorter := ih (whole_rest (.nil _) _) error
      rw [StreamReaders.heard_cons_of_plain event, List.flatten_cons, List.flatten_cons,
        List.length_append, List.length_append]
      omega

/-- The client gets the bytes of the upstream, and no others. -/
def PassedExactly (chunks : List Bytes) (o : AttemptOutcome Bytes) : Prop :=
  o.next = .served ∧ o.written.flatten = chunks.flatten

/-- Usage objects come out of the chunks from the first payload on. -/
def StreamReaders.passedUsage (r : StreamReaders) (chunks : List Bytes) : Option Fields :=
  r.usageOfChunks (chunks.drop (r.place [] chunks))

/-- The client gets everything that was written or held, unless the counts cannot be read. -/
theorem passedExactly_complete {cfg : AttemptConfig} {s : ReadState .passthrough}
    {chunks : List Bytes} :
    PassedExactly chunks (complete r cfg s) ↔
      (r.counts none s.rawStreamUsage).isSome = true
        ∧ List.flatten (α := UInt8) (s.written ++ s.pendingOut) = chunks.flatten := by
  have same : r.counts none s.rawStreamUsage = s.reported r := rfl
  rw [same]
  cases reported : s.reported r with
  | none =>
    have outcome : complete r cfg s = _ := complete_of_unreadable reported
    refine ⟨fun exactly => ?_, fun given => absurd given.1 (by simp)⟩
    have served := (congrArg AttemptOutcome.next outcome).symm.trans exactly.1
    cases served
  | some counts =>
    have outcome : complete r cfg s = _ := complete_of_reported reported
    have closing : s.written ++ s.closing.2 ++ s.pendingOut = s.written ++ s.pendingOut := by
      rw [show s.closing.2 = [] from rfl, List.append_nil]
    have written := (congrArg AttemptOutcome.written outcome).trans closing
    refine ⟨fun exactly => ⟨rfl, ?_⟩, fun given => ⟨congrArg AttemptOutcome.next outcome, ?_⟩⟩
    · exact (congrArg (List.flatten (α := UInt8)) written).symm.trans exactly.2
    · exact (congrArg (List.flatten (α := UInt8)) written).trans given.2

/-- **Byte for byte.**  A stream whose payload comes first is passed on as it is if and only if the
payload stands in a line that is ended, the chunk that completes this line completes none with an
error, and `int()` reads the counts that are kept. -/
theorem passedExactly_iff (r : StreamReaders) (cfg : AttemptConfig) (chunks : List Bytes)
    (toEnd : ReadToEnd r .passthrough chunks) (payload : r.PayloadFirst chunks.flatten) :
    PassedExactly chunks (attempt r .passthrough cfg chunks) ↔
      (r.firstLines [] chunks).isSome = true
        ∧ r.brings .error (r.firstLines [] chunks) = false
        ∧ (r.counts none (r.passedUsage chunks)).isSome = true := by
  rw [attempt_of_readToEnd toEnd]
  have read := readToEnd_read toEnd
  generalize (readChunks r (.start .passthrough) chunks).1 = s at read
  obtain ⟨saw, upError, whole, pending, held, ⟨out, fed, wrote⟩, usage⟩ := read
  change s.sawPayload = r.brings .payload (r.firstLines [] chunks) at saw
  change s.upError = r.brings .error (r.firstLines [] chunks) at upError
  change r.brings .broken (r.firstLines [] chunks) = false at whole
  change LegacyTranslator.passthrough.feedAll () (r.heard [] chunks) = _ at fed
  change s.rawStreamUsage = r.usageOfChunks ((r.heard [] chunks).drop (r.place [] chunks)) at usage
  have bytes : List.flatten (α := UInt8) (s.written ++ s.pendingOut)
      = (r.heard [] chunks).flatten := by
    rw [wrote]
    exact feedAll_passthrough _ () fed
  cases first : r.firstLines [] chunks with
  | none =>
    -- nothing was seen: the attempt counts as empty
    rw [first] at saw upError
    have noUsage : s.rawStreamUsage = none := by
      rw [usage, heard_of_no_error (by rw [first]; rfl), place_of_none first]
      rfl
    have refused : concludes r cfg s = refuse cfg (.emptyResponse cfg.singleKey) s := by
      rw [concludes, saw, upError, noUsage]
      rfl
    have notServed : ¬ PassedExactly chunks (concludes r cfg s) := by
      rintro ⟨served, -⟩
      rw [refused, refuse] at served
      split at served <;> cases served
    simp [notServed]
  | some lines =>
    rw [first] at saw upError whole
    have seen : s.sawPayload = true := saw.trans (brings_payload_of_first payload first whole)
    rw [concludes_of_saw seen, passedExactly_complete, bytes]
    cases error : r.brings .error (some lines) with
    | true =>
      -- the chunk with the error is lost
      have shorter := @heard_shorter r _ (Whole.nil [lf]) chunks
        (by rw [first]; exact error)
      have lost : (r.heard [] chunks).flatten ≠ chunks.flatten := fun same => by
        rw [same] at shorter
        exact lt_irrefl _ shorter
      simp [lost]
    | false =>
      have all := @heard_of_no_error r [] chunks
        (by rw [first]; exact error)
      rw [usage, all]
      simp [StreamReaders.passedUsage]

/-! ## A stream to try things on -/

/-- ASCII bytes. -/
def ascii (text : String) : Bytes := text.toList.map fun c => UInt8.ofNat c.toNat

/-- Readers for three objects. -/
def plainStreamReaders : StreamReaders where
  loads s :=
    if s = ascii "\x7b\"text\":\"a\"\x7d" then .value (.obj [("text", .str "a")])
    else if s = ascii "\x7b\"error\":1\x7d" then .value (.obj [("error", .int 1)])
    else .rejected
  int v := match v with
    | .int n => some n
    | _ => none

/-- A line with payload. -/
def payloadLine : Bytes := ascii "data: \x7b\"text\":\"a\"\x7d\n"

/-- A line with an error. -/
def errorLine : Bytes := ascii "data: \x7b\"error\":1\x7d\n"

/-- Payload and an error in two chunks are passed on. -/
theorem passedExactly_apart :
    ReadToEnd plainStreamReaders .passthrough [payloadLine, errorLine] ∧
      plainStreamReaders.PayloadFirst [payloadLine, errorLine].flatten ∧
      PassedExactly [payloadLine, errorLine]
        (attempt plainStreamReaders .passthrough ⟨false, 0⟩ [payloadLine, errorLine]) :=
  have toEnd : ReadToEnd plainStreamReaders .passthrough [payloadLine, errorLine] := by decide
  have payload : plainStreamReaders.PayloadFirst [payloadLine, errorLine].flatten :=
    payloadFirst_iff.mpr (by decide)
  ⟨toEnd, payload, (passedExactly_iff plainStreamReaders ⟨false, 0⟩ [payloadLine, errorLine] toEnd
    payload).mpr (by decide)⟩

/-- In one chunk they are lost. -/
theorem lost_together :
    ReadToEnd plainStreamReaders .passthrough [payloadLine ++ errorLine] ∧
      plainStreamReaders.PayloadFirst [payloadLine ++ errorLine].flatten ∧
      ¬ PassedExactly [payloadLine ++ errorLine]
        (attempt plainStreamReaders .passthrough ⟨false, 0⟩ [payloadLine ++ errorLine]) := by
  refine ⟨by decide, payloadFirst_iff.mpr (by decide), fun exactly => ?_⟩
  have nothing : (attempt plainStreamReaders .passthrough ⟨false, 0⟩
      [payloadLine ++ errorLine]).written = [] := by rfl
  have lost := exactly.2
  rw [nothing] at lost
  exact absurd lost (by decide)

end Zhongzhuan.Proxy
