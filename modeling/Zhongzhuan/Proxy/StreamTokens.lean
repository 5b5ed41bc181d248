import Zhongzhuan.Proxy.PassedExactly
import Zhongzhuan.Store.AccessTokens

/-!
# The tokens of a stream that is passed on

Without a translator `_stream_proxy` looks for the usage object in the raw chunks, one by one, from
the chunk on that completes the first line with payload.

* `StreamReaders.streamUsage` is the usage object of a stream, wherever its chunks end.
* `StreamReaders.searched` are the parts of lines that the search sees.
* `Accounted` says that the key and the access token are charged with the tokens of the stream.
* `UsageHeard` is the condition (`accounted_iff`); for a stream with one line of usage it says that
  this line lies in one chunk, and not before the payload (`accounted_iff_searched`).
-/

namespace Zhongzhuan.Proxy

open Kit Protocol Store

/-! ## Accounting -/

/-- What `record_tokens` is called with. -/
def KeyEvent.tokens : KeyEvent → Option (ℤ × ℤ)
  | .recordTokens tokensIn tokensOut => some (tokensIn, tokensOut)
  | _ => none

/-- The tokens that are recorded for the key. -/
def recordedTokens (calls : List KeyEvent) : ℤ × ℤ := (calls.filterMap KeyEvent.tokens).sum

/-- What `_log_and_deduct` does to the access tokens. -/
def logAndDeduct (table : TokenTable) (tokenId tokensIn tokensOut : ℤ) : TokenTable :=
  if 0 < tokenId ∧ (0 < tokensIn ∨ 0 < tokensOut) then
    table.deductTokenQuota tokenId (tokensIn + tokensOut)
  else table

theorem logAndDeduct_eq (table : TokenTable) (tokenId tokensIn tokensOut : ℤ) :
    logAndDeduct table tokenId tokensIn tokensOut
      = table.deductTokenQuota tokenId (tokensIn + tokensOut) := by
  unfold logAndDeduct
  split
  · rfl
  · case isFalse idle =>
    have nothing : tokensIn + tokensOut ≤ 0 ∨ tokenId ≤ 0 := by omega
    rw [TokenTable.deductTokenQuota, if_pos nothing]

section Attempt

variable (r : StreamReaders) (t : LegacyTranslator) (chunks : List Bytes)

/-- The tokens that an attempt is logged with, if it is. -/
def auditTokens : Option (ℤ × ℤ) :=
  let read := readChunks r (.start t) chunks
  let s := read.1
  if read.2 then none
  else if s.upError && !s.sawPayload then some (0, 0)
  else if !s.sawPayload && s.rawStreamUsage.isNone && (t.usage s.translator).isNone then
    some (0, 0)
  else s.reported r

/-- The access tokens after an attempt. -/
def chargeAttempt (table : TokenTable) (tokenId : ℤ) : TokenTable :=
  match auditTokens r t chunks with
  | none => table
  | some (tokensIn, tokensOut) => logAndDeduct table tokenId tokensIn tokensOut

end Attempt

/-! ## The usage of a stream, and where it is looked for -/

/-- The parts of lines in a chunk. -/
def parts (chunk : Bytes) : List Bytes :=
  let cut := separate [lf] [] chunk
  cut.1 ++ [cut.2]

namespace StreamReaders

variable (r : StreamReaders)

/-- The usage object of a line, where `json.loads` does not raise. -/
def carried (line : Bytes) : Option Fields := (r.usageOfLine line).getD none

/-- The usage object of a stream: that of the first line with one. -/
def streamUsage (stream : Bytes) : Option Fields := (wireLines stream).findSome? r.carried

/-- The parts of chunks that hold the word. -/
def partsOf (chunks : List Bytes) : List Bytes :=
  (chunks.filter fun chunk => usageWord <:+: chunk).flatMap parts

/-- The parts that are searched: from the chunk on that completes the first payload. -/
def searched (chunks : List Bytes) : List Bytes := partsOf (chunks.drop (r.place [] chunks))

/-- The tokens of a usage object that `int()` reads. -/
def tokensOf (usage : Option Fields) : ℤ × ℤ := (r.counts none usage).getD (0, 0)

end StreamReaders

/-- These are the tokens of the stream, if they can be read. -/
def StreamReaders.Reports (r : StreamReaders) (usage : Option Fields) (stream : Bytes) : Prop :=
  ∀ counts, r.counts none (r.streamUsage stream) = some counts → r.tokensOf usage = counts

/-- The key and the access token are charged with these tokens. -/
structure Charged (r : StreamReaders) (cfg : AttemptConfig) (chunks : List Bytes)
    (counts : ℤ × ℤ) : Prop where
  key : recordedTokens (attempt r .passthrough cfg chunks).calls = counts
  token : ∀ table tokenId, chargeAttempt r .passthrough chunks table tokenId
    = table.deductTokenQuota tokenId (counts.1 + counts.2)

/-- They are charged with the tokens of the stream. -/
def Accounted (r : StreamReaders) (cfg : AttemptConfig) (chunks : List Bytes) : Prop :=
  ∀ counts, r.counts none (r.streamUsage chunks.flatten) = some counts →
    Charged r cfg chunks counts

/-- The upstream is read to its end: neither an exception nor a refusal ends the loop. -/
def ReadWhole (r : StreamReaders) (chunks : List Bytes) : Prop :=
  ReadToEnd r .passthrough chunks ∧ (readChunks r (.start .passthrough) chunks).1.upError = false

instance (r : StreamReaders) (chunks : List Bytes) : Decidable (ReadWhole r chunks) :=
  inferInstanceAs (Decidable (_ ∧ _))

/-- The condition. -/
structure UsageHeard (r : StreamReaders) (chunks : List Bytes) : Prop where
  /-- The first part with a usage object has the tokens of the stream. -/
  first : ∀ before part after usage, r.searched chunks = before ++ part :: after →
    (∀ other ∈ before, r.carried other = none) → r.carried part = some usage →
      r.Reports (some usage) chunks.flatten
  /-- Where no part has one, the stream has no tokens. -/
  nothing : (∀ part ∈ r.searched chunks, r.carried part = none) → r.Reports none chunks.flatten

/-! ## What the search finds -/

variable {r : StreamReaders}

theorem StreamReaders.firstUsage_eq {lines : List Bytes} {found : Option Fields}
    (searched : r.firstUsage lines = some found) : found = lines.findSome? r.carried := by
  induction lines with
  | nil => exact (Option.some.inj searched).symm
  | cons line lines ih =>
    obtain ⟨here, ofLine, rest⟩ := Option.bind_eq_some_iff.mp searched
    rw [List.findSome?_cons, StreamReaders.carried, ofLine]
    cases here with
    | some usage => exact (Option.some.inj rest).symm
    | none => exact ih rest

theorem StreamReaders.extractUsage_eq {chunk : Bytes} {found : Option Fields}
    (searched : r.extractUsage chunk = some found) :
    found = (StreamReaders.partsOf [chunk]).findSome? r.carried := by
  unfold StreamReaders.extractUsage at searched
  unfold StreamReaders.partsOf
  split at searched
  · case isTrue absent =>
    rw [List.filter_cons_of_neg (by simpa using absent)]
    exact (Option.some.inj searched).symm
  · case isFalse there =>
    rw [List.filter_cons_of_pos (by simpa using there), List.filter_nil, List.flatMap_singleton]
    exact StreamReaders.firstUsage_eq searched

theorem StreamReaders.partsOf_cons (chunk : Bytes) (chunks : List Bytes) :
    StreamReaders.partsOf (chunk :: chunks)
      = StreamReaders.partsOf [chunk] ++ StreamReaders.partsOf chunks := by
  unfold StreamReaders.partsOf
  rw [← List.flatMap_append, ← List.filter_append, List.singleton_append]

section Fed

variable {t : LegacyTranslator} {s : ReadState t} {chunk : Bytes} {translator : t.State}
  {out : List t.Frame}

theorem fed_searched (raw : t.raw = true) (saw : s.sawPayload = true)
    (noUsage : s.rawStreamUsage = none) (feed : t.feed s.translator chunk = some (translator, out))
    {usage : Option Fields} (searched : r.extractUsage chunk = some usage) :
    ∃ passed, s.fed r chunk = .next passed ∧ passed.sawPayload = true ∧
      passed.upError = s.upError ∧ passed.rawStreamUsage = usage := by
  refine ⟨{ s with
    translator := translator
    pendingOut := []
    written := s.written ++ s.pendingOut ++ out
    rawStreamUsage := usage }, ?_, saw, rfl, rfl⟩
  simp [ReadState.fed, feed, raw, saw, noUsage, searched]

theorem fed_raised (raw : t.raw = true) (saw : s.sawPayload = true)
    (noUsage : s.rawStreamUsage = none) (feed : t.feed s.translator chunk = some (translator, out))
    (raises : r.extractUsage chunk = none) : ∃ passed, s.fed r chunk = .raised passed := by
  refine ⟨{ s with
    translator := translator, pendingOut := [], written := s.written ++ s.pendingOut ++ out }, ?_⟩
  simp [ReadState.fed, feed, raw, saw, noUsage, raises]

theorem fed_held (unsaw : s.sawPayload = false)
    (feed : t.feed s.translator chunk = some (translator, out)) :
    ∃ held, s.fed r chunk = .next held ∧ held.sawPayload = false ∧ held.upError = s.upError ∧
      held.rawStreamUsage = s.rawStreamUsage ∧ held.scanBuf = s.scanBuf := by
  refine ⟨{ s with translator := translator, pendingOut := s.pendingOut ++ out }, ?_, unsaw, rfl,
    rfl, rfl⟩
  simp [ReadState.fed, feed, unsaw]

end Fed

theorem usageOfChunks_eq {s : ReadState .passthrough} {chunks : List Bytes}
    (saw : s.sawPayload = true) (noError : s.upError = false) (noUsage : s.rawStreamUsage = none)
    (calm : (readChunks r s chunks).2 = false) :
    r.usageOfChunks chunks = (StreamReaders.partsOf chunks).findSome? r.carried := by
  induction chunks generalizing s with
  | nil => rfl
  | cons chunk chunks ih =>
    rw [StreamReaders.partsOf_cons, List.findSome?_append, StreamReaders.usageOfChunks]
    by_cases empty : chunk = []
    · have skip : s.take r chunk = .next s := if_pos empty
      rw [readChunks_of_next skip] at calm
      rw [ih saw noError noUsage calm, empty]
      rfl
    · have take : s.take r chunk = s.fed r chunk := by
        rw [ReadState.take, if_neg empty, ReadState.scanned, saw]
        simp [noError]
      cases extracted : r.extractUsage chunk with
      | none =>
        obtain ⟨passed, fed⟩ := fed_raised rfl saw noUsage rfl extracted
        rw [readChunks, take, fed] at calm
        cases calm
      | some usage =>
        obtain ⟨passed, fed, saw', noError', kept⟩ := fed_searched rfl saw noUsage rfl extracted
        rw [readChunks_of_next (take.trans fed)] at calm
        rw [← StreamReaders.extractUsage_eq extracted, Option.getD_some]
        cases usage with
        | some usage => rfl
        | none => exact ih saw' (noError'.trans noError) kept calm

theorem usageOfChunks_drop {s : ReadState .passthrough} {chunks : List Bytes}
    (unsaw : s.sawPayload = false) (noError : s.upError = false)
    (noUsage : s.rawStreamUsage = none) (buf : Whole [lf] s.scanBuf)
    (unrefused : r.brings .error (r.firstLines s.scanBuf chunks) = false)
    (calm : (readChunks r s chunks).2 = false) :
    r.usageOfChunks (chunks.drop (r.place s.scanBuf chunks)) =
      (StreamReaders.partsOf (chunks.drop (r.place s.scanBuf chunks))).findSome? r.carried := by
  induction chunks generalizing s with
  | nil =>
    rw [List.drop_nil]
    rfl
  | cons chunk chunks ih =>
    by_cases empty : chunk = []
    · have cut : separate [lf] [] (s.scanBuf ++ chunk) = ([], s.scanBuf) := by
        rw [empty, List.append_nil]
        exact buf
      have plain : r.eventful (separate [lf] [] (s.scanBuf ++ chunk)).1 = false := by
        rw [cut]
        rfl
      have skip : s.take r chunk = .next s := if_pos empty
      rw [readChunks_of_next skip] at calm
      rw [StreamReaders.firstLines_cons_of_plain plain, cut] at unrefused
      rw [StreamReaders.place_cons_of_plain plain, cut, List.drop_succ_cons]
      exact ih unsaw noError noUsage buf unrefused calm
    · cases scan : r.scanUpstreamSse s.scanBuf chunk with
      | none =>
        rw [readChunks, ReadState.take, if_neg empty, ReadState.scanned, unsaw, noError,
          scan] at calm
        cases calm
      | some found =>
        obtain ⟨rfl, intact⟩ := scanUpstreamSse_eq_some scan
        have take := take_of_scan empty unsaw noError scan
        cases event : r.eventful (separate [lf] [] (s.scanBuf ++ chunk)).1 with
        | true =>
          rw [StreamReaders.firstLines_cons_of_eventful event] at unrefused
          have payload : r.brings .payload
              (some (separate [lf] [] (s.scanBuf ++ chunk)).1) = true := by
            by_contra none
            have error := brings_of_eventful event intact (Bool.not_eq_true _ ▸ none)
            exact absurd (error.symm.trans unrefused) (by simp)
          -- the chunk is scanned, and then it is as if the payload had been there before
          have same : readChunks r s (chunk :: chunks)
              = readChunks r (s.found r chunk) (chunk :: chunks) := by
            have again : (s.found r chunk).take r chunk = (s.found r chunk).fed r chunk := by
              rw [ReadState.take, if_neg empty, ReadState.scanned,
                show (s.found r chunk).sawPayload = true from payload]
              simp [show (s.found r chunk).upError = false from unrefused]
            rw [readChunks, readChunks, again, take,
              show (s.found r chunk).upError = false from unrefused]
            rfl
          rw [same] at calm
          rw [StreamReaders.place_cons_of_eventful event, List.drop_zero]
          exact @usageOfChunks_eq r (s.found r chunk) _ payload unrefused noUsage calm
        | false =>
          have silent {kind : LineKind} (matters : kind ≠ .plain) :
              r.brings kind (some (separate [lf] [] (s.scanBuf ++ chunk)).1) = false :=
            brings_of_plain matters event
          obtain ⟨held, fed, mute, quiet, kept, buf'⟩ :=
            fed_held (r := r) (s := s.found r chunk) (silent (by simp)) rfl
          have quiet' : (s.found r chunk).upError = false := silent (by simp)
          have next := take.trans ((if_neg (by simp [quiet'])).trans fed)
          have rest : (separate [lf] [] (s.scanBuf ++ chunk)).2 = held.scanBuf := buf'.symm
          rw [readChunks_of_next next] at calm
          rw [StreamReaders.firstLines_cons_of_plain event, rest] at unrefused
          rw [StreamReaders.place_cons_of_plain event, List.drop_succ_cons, rest]
          exact ih mute (quiet.trans quiet') (kept.trans noUsage) (rest ▸ whole_rest (.nil _) _)
            unrefused calm

theorem usage_of_readWhole {chunks : List Bytes} (whole : ReadWhole r chunks) :
    (readChunks r (.start .passthrough) chunks).1.rawStreamUsage
      = (r.searched chunks).findSome? r.carried := by
  obtain ⟨calm, noError⟩ := whole
  have read := readToEnd_read calm
  have unrefused : r.brings .error (r.firstLines [] chunks) = false :=
    read.upError.symm.trans noError
  have kept : (readChunks r (.start .passthrough) chunks).1.rawStreamUsage
      = r.usageOfChunks ((r.heard [] chunks).drop (r.place [] chunks)) := read.usage
  rw [kept, heard_of_no_error unrefused]
  exact usageOfChunks_drop (s := .start .passthrough) rfl rfl rfl (.nil _) unrefused calm

/-! ## What is charged -/

theorem deductTokenQuota_zero (table : TokenTable) (tokenId : ℤ) :
    table.deductTokenQuota tokenId 0 = table := if_pos (.inl le_rfl)

theorem recordedTokens_refuse {t : LegacyTranslator} (cfg : AttemptConfig) (s : ReadState t)
    (single : Bool) : recordedTokens (refuse cfg (.emptyResponse single) s).calls = (0, 0) := rfl

theorem recordedTokens_complete {t : LegacyTranslator} (cfg : AttemptConfig) (s : ReadState t) :
    recordedTokens (complete r cfg s).calls = (s.reported r).getD (0, 0) := by
  cases reported : s.reported r with
  | none =>
    rw [complete_of_unreadable reported]
    rfl
  | some counts =>
    rw [complete_of_reported reported, Option.getD_some]
    obtain ⟨tokensIn, tokensOut⟩ := counts
    by_cases some_ : tokensIn ≠ 0 ∨ tokensOut ≠ 0
    · rw [if_pos some_]
      exact List.sum_singleton
    · obtain ⟨rfl, rfl⟩ : tokensIn = 0 ∧ tokensOut = 0 := by simpa using some_
      rfl

theorem chargeAttempt_eq (t : LegacyTranslator) (chunks : List Bytes) (table : TokenTable)
    (tokenId : ℤ) :
    chargeAttempt r t chunks table tokenId
      = table.deductTokenQuota tokenId
          (((auditTokens r t chunks).getD (0, 0)).1
            + ((auditTokens r t chunks).getD (0, 0)).2) := by
  unfold chargeAttempt
  cases auditTokens r t chunks with
  | none => exact (deductTokenQuota_zero table tokenId).symm
  | some counts => exact logAndDeduct_eq table tokenId counts.1 counts.2

theorem charged_kept (cfg : AttemptConfig) {chunks : List Bytes} (whole : ReadWhole r chunks) :
    Charged r cfg chunks (r.tokensOf ((r.searched chunks).findSome? r.carried)) := by
  have attempted : attempt r .passthrough cfg chunks = _ := attempt_of_readToEnd whole.1
  have calm : (readChunks r (.start .passthrough) chunks).2 = false := whole.1
  have audited : auditTokens r .passthrough chunks = _ := if_neg (by simp [calm])
  rw [← usage_of_readWhole whole]
  have noError := whole.2
  generalize (readChunks r (.start .passthrough) chunks).1 = s at attempted audited noError ⊢
  have ofTranslator : (LegacyTranslator.passthrough.usage s.translator).isNone = true := rfl
  have reported : s.reported r = r.counts none s.rawStreamUsage := rfl
  rw [noError, Bool.false_and, if_neg Bool.false_ne_true, ofTranslator, Bool.and_true] at audited
  rw [concludes, noError, Bool.false_and, if_neg Bool.false_ne_true, ofTranslator,
    Bool.and_true] at attempted
  by_cases empty : (!s.sawPayload && s.rawStreamUsage.isNone) = true
  · rw [if_pos empty] at attempted audited
    rw [Bool.and_eq_true, Option.isNone_iff_eq_none] at empty
    rw [empty.2]
    refine ⟨?_, fun table tokenId => ?_⟩
    · rw [attempted]
      exact recordedTokens_refuse cfg s cfg.singleKey
    · rw [chargeAttempt_eq, audited]
      rfl
  · rw [if_neg empty] at attempted audited
    refine ⟨?_, fun table tokenId => ?_⟩
    · rw [attempted, recordedTokens_complete, reported]
      rfl
    · rw [chargeAttempt_eq, audited, reported]
      rfl

theorem accounted_iff_reports (cfg : AttemptConfig) {chunks : List Bytes}
    (whole : ReadWhole r chunks) :
    Accounted r cfg chunks ↔
      r.Reports ((r.searched chunks).findSome? r.carried) chunks.flatten := by
  have charged := charged_kept cfg whole
  refine forall₂_congr fun counts _ => ⟨fun given => charged.key.symm.trans given.key, ?_⟩
  rintro rfl
  exact charged

theorem usageHeard_iff_reports {chunks : List Bytes} :
    UsageHeard r chunks ↔
      r.Reports ((r.searched chunks).findSome? r.carried) chunks.flatten := by
  cases found : (r.searched chunks).findSome? r.carried with
  | none =>
    have silent := List.findSome?_eq_none_iff.mp found
    refine ⟨fun heard => heard.nothing silent, fun reports => ⟨?_, fun _ => reports⟩⟩
    intro before part after usage split _ carries
    have none := silent part (by simp [split])
    cases carries.symm.trans none
  | some usage =>
    obtain ⟨before, part, after, split, carries, early⟩ := List.findSome?_eq_some_iff.mp found
    refine ⟨fun heard => heard.first before part after usage split early carries,
      fun reports => ⟨?_, fun silent => ?_⟩⟩
    · intro before' part' after' usage' split' early' carries'
      have found' := List.findSome?_eq_some_iff.mpr
        ⟨before', part', after', split', carries', early'⟩
      obtain rfl := Option.some.inj (found.symm.trans found')
      exact reports
    · cases carries.symm.trans (silent part (by simp [split]))

/-- **The tokens of the stream are the tokens that are charged**, for every stream that is read to
its end and however it is cut, if and only if the condition holds. -/
theorem accounted_iff (r : StreamReaders) (cfg : AttemptConfig) (chunks : List Bytes)
    (whole : ReadWhole r chunks) : Accounted r cfg chunks ↔ UsageHeard r chunks := by
  rw [accounted_iff_reports cfg whole, usageHeard_iff_reports]

/-! ## Usage in one chunk and in two -/

/-- Readers for an object with payload and one with usage. -/
def meteredReaders : StreamReaders where
  loads s :=
    if s = ascii "\x7b\"text\":\"a\"\x7d" then .value (.obj [("text", .str "a")])
    else if s = ascii "\x7b\"usage\":\x7b\"input_tokens\":5,\"output_tokens\":7\x7d\x7d" then
      .value (.obj [("usage", .obj [("input_tokens", .int 5), ("output_tokens", .int 7)])])
    else .rejected
  int v := match v with
    | .int n => some n
    | _ => none

/-- The first part of a line with usage. -/
def usageFront : Bytes := ascii "data: \x7b\"usage\":\x7b\"input_tokens\":5,"

/-- The other part. -/
def usageBack : Bytes := ascii "\"output_tokens\":7\x7d\x7d\n"

/-- The line is a chunk of its own. -/
theorem accounted_together :
    ReadWhole meteredReaders [payloadLine, usageFront ++ usageBack] ∧
      Accounted meteredReaders ⟨false, 0⟩ [payloadLine, usageFront ++ usageBack] := by
  have whole : ReadWhole meteredReaders [payloadLine, usageFront ++ usageBack] := by decide
  refine ⟨whole, (accounted_iff meteredReaders ⟨false, 0⟩ _ whole).mpr
    (usageHeard_iff_reports.mpr fun counts reads => ?_)⟩
  have ofStream : meteredReaders.counts none
      (meteredReaders.streamUsage [payloadLine, usageFront ++ usageBack].flatten)
        = some (5, 7) := by decide
  obtain rfl := Option.some.inj (ofStream.symm.trans reads)
  decide

/-- It arrives in two. -/
theorem cutUsage_lost :
    ReadWhole meteredReaders [payloadLine, usageFront, usageBack] ∧
      (∃ line ∈ wireLines [payloadLine, usageFront, usageBack].flatten,
        meteredReaders.lineKind line = .payload) ∧
      ¬ Accounted meteredReaders ⟨false, 0⟩ [payloadLine, usageFront, usageBack] := by
  refine ⟨by decide, by decide, fun accounted => ?_⟩
  have charged := accounted (5, 7) (by decide)
  exact absurd charged.key (by decide)

end Zhongzhuan.Proxy
