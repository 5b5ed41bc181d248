import Zhongzhuan.Proxy.HeldStream

/-!
# The loop that holds a stream, as a function of its chunks

`readChunks` looks at lines while it holds, and at chunks when it breaks off or passes on.

* `StreamReaders.firstLines` are the lines that the first chunk with something to say completes;
  `StreamReaders.heard` are the chunks that reach the translator.
* `Read` says what the loop makes of a stream in these terms, `readChunks_read` that it does.
* `StreamReaders.PayloadFirst` is about the stream alone, and `payloadFirst_iff` finds the first
  word of a stream.
-/

namespace Zhongzhuan.Proxy

open Kit Protocol

variable (r : StreamReaders) {t : LegacyTranslator}

/-! ## The first lines that matter -/

namespace StreamReaders

/-- A chunk completes a line that matters. -/
def eventful (lines : List Bytes) : Bool := lines.any fun line => r.lineKind line ≠ .plain

/-- The lines completed by the first chunk that completes one that matters. -/
def firstLines (held : Bytes) (chunks : List Bytes) : Option (List Bytes) :=
  (arrivals [lf] held chunks).1.find? r.eventful

/-- The number of chunks before it. -/
def place (held : Bytes) (chunks : List Bytes) : ℕ :=
  (arrivals [lf] held chunks).1.findIdx r.eventful

/-- One of these lines is of some kind. -/
def brings (kind : LineKind) (lines : Option (List Bytes)) : Bool :=
  ((lines.getD []).map r.lineKind).contains kind

/-- The chunks that are passed to the translator: a refusal ends the attempt. -/
def heard (held : Bytes) (chunks : List Bytes) : List Bytes :=
  if r.brings .error (r.firstLines held chunks) then chunks.take (r.place held chunks) else chunks

/-- The usage object that is kept: only chunks from the first payload on are searched. -/
def usageOfChunks : List Bytes → Option Fields
  | [] => none
  | chunk :: chunks => ((r.extractUsage chunk).getD none).orElse fun _ => usageOfChunks chunks

variable {r} {held chunk : Bytes} {chunks : List Bytes}

theorem firstLines_cons_of_eventful
    (event : r.eventful (separate [lf] [] (held ++ chunk)).1 = true) :
    r.firstLines held (chunk :: chunks) = some (separate [lf] [] (held ++ chunk)).1 := by
  rw [firstLines, arrivals]
  exact List.find?_cons_of_pos event

theorem firstLines_cons_of_plain
    (plain : r.eventful (separate [lf] [] (held ++ chunk)).1 = false) :
    r.firstLines held (chunk :: chunks)
      = r.firstLines (separate [lf] [] (held ++ chunk)).2 chunks := by
  rw [firstLines, arrivals]
  exact List.find?_cons_of_neg (by simp [plain])

theorem place_cons_of_eventful
    (event : r.eventful (separate [lf] [] (held ++ chunk)).1 = true) :
    r.place held (chunk :: chunks) = 0 := by
  rw [place, arrivals, List.findIdx_cons, event]
  rfl

theorem place_cons_of_plain (plain : r.eventful (separate [lf] [] (held ++ chunk)).1 = false) :
    r.place held (chunk :: chunks) = r.place (separate [lf] [] (held ++ chunk)).2 chunks + 1 := by
  rw [place, arrivals, List.findIdx_cons, plain]
  rfl

theorem heard_cons_of_plain (plain : r.eventful (separate [lf] [] (held ++ chunk)).1 = false) :
    r.heard held (chunk :: chunks)
      = chunk :: r.heard (separate [lf] [] (held ++ chunk)).2 chunks := by
  rw [heard, heard, firstLines_cons_of_plain plain, place_cons_of_plain plain, List.take_succ_cons]
  split <;> rfl

end StreamReaders

/-! ## The loop, as a function of the chunks -/

/-- The translator, fed with chunks. -/
def LegacyTranslator.feedAll (t : LegacyTranslator) :
    t.State → List Bytes → Option (t.State × List t.Frame)
  | s, [] => some (s, [])
  | s, chunk :: chunks =>
    if chunk = [] then t.feedAll s chunks
    else
      (t.feed s chunk).bind fun next =>
        (t.feedAll next.1 chunks).map fun last => (last.1, next.2 ++ last.2)

variable {r}

theorem LegacyTranslator.feedAll_cons {s : t.State} {chunk : Bytes} (nonempty : chunk ≠ [])
    (chunks : List Bytes) :
    t.feedAll s (chunk :: chunks)
      = (t.feed s chunk).bind fun next =>
          (t.feedAll next.1 chunks).map fun last => (last.1, next.2 ++ last.2) := by
  rw [LegacyTranslator.feedAll, if_neg nonempty]

/-- What feeding the translator with a chunk does. -/
structure Fed (r : StreamReaders) (chunk : Bytes) (s s' : ReadState t) : Prop where
  fed : ∃ out, t.feed s.translator chunk = some (s'.translator, out)
    ∧ s'.written ++ s'.pendingOut = s.written ++ s.pendingOut ++ out
  scanBuf : s'.scanBuf = s.scanBuf
  saw : s'.sawPayload = s.sawPayload
  upError : s'.upError = s.upError
  pending : s.sawPayload = true → s'.pendingOut = []
  held : s.sawPayload = false → s'.written = s.written
  usage : s'.rawStreamUsage
    = if t.raw && s.sawPayload then
        s.rawStreamUsage.orElse fun _ => (r.extractUsage chunk).getD none
      else s.rawStreamUsage

theorem fed_of_next {s s' : ReadState t} {chunk : Bytes} (next : s.fed r chunk = .next s') :
    Fed r chunk s s' := by
  unfold ReadState.fed at next
  cases fed : t.feed s.translator chunk with
  | none =>
    rw [fed] at next
    cases next
  | some result =>
    obtain ⟨translator, out⟩ := result
    rw [fed] at next
    cases saw : s.sawPayload with
    | false =>
      simp only [saw, Bool.not_false, if_true, ReadStep.next.injEq] at next
      subst next
      exact ⟨⟨out, fed, by simp⟩, rfl, saw.symm, rfl, by simp [saw], fun _ => rfl, by simp [saw]⟩
    | true =>
      simp only [saw, Bool.not_true, Bool.false_eq_true, if_false] at next
      have whole : s.written ++ s.pendingOut ++ out ++ [] = s.written ++ s.pendingOut ++ out :=
        List.append_nil _
      split at next
      case isTrue raw =>
        rw [Bool.and_eq_true, Option.isNone_iff_eq_none] at raw
        split at next
        · cases next
        case h_2 usage extracted =>
          obtain rfl := ReadStep.next.inj next
          exact ⟨⟨out, fed, whole⟩, rfl, saw.symm, rfl, fun _ => rfl,
            fun unsaw => by simp [saw] at unsaw, by simp [saw, raw, extracted]⟩
      case isFalse raw =>
        obtain rfl := ReadStep.next.inj next
        refine ⟨⟨out, fed, whole⟩, rfl, saw.symm, rfl, fun _ => rfl,
          fun unsaw => by simp [saw] at unsaw, ?_⟩
        cases isRaw : t.raw with
        | false => simp
        | true =>
          cases kept : s.rawStreamUsage with
          | none => exact absurd (by simp [isRaw, kept]) raw
          | some usage => simp [saw]

theorem fed_ne_stop {s s' : ReadState t} {chunk : Bytes} : s.fed r chunk ≠ .stop s' := by
  intro stop
  simp only [ReadState.fed] at stop
  split at stop
  · cases stop
  · split at stop
    · cases stop
    · split at stop
      · split at stop <;> cases stop
      · cases stop

/-- What the loop makes of the state once the payload is there. -/
structure PassedOn (r : StreamReaders) (chunks : List Bytes) (s s' : ReadState t) : Prop where
  saw : s'.sawPayload = true
  upError : s'.upError = false
  pending : s.pendingOut = [] → s'.pendingOut = []
  fed : ∃ out, t.feedAll s.translator chunks = some (s'.translator, out)
    ∧ s'.written ++ s'.pendingOut = s.written ++ s.pendingOut ++ out
  usage : s'.rawStreamUsage
    = if t.raw then s.rawStreamUsage.orElse fun _ => r.usageOfChunks chunks
      else s.rawStreamUsage

theorem readChunks_of_next {s s' : ReadState t} {chunk : Bytes} {chunks : List Bytes}
    (next : s.take r chunk = .next s') :
    readChunks r s (chunk :: chunks) = readChunks r s' chunks := by
  rw [readChunks, next]

theorem readChunks_passedOn {s : ReadState t} {chunks : List Bytes} (saw : s.sawPayload = true)
    (noError : s.upError = false) (calm : (readChunks r s chunks).2 = false) :
    PassedOn r chunks s (readChunks r s chunks).1 := by
  induction chunks generalizing s with
  | nil =>
    refine ⟨saw, noError, id, ⟨[], rfl, (List.append_nil _).symm⟩, ?_⟩
    change s.rawStreamUsage = _
    split
    · cases s.rawStreamUsage <;> rfl
    · rfl
  | cons chunk chunks ih =>
    by_cases empty : chunk = []
    · have skip : s.take r chunk = .next s := if_pos empty
      rw [readChunks_of_next skip] at calm ⊢
      obtain ⟨saw', noError', pending', fed', usage'⟩ := ih saw noError calm
      refine ⟨saw', noError', pending', ?_, ?_⟩
      · rw [LegacyTranslator.feedAll, if_pos empty]
        exact fed'
      · have nothing : r.extractUsage chunk = some none := by
          rw [empty]
          rfl
        rw [usage', StreamReaders.usageOfChunks, nothing]
        rfl
    · have take : s.take r chunk = s.fed r chunk := by
        rw [ReadState.take, if_neg empty, ReadState.scanned, saw]
        simp [noError]
      cases step : s.fed r chunk with
      | stop s' => exact absurd step fed_ne_stop
      | raised s' =>
        rw [readChunks, take, step] at calm
        cases calm
      | next s' =>
        rw [readChunks_of_next (take.trans step)] at calm ⊢
        have fed := fed_of_next step
        obtain ⟨out, feed, wrote⟩ := fed.fed
        obtain ⟨saw', noError', pending', ⟨more, feedAll, wrote'⟩, usage'⟩ :=
          ih (fed.saw.trans saw) (fed.upError.trans noError) calm
        refine ⟨saw', noError', fun _ => pending' (fed.pending saw), ⟨out ++ more, ?_, ?_⟩, ?_⟩
        · rw [t.feedAll_cons empty, feed, Option.bind_some, feedAll]
          rfl
        · rw [wrote', wrote, List.append_assoc]
        · rw [usage', fed.usage, saw, Bool.and_true, StreamReaders.usageOfChunks]
          cases t.raw with
          | false => rfl
          | true =>
            rw [if_pos rfl, if_pos rfl, if_pos rfl]
            cases s.rawStreamUsage <;> rfl

/-! ### Before the payload -/

theorem scanUpstreamSse_eq_some {buf chunk : Bytes} {found : Bool × Bool × Bytes}
    (scanned : r.scanUpstreamSse buf chunk = some found) :
    found = (((separate [lf] [] (buf ++ chunk)).1.map r.lineKind).contains .payload,
        ((separate [lf] [] (buf ++ chunk)).1.map r.lineKind).contains .error,
        (separate [lf] [] (buf ++ chunk)).2)
      ∧ ((separate [lf] [] (buf ++ chunk)).1.map r.lineKind).contains .broken = false := by
  simp only [StreamReaders.scanUpstreamSse] at scanned
  split at scanned
  · cases scanned
  case isFalse whole => exact ⟨(Option.some.inj scanned).symm, by simpa using whole⟩

/-- What the loop makes of a state without payload and error. -/
structure Read (r : StreamReaders) (chunks : List Bytes) (s s' : ReadState t) : Prop where
  saw : s'.sawPayload = r.brings .payload (r.firstLines s.scanBuf chunks)
  upError : s'.upError = r.brings .error (r.firstLines s.scanBuf chunks)
  whole : r.brings .broken (r.firstLines s.scanBuf chunks) = false
  pending : s'.sawPayload = true → s'.upError = false → s'.pendingOut = []
  held : s'.sawPayload = false ∨ s'.upError = true → s'.written = s.written
  fed : ∃ out, t.feedAll s.translator (r.heard s.scanBuf chunks) = some (s'.translator, out)
    ∧ s'.written ++ s'.pendingOut = s.written ++ s.pendingOut ++ out
  usage : s'.rawStreamUsage
    = if t.raw then
        r.usageOfChunks ((r.heard s.scanBuf chunks).drop (r.place s.scanBuf chunks))
      else none

theorem brings_of_plain {kind : LineKind} (matters : kind ≠ .plain) {lines : List Bytes}
    (plain : r.eventful lines = false) : r.brings kind (some lines) = false := by
  rw [StreamReaders.brings, Option.getD_some, Bool.eq_false_iff]
  intro there
  obtain ⟨line, mem, is⟩ := List.mem_map.mp (List.contains_iff_mem.mp there)
  refine absurd plain ?_
  rw [StreamReaders.eventful, Bool.not_eq_false, List.any_eq_true]
  exact ⟨line, mem, decide_eq_true (by rw [is]; exact matters)⟩

theorem brings_of_eventful {lines : List Bytes} (event : r.eventful lines = true)
    (whole : r.brings .broken (some lines) = false)
    (noPayload : r.brings .payload (some lines) = false) :
    r.brings .error (some lines) = true := by
  obtain ⟨line, mem, matters⟩ := List.any_eq_true.mp event
  have member (kind : LineKind) (is : r.lineKind line = kind) :
      r.brings kind (some lines) = true := by
    rw [StreamReaders.brings, Option.getD_some]
    exact List.contains_iff_mem.mpr (List.mem_map.mpr ⟨line, mem, is⟩)
  cases kind : r.lineKind line with
  | plain => exact absurd kind (of_decide_eq_true matters)
  | payload => exact absurd ((member _ kind).symm.trans noPayload) (by simp)
  | error => exact member _ kind
  | broken => exact absurd ((member _ kind).symm.trans whole) (by simp)

/-- The state after the scan of a chunk. -/
def ReadState.found (r : StreamReaders) (s : ReadState t) (chunk : Bytes) : ReadState t :=
  let lines := (separate [lf] [] (s.scanBuf ++ chunk)).1
  { s with
    scanBuf := (separate [lf] [] (s.scanBuf ++ chunk)).2
    sawPayload := r.brings .payload (some lines)
    upError := r.brings .error (some lines) }

variable {s s' s'' : ReadState t} {chunk : Bytes} {chunks : List Bytes}

theorem take_of_scan (nonempty : chunk ≠ []) (unsaw : s.sawPayload = false)
    (noError : s.upError = false)
    (scan : r.scanUpstreamSse s.scanBuf chunk = some
      (((separate [lf] [] (s.scanBuf ++ chunk)).1.map r.lineKind).contains .payload,
        ((separate [lf] [] (s.scanBuf ++ chunk)).1.map r.lineKind).contains .error,
        (separate [lf] [] (s.scanBuf ++ chunk)).2)) :
    s.take r chunk
      = if (s.found r chunk).upError then .stop (s.found r chunk)
        else (s.found r chunk).fed r chunk := by
  rw [ReadState.take, if_neg nonempty, ReadState.scanned, unsaw, noError, scan]
  rfl

theorem Read.of_error (noUsage : s.rawStreamUsage = none)
    (intact : r.brings .broken (some (separate [lf] [] (s.scanBuf ++ chunk)).1) = false)
    (error : r.brings .error (some (separate [lf] [] (s.scanBuf ++ chunk)).1) = true) :
    Read r (chunk :: chunks) s (s.found r chunk) := by
  have event : r.eventful (separate [lf] [] (s.scanBuf ++ chunk)).1 = true := by
    by_contra plain
    exact absurd (error.symm.trans (brings_of_plain (by simp) (Bool.eq_false_iff.mpr plain)))
      (by simp)
  have lines := @StreamReaders.firstLines_cons_of_eventful _ _ _ chunks event
  have heard : r.heard s.scanBuf (chunk :: chunks) = [] := by
    rw [StreamReaders.heard, lines, if_pos error,
      StreamReaders.place_cons_of_eventful event, List.take_zero]
  refine ⟨lines ▸ rfl, lines ▸ rfl, lines ▸ intact, fun _ noError => ?_, fun _ => rfl, ?_, ?_⟩
  · exact absurd (error.symm.trans noError) (by simp)
  · rw [heard]
    exact ⟨[], rfl, (List.append_nil _).symm⟩
  · rw [heard, List.drop_nil]
    change s.rawStreamUsage = _
    rw [noUsage]
    split <;> rfl

theorem Read.of_payload (nonempty : chunk ≠ []) (noUsage : s.rawStreamUsage = none)
    (intact : r.brings .broken (some (separate [lf] [] (s.scanBuf ++ chunk)).1) = false)
    (payload : r.brings .payload (some (separate [lf] [] (s.scanBuf ++ chunk)).1) = true)
    (noError : r.brings .error (some (separate [lf] [] (s.scanBuf ++ chunk)).1) = false)
    (fed : Fed r chunk (s.found r chunk) s') (passed : PassedOn r chunks s' s'') :
    Read r (chunk :: chunks) s s'' := by
  have event : r.eventful (separate [lf] [] (s.scanBuf ++ chunk)).1 = true := by
    by_contra plain
    exact absurd (payload.symm.trans (brings_of_plain (by simp) (Bool.eq_false_iff.mpr plain)))
      (by simp)
  have lines := @StreamReaders.firstLines_cons_of_eventful _ _ _ chunks event
  have heard : r.heard s.scanBuf (chunk :: chunks) = chunk :: chunks := by
    rw [StreamReaders.heard, lines, if_neg (by rw [noError]; simp)]
  obtain ⟨out, feed, wrote⟩ := fed.fed
  obtain ⟨more, feedAll, wrote'⟩ := passed.fed
  refine ⟨lines ▸ passed.saw.trans payload.symm, lines ▸ passed.upError.trans noError.symm,
    lines ▸ intact, fun _ _ => passed.pending (fed.pending payload), ?_, ⟨out ++ more, ?_, ?_⟩, ?_⟩
  · rintro (unsaw | error)
    · exact absurd (unsaw.symm.trans passed.saw) (by simp)
    · exact absurd (error.symm.trans passed.upError) (by simp)
  · rw [heard, t.feedAll_cons nonempty]
    rw [show t.feed s.translator chunk = _ from feed, Option.bind_some, feedAll]
    rfl
  · rw [wrote', wrote, List.append_assoc]
    rfl
  · rw [passed.usage, fed.usage, heard, StreamReaders.place_cons_of_eventful event, List.drop_zero,
      StreamReaders.usageOfChunks, show (s.found r chunk).sawPayload = true from payload,
      show (s.found r chunk).rawStreamUsage = none from noUsage, Bool.and_true]
    cases t.raw <;> rfl

theorem Read.of_plain (nonempty : chunk ≠ [])
    (intact : r.brings .broken (some (separate [lf] [] (s.scanBuf ++ chunk)).1) = false)
    (noPayload : r.brings .payload (some (separate [lf] [] (s.scanBuf ++ chunk)).1) = false)
    (noError : r.brings .error (some (separate [lf] [] (s.scanBuf ++ chunk)).1) = false)
    (fed : Fed r chunk (s.found r chunk) s')
    (buf : s'.scanBuf = (separate [lf] [] (s.scanBuf ++ chunk)).2) (read : Read r chunks s' s'') :
    Read r (chunk :: chunks) s s'' := by
  have plain : r.eventful (separate [lf] [] (s.scanBuf ++ chunk)).1 = false := by
    by_contra event
    exact absurd (noError.symm.trans
      (brings_of_eventful (Bool.not_eq_false _ ▸ event) intact noPayload)) (by simp)
  obtain ⟨out, feed, wrote⟩ := fed.fed
  obtain ⟨saw, upError, whole, pending, held, ⟨more, feedAll, wrote'⟩, usage⟩ := read
  rw [buf] at saw upError whole feedAll usage
  have lines := @StreamReaders.firstLines_cons_of_plain _ _ _ chunks plain
  refine ⟨lines ▸ saw, lines ▸ upError, lines ▸ whole, pending, fun quiet => ?_,
    ⟨out ++ more, ?_, ?_⟩, ?_⟩
  · exact (held quiet).trans (fed.held noPayload)
  · rw [StreamReaders.heard_cons_of_plain plain, t.feedAll_cons nonempty]
    rw [show t.feed s.translator chunk = _ from feed, Option.bind_some, feedAll]
    rfl
  · rw [wrote', wrote, List.append_assoc]
    rfl
  · rw [usage, StreamReaders.heard_cons_of_plain plain, StreamReaders.place_cons_of_plain plain,
      List.drop_succ_cons]

/-- **The loop.**  What it makes of the stream is settled by the first chunk that completes a
line that matters. -/
theorem readChunks_read {s : ReadState t} {chunks : List Bytes} (unsaw : s.sawPayload = false)
    (noError : s.upError = false) (noUsage : s.rawStreamUsage = none)
    (buf : Whole [lf] s.scanBuf) (calm : (readChunks r s chunks).2 = false) :
    Read r chunks s (readChunks r s chunks).1 := by
  induction chunks generalizing s with
  | nil =>
    refine ⟨unsaw, noError, rfl, fun saw => ?_, fun _ => rfl,
      ⟨[], rfl, (List.append_nil _).symm⟩, ?_⟩
    · exact absurd (unsaw.symm.trans saw) (by simp)
    · change s.rawStreamUsage = _
      rw [noUsage]
      split <;> rfl
  | cons chunk chunks ih =>
    by_cases empty : chunk = []
    · have skip : s.take r chunk = .next s := if_pos empty
      have cut : separate [lf] [] (s.scanBuf ++ chunk) = ([], s.scanBuf) := by
        rw [empty, List.append_nil]
        exact buf
      have plain : r.eventful (separate [lf] [] (s.scanBuf ++ chunk)).1 = false := by
        rw [cut]
        rfl
      rw [readChunks_of_next skip] at calm ⊢
      obtain ⟨saw', noError', whole', pending', held', fed', usage'⟩ :=
        ih unsaw noError noUsage buf calm
      have lines := @StreamReaders.firstLines_cons_of_plain _ _ _ chunks plain
      have place := @StreamReaders.place_cons_of_plain _ _ _ chunks plain
      have heard := @StreamReaders.heard_cons_of_plain _ _ _ chunks plain
      rw [cut] at lines place heard
      refine ⟨lines ▸ saw', lines ▸ noError', lines ▸ whole', pending', held', ?_, ?_⟩
      · rw [heard, LegacyTranslator.feedAll, if_pos empty]
        exact fed'
      · rw [heard, place, List.drop_succ_cons]
        exact usage'
    · cases scan : r.scanUpstreamSse s.scanBuf chunk with
      | none =>
        rw [readChunks, ReadState.take, if_neg empty, ReadState.scanned, unsaw, noError,
          scan] at calm
        cases calm
      | some found =>
        obtain ⟨rfl, intact⟩ := scanUpstreamSse_eq_some scan
        have take := take_of_scan empty unsaw noError scan
        cases error : r.brings .error (some (separate [lf] [] (s.scanBuf ++ chunk)).1) with
        | true =>
          have stop : s.take r chunk = .stop (s.found r chunk) := take.trans (if_pos error)
          rw [readChunks, stop]
          exact .of_error noUsage intact error
        | false =>
          have fedStep : s.take r chunk = (s.found r chunk).fed r chunk :=
            take.trans (if_neg (by rw [show (s.found r chunk).upError = false from error]; simp))
          cases step : (s.found r chunk).fed r chunk with
          | stop s' => exact absurd step fed_ne_stop
          | raised s' =>
            rw [readChunks, fedStep, step] at calm
            cases calm
          | next s' =>
            rw [readChunks_of_next (fedStep.trans step)] at calm ⊢
            have fed := fed_of_next step
            cases payload : r.brings .payload (some (separate [lf] [] (s.scanBuf ++ chunk)).1) with
            | true =>
              exact .of_payload empty noUsage intact payload error fed
                (readChunks_passedOn (fed.saw.trans payload) (fed.upError.trans error) calm)
            | false =>
              have buf' : s'.scanBuf = (separate [lf] [] (s.scanBuf ++ chunk)).2 := fed.scanBuf
              refine .of_plain empty intact payload error fed buf'
                (ih (fed.saw.trans payload) (fed.upError.trans error) ?_ ?_ calm)
              · rw [fed.usage, show (s.found r chunk).sawPayload = false from payload]
                simpa [ReadState.found] using noUsage
              · rw [buf']
                exact whole_rest (.nil _) _

theorem readToEnd_read {chunks : List Bytes} (toEnd : ReadToEnd r t chunks) :
    Read r chunks (.start t) (readChunks r (.start t) chunks).1 :=
  readChunks_read rfl rfl rfl (.nil _) toEnd

theorem attempt_of_readToEnd {cfg : AttemptConfig} {chunks : List Bytes}
    (toEnd : ReadToEnd r t chunks) :
    attempt r t cfg chunks = concludes r cfg (readChunks r (.start t) chunks).1 :=
  if_neg (by rw [toEnd]; simp)

/-! ## The lines of a stream -/

/-- The lines of a stream; the last one may lack its line feed. -/
def wireLines (stream : Bytes) : List Bytes :=
  let cut := separate [lf] [] stream
  cut.1 ++ if cut.2 = [] then [] else [cut.2]

namespace StreamReaders

/-- A line with payload comes before any line with an error. -/
def PayloadFirst (r : StreamReaders) (stream : Bytes) : Prop :=
  ∃ front line back, wireLines stream = front ++ line :: back ∧ r.lineKind line = .payload
    ∧ ∀ other ∈ front, r.lineKind other ≠ .error

theorem firstLines_eq_some {chunks : List Bytes} {lines : List Bytes}
    (first : r.firstLines [] chunks = some lines) :
    r.eventful lines = true ∧ ∃ before after,
      (separate [lf] [] chunks.flatten).1 = before ++ (lines ++ after)
        ∧ ∀ line ∈ before, r.lineKind line = .plain := by
  obtain ⟨event, before, after, groups, plain⟩ := List.find?_eq_some_iff_append.mp first
  refine ⟨event, before.flatten, after.flatten, ?_, fun line mem => ?_⟩
  · have whole := congrArg Prod.fst (arrivals_flatten (Whole.nil [lf]) chunks)
    rw [List.nil_append] at whole
    rw [whole, groups, List.flatten_append, List.flatten_cons]
  · obtain ⟨group, inBefore, inGroup⟩ := List.mem_flatten.mp mem
    have quiet := plain group inBefore
    rw [Bool.not_eq_true', StreamReaders.eventful, List.any_eq_false] at quiet
    simpa using quiet line inGroup

theorem firstLines_eq_none {chunks : List Bytes} (none : r.firstLines [] chunks = none) :
    ∀ line ∈ (separate [lf] [] chunks.flatten).1, r.lineKind line = .plain := by
  intro line mem
  have whole := congrArg Prod.fst (arrivals_flatten (Whole.nil [lf]) chunks)
  rw [List.nil_append] at whole
  rw [whole] at mem
  obtain ⟨group, inGroups, inGroup⟩ := List.mem_flatten.mp mem
  have quiet := List.find?_eq_none.mp none group inGroups
  rw [Bool.not_eq_true, StreamReaders.eventful, List.any_eq_false] at quiet
  simpa using quiet line inGroup

end StreamReaders

theorem brings_iff {kind : LineKind} {lines : List Bytes} :
    r.brings kind (some lines) = true ↔ ∃ line ∈ lines, r.lineKind line = kind := by
  rw [StreamReaders.brings, Option.getD_some, List.contains_iff_mem, List.mem_map]

/-- The first line with payload or an error. -/
def StreamReaders.firstWord (r : StreamReaders) (lines : List Bytes) : Option LineKind :=
  (lines.map r.lineKind).find? fun kind => kind = .payload ∨ kind = .error

theorem firstWord_eq_some {lines : List Bytes} {kind : LineKind}
    (found : r.firstWord lines = some kind) :
    (kind = .payload ∨ kind = .error) ∧ ∃ line ∈ lines, r.lineKind line = kind := by
  have word := List.find?_some found
  exact ⟨of_decide_eq_true word, List.mem_map.mp (List.mem_of_find?_eq_some found)⟩

theorem firstWord_append {before lines : List Bytes}
    (plain : ∀ line ∈ before, r.lineKind line = .plain) :
    r.firstWord (before ++ lines) = r.firstWord lines := by
  rw [StreamReaders.firstWord, List.map_append, List.find?_append, List.find?_eq_none.mpr]
  · rfl
  · rintro kind mem
    obtain ⟨line, inBefore, rfl⟩ := List.mem_map.mp mem
    simp [plain line inBefore]

theorem firstWord_append_of_some {lines more : List Bytes} {kind : LineKind}
    (found : r.firstWord lines = some kind) : r.firstWord (lines ++ more) = some kind := by
  unfold StreamReaders.firstWord at found ⊢
  rw [List.map_append, List.find?_append, found]
  rfl

theorem payloadFirst_iff {stream : Bytes} :
    r.PayloadFirst stream ↔ r.firstWord (wireLines stream) = some .payload := by
  unfold StreamReaders.PayloadFirst StreamReaders.firstWord
  generalize wireLines stream = lines
  constructor
  · rintro ⟨front, line, back, rfl, payload, early⟩
    induction front with
    | nil => simp [payload]
    | cons other front ih =>
      have later := ih fun l mem => early l (List.mem_cons_of_mem other mem)
      rw [List.cons_append, List.map_cons, List.find?_cons]
      cases kind : r.lineKind other with
      | payload => rfl
      | error => exact absurd kind (early other List.mem_cons_self)
      | plain | broken => exact later
  · intro found
    obtain ⟨-, before, after, split, quiet⟩ := List.find?_eq_some_iff_append.mp found
    obtain ⟨front, rest, rfl, rfl, restEq⟩ := List.map_eq_append_iff.mp split
    obtain ⟨line, back, rfl, isPayload, rfl⟩ := List.map_eq_cons_iff.mp restEq
    refine ⟨front, line, back, rfl, isPayload, fun other mem isError => ?_⟩
    have none := quiet _ (List.mem_map_of_mem mem)
    rw [isError] at none
    exact absurd none (by simp)

theorem firstWord_of_no_payload {lines more : List Bytes}
    (error : r.brings .error (some lines) = true)
    (noPayload : r.brings .payload (some lines) = false) :
    r.firstWord (lines ++ more) = some .error := by
  obtain ⟨bad, inLines, isError⟩ := brings_iff.mp error
  have there : (r.firstWord lines).isSome = true := by
    rw [StreamReaders.firstWord, List.find?_isSome]
    exact ⟨_, List.mem_map_of_mem inLines, by simp [isError]⟩
  obtain ⟨kind, found⟩ := Option.isSome_iff_exists.mp there
  rw [firstWord_append_of_some found]
  obtain ⟨rfl | rfl, line, mem, is⟩ := firstWord_eq_some found
  · exact absurd ((brings_iff.mpr ⟨line, mem, is⟩).symm.trans noPayload) (by simp)
  · rfl

theorem brings_payload_of_first {chunks : List Bytes} {lines : List Bytes}
    (payload : r.PayloadFirst chunks.flatten) (first : r.firstLines [] chunks = some lines)
    (whole : r.brings .broken (some lines) = false) : r.brings .payload (some lines) = true := by
  obtain ⟨event, before, after, cut, plain⟩ := StreamReaders.firstLines_eq_some first
  by_contra none
  have noPayload : r.brings .payload (some lines) = false := Bool.not_eq_true _ ▸ none
  have word := payloadFirst_iff.mp payload
  simp only [wireLines, cut] at word
  rw [List.append_assoc, firstWord_append plain, List.append_assoc,
    firstWord_of_no_payload (brings_of_eventful event whole noPayload) noPayload] at word
  cases word

/-! ## The ends of an attempt -/

theorem place_of_none {chunks : List Bytes} (none : r.firstLines [] chunks = none) :
    chunks.drop (r.place [] chunks) = [] := by
  have all : r.place [] chunks = chunks.length := by
    rw [StreamReaders.place, List.findIdx_eq_length.mpr, length_arrivals]
    exact fun lines mem => Bool.not_eq_true _ ▸ List.find?_eq_none.mp none lines mem
  rw [all, List.drop_length]

theorem heard_of_no_error {held : Bytes} {chunks : List Bytes}
    (noError : r.brings .error (r.firstLines held chunks) = false) :
    r.heard held chunks = chunks :=
  if_neg (by rw [noError]; simp)

theorem concludes_of_saw {cfg : AttemptConfig} {s : ReadState t} (saw : s.sawPayload = true) :
    concludes r cfg s = complete r cfg s := by
  simp [concludes, saw]

/-- The counts of an attempt that has come to its end. -/
def ReadState.reported (r : StreamReaders) (s : ReadState t) : Option (ℤ × ℤ) :=
  r.counts (t.usage s.closing.1) s.rawStreamUsage

theorem complete_of_reported {cfg : AttemptConfig} {s : ReadState t} {counts : ℤ × ℤ}
    (reported : s.reported r = some counts) :
    complete r cfg s =
      { calls := .success ::
          if counts.1 ≠ 0 ∨ counts.2 ≠ 0 then [.recordTokens counts.1 counts.2] else []
        audit := some 200
        written := s.written ++ s.closing.2 ++ s.pendingOut
        next := .served } := by
  unfold ReadState.reported at reported
  simp only [complete, reported]

theorem complete_of_unreadable {cfg : AttemptConfig} {s : ReadState t}
    (unreadable : s.reported r = none) :
    complete r cfg s =
      { calls := [.success, .networkFailure cfg.singleKey]
        audit := none
        written := s.written ++ s.closing.2
        next := .again } := by
  unfold ReadState.reported at unreadable
  simp only [complete, unreadable]

end Zhongzhuan.Proxy
