import Zhongzhuan.Protocol.SseReference
import Zhongzhuan.Protocol.SseSafety

/-!
# Blocks over the limit

The docstring of the constructor says that a block over the limit is dropped whole,
counted once, and that parsing resumes after the next blank line.  Skipping ends at the
first empty line it is handed, and after the valve has thrown away the front of a line
the rest of that line may be empty: then skipping ends inside the block, and its
remaining lines are read as a block of their own.

* `arrivedBlocks` are the blocks of the stream with the deliveries they arrived in;
  `ledger` runs over them and records what each of them produced.
* `OversizeDropped` is the promise.  `oversize_dropped_iff`: it is kept exactly when
  nothing raises, no block is over the limit only by its blank line, and wherever a
  discard ends at the end of a line the rest of the block has no event in it.
-/

namespace Zhongzhuan.Protocol.Sse

open Kit

/-- After its front was thrown away, the line ends with an empty rest: skipping stops
here. -/
def Arrival.resumes (a : Arrival) : Bool :=
  match a.parts.getLast? with
  | some (.line rest) => rest.text.isEmpty
  | _ => false

/-- The block of a segment of arrivals. -/
def arrivedBlock (g : Segment Arrival) : Block := .ofSegment (g.map Arrival.line)

/-- The deliveries of a block. -/
def arrivedDeliveries (g : Segment Arrival) : List Delivery :=
  g.body.flatMap Arrival.parts ++ g.stop.elim [.finish] Arrival.parts

/-- The blocks of a stream as they arrive. -/
def arrivedBlocks (max : ℕ) (chunks : List Bytes) : List (Segment Arrival) :=
  segments (fun a => isBlank a.line) [] (arrivals (Reader.stream max ⟨[], false⟩ chunks))

theorem arrivedBlocks_blocks (max : ℕ) (chunks : List Bytes) :
    (arrivedBlocks max chunks).map arrivedBlock = streamBlocks chunks.flatten := by
  have lines := segments_map (p := fun a => isBlank a.line) (q := isBlank)
    (f := Arrival.line) (fun _ => rfl) []
    (arrivals (Reader.stream max ⟨[], false⟩ chunks))
  rw [stream_lines_fresh, List.map_nil] at lines
  rw [streamBlocks, ← lines, List.map_map]
  rfl

theorem arrivedBlocks_deliveries (max : ℕ) (chunks : List Bytes) :
    (Reader.calls max ⟨[], false⟩ (Reader.callsOf chunks)).1
      = (arrivedBlocks max chunks).flatMap arrivedDeliveries := by
  have parts := arrivals_parts (Reader.stream_discards max ⟨[], false⟩ chunks).1
  have cut := segments_flatMap (fun a => isBlank a.line) Arrival.parts [.finish] []
    (arrivals (Reader.stream max ⟨[], false⟩ chunks))
  rw [parts, List.flatMap_nil, List.nil_append] at cut
  rw [calls_fresh, ← cut]
  rfl

/-- What can be said of every block that arrives. -/
structure Arrived (max : ℕ) (g : Segment Arrival) : Prop where
  fields : ∀ a ∈ g.body, a.line.text ≠ []
  shapes : ∀ a ∈ g.body, a.Shape max
  stop : ∀ a ∈ g.stop, a = .whole a.line ∧ a.line.text = []

theorem arrivedBlocks_arrived {max : ℕ} (positive : 0 < max) (chunks : List Bytes) :
    ∀ g ∈ arrivedBlocks max chunks, Arrived max g := by
  intro g member
  obtain ⟨fields, blank⟩ := segments_separate (by simp) member
  have shapes := arrivals_shape positive (Reader.stream_discards max ⟨[], false⟩ chunks)
  have inStream : ∀ a ∈ g.members, a.Shape max := by
    intro a inSegment
    refine shapes a ?_
    have all := segments_members (fun a : Arrival => isBlank a.line) []
      (arrivals (Reader.stream max ⟨[], false⟩ chunks))
    rw [List.nil_append] at all
    rw [← all]
    exact List.mem_flatMap.2 ⟨g, member, inSegment⟩
  refine ⟨fun a inBody => ?_, fun a inBody => ?_, fun a isStop => ?_⟩
  · simpa [isBlank] using fields a inBody
  · exact inStream a (List.mem_append_left _ inBody)
  · have empty : a.line.text = [] := by simpa [isBlank] using blank a isStop
    refine ⟨?_, empty⟩
    rcases inStream a (List.mem_append_right _ (by simpa using isStop)) with whole | ⟨_, text, _⟩
    · exact whole
    · exact absurd empty text

/-! ## Skipping -/

namespace BlockState

/-- Skipping has ended. -/
def cleared (s : BlockState) : BlockState := { s with skipBlock := false }.resetBlock

theorem cleared_clean (s : BlockState) : s.cleared.Clean := by
  simp [Clean, reading, cleared, resetBlock, valuesOf, lastOf]

theorem deliver_skipping {c : Config} {s : BlockState} (skipping : s.skipBlock = true)
    (l : Line) :
    s.deliver c (.line l) = (if l.text = [] then s.cleared else s, .ok none) := by
  simp only [deliver, consumeLine, skipping, if_true]
  split <;> rfl

theorem valve_skipping {s : BlockState} (skipping : s.skipBlock = true) : s.valve = s := by
  simp [valve, skipping]

theorem deliverAll_discards {c : Config} {s : BlockState} (skipping : s.skipBlock = true)
    (xs : List Bytes) : s.deliverAll c (xs.map .discard) = (s, .ok []) := by
  induction xs with
  | nil => rfl
  | cons x xs ih =>
      have first : s.deliver c (.discard x) = (s, .ok none) := by
        rw [deliver, valve_skipping skipping]
      rw [List.map_cons, deliverAll_cons_ok first, ih]
      rfl

theorem deliverAll_skipping {c : Config} {s : BlockState} (skipping : s.skipBlock = true)
    {max : ℕ} {a : Arrival} (field : a.line.text ≠ []) (shape : a.Shape max) :
    s.deliverAll c a.parts = (if a.resumes then s.cleared else s, .ok []) := by
  rcases shape with whole | ⟨_, _, xs, nonempty, parts | ⟨rest, parts⟩⟩
  · rw [whole]
    have kept : (Arrival.whole a.line).resumes = false := by
      simp [Arrival.resumes, Arrival.whole, field]
    rw [kept, Arrival.whole, deliverAll_singleton, deliver_skipping skipping, if_neg field]
    rfl
  · have kept : a.resumes = false := by
      rcases List.eq_nil_or_concat xs with rfl | ⟨ys, y, rfl⟩
      · exact absurd rfl nonempty
      · simp [Arrival.resumes, parts]
    rw [kept, parts, deliverAll_discards skipping]
    rfl
  · have last : a.resumes = rest.text.isEmpty := by
      simp [Arrival.resumes, parts]
    rw [parts, deliverAll_append_ok (deliverAll_discards skipping xs), deliverAll_singleton,
      deliver_skipping skipping, last]
    cases rest.text <;> simp [Except.map]

theorem deliverAll_skipping_all {c : Config} {s : BlockState}
    (skipping : s.skipBlock = true) {max : ℕ} {as : List Arrival}
    (fields : ∀ a ∈ as, a.line.text ≠ []) (shapes : ∀ a ∈ as, a.Shape max)
    (none : ∀ a ∈ as, a.resumes = false) :
    s.deliverAll c (as.flatMap Arrival.parts) = (s, .ok []) := by
  induction as with
  | nil => rfl
  | cons a as ih =>
      rw [List.forall_mem_cons] at fields shapes none
      have first := deliverAll_skipping (c := c) skipping fields.1 shapes.1
      rw [none.1] at first
      rw [List.flatMap_cons, deliverAll_append_nil first]
      exact ih fields.2 shapes.2 none.2

theorem deliverAll_skipping_stop {c : Config} {s : BlockState}
    (skipping : s.skipBlock = true) {max : ℕ} {g : Segment Arrival} (arrived : Arrived max g) :
    s.deliverAll c (g.stop.elim [.finish] Arrival.parts) = (s.cleared, .ok []) := by
  cases stop : g.stop with
  | none =>
      rw [Option.elim_none, deliverAll_singleton, deliver, if_pos skipping]
      rfl
  | some a =>
      obtain ⟨whole, empty⟩ := arrived.stop a (by simp [stop])
      rw [Option.elim_some, whole, Arrival.whole, deliverAll_singleton,
        deliver_skipping skipping, if_pos empty]
      rfl

/-! ## Going over the limit -/

theorem valve_reading (s : BlockState) (lines : List Line) :
    (s.reading lines).valve
      = { ((s.reading lines).noteMalformed .oversize).resetBlock with skipBlock := true } :=
  rfl

theorem deliverAll_over {c : Config} (s : BlockState) {held : List Line} {a : Arrival}
    (field : a.line.text ≠ []) (shape : a.Shape c.maxEventBytes)
    (beyond : c.maxEventBytes < ((held ++ [a.line]).map Line.raw).flatten.length)
    (es : List Delivery) :
    (s.reading held).deliverAll c (a.parts ++ es)
      = (s.reading held).valve.deliverAll c (a.parts ++ es) := by
  have skipping : (s.reading held).valve.skipBlock = true := rfl
  rcases shape with whole | ⟨_, _, xs, nonempty, parts⟩
  · have before : (s.reading held).deliver c (.line a.line)
        = ((s.reading held).valve, .ok none) := by
      rw [deliver, consumeLine_of_reading rfl, if_neg field, if_pos (by simpa using beyond)]
      rfl
    have after : (s.reading held).valve.deliver c (.line a.line)
        = ((s.reading held).valve, .ok none) := by
      rw [deliver_skipping skipping, if_neg field]
    rw [whole, Arrival.whole, List.singleton_append, deliverAll_cons_ok before,
      deliverAll_cons_ok after]
  · obtain ⟨x, xs, rfl⟩ := List.exists_cons_of_ne_nil nonempty
    have before : (s.reading held).deliver c (.discard x)
        = ((s.reading held).valve, .ok none) := rfl
    have after : (s.reading held).valve.deliver c (.discard x)
        = ((s.reading held).valve, .ok none) := by
      rw [deliver, valve_skipping skipping]
    obtain ⟨more, first⟩ : ∃ more, a.parts = .discard x :: more := by
      rcases parts with parts | ⟨rest, parts⟩
      · exact ⟨_, parts⟩
      · exact ⟨_, parts⟩
    rw [first, List.cons_append, deliverAll_cons_ok before, deliverAll_cons_ok after]

theorem whole_of_small {c : Config} {held : List Line} {a : Arrival}
    (shape : a.Shape c.maxEventBytes)
    (small : ((held ++ [a.line]).map Line.raw).flatten.length ≤ c.maxEventBytes) :
    a = .whole a.line := by
  rcases shape with whole | ⟨beyond, _⟩
  · exact whole
  · simp only [List.map_append, List.flatten_append, List.length_append, List.map_cons,
      List.flatten_cons, List.map_nil, List.flatten_nil, List.length_nil] at small
    omega

/-- **A block over the limit.**  The lines that fit are read, and from the first that
does not the block is skipped. -/
theorem deliverAll_until_over {c : Config} (s : BlockState) {held : List Line}
    {as : List Arrival} (fields : ∀ a ∈ as, a.line.text ≠ [])
    (shapes : ∀ a ∈ as, a.Shape c.maxEventBytes)
    (beyond : c.maxEventBytes < ((held ++ as.map Arrival.line).map Line.raw).flatten.length)
    (small : (held.map Line.raw).flatten.length ≤ c.maxEventBytes) (es : List Delivery)
    (returns : ((s.reading held).deliverAll c (as.flatMap Arrival.parts ++ es)).2.isOk = true) :
    ∃ pre post, as = pre ++ post ∧ (∀ a ∈ pre, a.resumes = false)
      ∧ (s.reading held).deliverAll c (as.flatMap Arrival.parts ++ es)
        = (s.reading (held ++ pre.map Arrival.line)).valve.deliverAll c
            (post.flatMap Arrival.parts ++ es) := by
  induction as generalizing held with
  | nil =>
      simp only [List.map_nil, List.append_nil] at beyond
      omega
  | cons a as ih =>
      rw [List.forall_mem_cons] at fields shapes
      by_cases fits : ((held ++ [a.line]).map Line.raw).flatten.length ≤ c.maxEventBytes
      · have whole := whole_of_small shapes.1 fits
        have parts : a.parts = [.line a.line] := by rw [whole]; rfl
        have first := deliver_field c s fields.1 fits
        have digits : fieldOf a.line.text ≠ .longRetry := by
          intro long
          rw [if_pos long] at first
          rw [List.flatMap_cons, parts, List.append_assoc, List.singleton_append,
            deliverAll_cons_error first] at returns
          simp [Except.isOk, Except.toBool] at returns
        rw [if_neg digits] at first
        have one : (s.reading held).deliverAll c a.parts
            = (s.reading (held ++ [a.line]), .ok []) := by
          rw [parts, deliverAll_singleton, first]
          rfl
        rw [List.flatMap_cons, List.append_assoc, deliverAll_append_nil one] at returns ⊢
        obtain ⟨pre, post, rfl, none, same⟩ :=
          ih fields.2 shapes.2 (by simpa using beyond) fits returns
        refine ⟨a :: pre, post, rfl, ?_, ?_⟩
        · refine List.forall_mem_cons.2 ⟨?_, none⟩
          rw [whole]
          simp [Arrival.resumes, Arrival.whole, fields.1]
        · rw [same, List.append_assoc]
          rfl
      · refine ⟨[], a :: as, rfl, by simp, ?_⟩
        rw [List.flatMap_cons, List.append_assoc, List.map_nil, List.append_nil]
        exact deliverAll_over s fields.1 shapes.1 (Nat.not_le.1 fits) _

theorem count_oversize_lineNotes (lines : List Line) :
    (lines.flatMap fun l => lineNotes l.text).count .oversize = 0 := by
  rw [List.count_eq_zero]
  intro member
  obtain ⟨l, -, note⟩ := List.mem_flatMap.1 member
  unfold lineNotes at note
  split at note
  · cases note
  · rcases List.mem_append.1 note with utf8 | field
    · split at utf8 <;> simp at utf8
    · cases kind : fieldOf l.text <;> simp [kind, Field.notes] at field

theorem count_oversize_notes (c : Config) (b : Block) : (b.notes c).count .oversize = 0 := by
  rw [Block.notes, List.count_append, count_oversize_lineNotes]
  split <;> rfl

theorem valve_oversize (s : BlockState) (lines : List Line) :
    (s.reading lines).valve.reasons .oversize = s.reasons .oversize + 1 := by
  rw [valve_reading, noteMalformed_eq]
  simp [resetBlock, noteAll, reading, count_oversize_lineNotes]

/-- **What a block over the limit comes to**: it is skipped to its end, or to the first
line with which skipping ends, and what is left of it is then read as a block of its
own. -/
theorem deliverAll_oversize {c : Config} {s : BlockState} (clean : s.Clean)
    {g : Segment Arrival} (arrived : Arrived c.maxEventBytes g)
    (beyond : c.maxEventBytes < (arrivedBlock g).fieldBytes.length)
    (returns : (s.deliverAll c (arrivedDeliveries g)).2.isOk = true) :
    ∃ u : BlockState, u.Clean ∧ u.reasons .oversize = s.reasons .oversize + 1
      ∧ ((∀ a ∈ g.body, a.resumes = false)
          ∧ s.deliverAll c (arrivedDeliveries g) = (u, .ok [])
        ∨ ∃ pre a post, g.body = pre ++ a :: post ∧ (∀ b ∈ pre, b.resumes = false)
          ∧ a.resumes = true
          ∧ s.deliverAll c (arrivedDeliveries g)
            = u.deliverAll c (arrivedDeliveries ⟨post, g.stop⟩)) := by
  have fields := arrived.fields
  have shapes := arrived.shapes
  rw [← clean] at returns
  obtain ⟨pre, post, split, none, same⟩ := deliverAll_until_over s fields shapes
    (by simpa [arrivedBlock, Block.fieldBytes, Block.ofSegment, Segment.map] using beyond)
    (Nat.zero_le _) _ returns
  rw [clean] at same
  generalize skip : (s.reading ([] ++ pre.map Arrival.line)).valve = v at same
  have skipping : v.skipBlock = true := by rw [← skip]; rfl
  have counted : v.cleared.reasons .oversize = s.reasons .oversize + 1 := by
    rw [← valve_oversize s ([] ++ pre.map Arrival.line), skip]
    rfl
  have inBody : ∀ a ∈ post, a ∈ g.body := by
    intro a member
    rw [split]
    exact List.mem_append_right _ member
  refine ⟨v.cleared, v.cleared_clean, counted, ?_⟩
  cases first : post.find? Arrival.resumes with
  | none =>
      left
      have never : ∀ a ∈ post, a.resumes = false := by
        simpa using List.find?_eq_none.1 first
      refine ⟨?_, ?_⟩
      · intro a member
        rw [split] at member
        exact (List.mem_append.1 member).elim (none a) (never a)
      · rw [arrivedDeliveries, same, deliverAll_append_nil (deliverAll_skipping_all skipping
          (fun a member => fields a (inBody a member))
          (fun a member => shapes a (inBody a member)) never)]
        exact deliverAll_skipping_stop skipping arrived
  | some a =>
      right
      obtain ⟨ends, before, after, rfl, never⟩ := List.find?_eq_some_iff_append.1 first
      have never' : ∀ b ∈ before, b.resumes = false := by simpa using never
      refine ⟨pre ++ before, a, after, by simp [split], ?_, ends, ?_⟩
      · intro b member
        exact (List.mem_append.1 member).elim (none b) (never' b)
      · have stopsHere := deliverAll_skipping (c := c) skipping
          (fields a (inBody a (by simp))) (shapes a (inBody a (by simp)))
        rw [ends, if_pos rfl] at stopsHere
        rw [arrivedDeliveries, same, List.flatMap_append, List.append_assoc,
          deliverAll_append_nil (deliverAll_skipping_all skipping
            (fun b member => fields b (inBody b (List.mem_append_left _ member)))
            (fun b member => shapes b (inBody b (List.mem_append_left _ member))) never'),
          List.flatMap_cons, List.append_assoc, deliverAll_append_nil stopsHere]
        rfl

/-! ## Blocks within the limit -/

theorem digits_of_returns {c : Config} (s : BlockState) (held : List Line)
    {lines : List Line}
    (fields : ∀ l ∈ lines, l.text ≠ [])
    (small : ((held ++ lines).map Line.raw).flatten.length ≤ c.maxEventBytes)
    {es : List Delivery}
    (returns : ((s.reading held).deliverAll c (lines.map .line ++ es)).2.isOk = true) :
    ∀ l ∈ lines, fieldOf l.text ≠ .longRetry := by
  induction lines generalizing held with
  | nil => simp
  | cons l lines ih =>
      rw [List.forall_mem_cons] at fields
      have smaller : ((held ++ [l]).map Line.raw).flatten.length ≤ c.maxEventBytes := by
        simp only [List.map_append, List.flatten_append, List.length_append, List.map_cons,
          List.flatten_cons, List.map_nil, List.flatten_nil, List.length_nil] at small ⊢
        omega
      have first := deliver_field c s fields.1 smaller
      have digits : fieldOf l.text ≠ .longRetry := by
        intro long
        rw [if_pos long] at first
        rw [List.map_cons, List.cons_append, deliverAll_cons_error first] at returns
        simp [Except.isOk, Except.toBool] at returns
      rw [if_neg digits] at first
      have one : (s.reading held).deliverAll c [.line l]
          = (s.reading (held ++ [l]), .ok []) := by
        rw [deliverAll_singleton, first]
        rfl
      rw [List.map_cons, ← List.singleton_append, List.append_assoc,
        deliverAll_append_nil one] at returns
      have rest := ih (held ++ [l]) fields.2 (by simpa using small) returns
      exact List.forall_mem_cons.2 ⟨digits, rest⟩

theorem json_of_returns {c : Config} (s : BlockState) {g : Segment Line}
    (blank : ∀ l ∈ g.stop, l.text = [])
    (returns : ((s.reading g.body).deliverAll c
      (g.stop.elim [.finish] fun l => [.line l])).2.isOk = true) :
    (Block.ofSegment g).jsonProbe c ≠ .raises := by
  intro raises
  have raised := dispatch_reading_raises c s (.ofSegment g) raises
  rw [show (Block.ofSegment g).lines = g.body from rfl] at raised
  cases stop : g.stop with
  | none =>
      have same : { s.reading g.body with rawBlock := (Block.ofSegment g).raw }
          = s.reading g.body := by
        rw [show (Block.ofSegment g).raw = (g.body.map Line.raw).flatten by
          simp [Block.raw, Block.fieldBytes, Block.ofSegment, stop]]
        rfl
      rw [same] at raised
      rw [stop, Option.elim_none, deliverAll_singleton, deliver, if_neg (by simp)] at returns
      rcases found : (s.reading g.body).dispatch c with ⟨t, e | frame⟩
      · simp [found, Except.map, Except.isOk, Except.toBool] at returns
      · simp [found] at raised
  | some l =>
      have same : { s.reading g.body with rawBlock := (Block.ofSegment g).raw }
          = { s.reading g.body with rawBlock := (s.reading g.body).rawBlock ++ l.raw } := by
        rw [show (Block.ofSegment g).raw = (g.body.map Line.raw).flatten ++ l.raw by
          simp [Block.raw, Block.fieldBytes, Block.ofSegment, stop]]
        rfl
      rw [same] at raised
      rw [stop, Option.elim_some, deliverAll_singleton, deliver, consumeLine_of_reading rfl,
        if_pos (blank l (by simp [stop]))] at returns
      have failed := congrArg (fun r => (Except.map Option.toList r).isOk) raised
      exact Bool.noConfusion (returns.symm.trans failed)

theorem arrivedDeliveries_small {max : ℕ} {g : Segment Arrival} (arrived : Arrived max g)
    (small : (arrivedBlock g).fieldBytes.length ≤ max) :
    arrivedDeliveries g = segmentDeliveries (g.map Arrival.line) := by
  have wholes : ∀ a ∈ g.body, a.parts = [.line a.line] := by
    intro a member
    rcases arrived.shapes a member with whole | ⟨beyond, _⟩
    · rw [whole]; rfl
    · have inBlock : a.line.raw.Sublist (arrivedBlock g).fieldBytes :=
        List.sublist_flatten_of_mem (List.mem_map_of_mem (List.mem_map_of_mem member))
      have := inBlock.length_le
      omega
  rw [arrivedDeliveries, segmentDeliveries, List.flatMap_congr wholes]
  congr 1
  · simp [Segment.map, ← List.map_eq_flatMap, Function.comp_def]
  · cases stop : g.stop with
    | none => simp [Segment.map, stop]
    | some a =>
        have whole := (arrived.stop a (by simp [stop])).1
        have parts : a.parts = [.line a.line] := by rw [whole]; rfl
        simp [Segment.map, stop, parts]

theorem deliverAll_small {c : Config} {s : BlockState} (clean : s.Clean)
    {g : Segment Arrival} (arrived : Arrived c.maxEventBytes g)
    (small : (arrivedBlock g).fieldBytes.length ≤ c.maxEventBytes)
    (returns : (s.deliverAll c (arrivedDeliveries g)).2.isOk = true) :
    s.deliverAll c (arrivedDeliveries g)
      = (s.afterBlock c (arrivedBlock g), .ok ((arrivedBlock g).frame c).toList) := by
  rw [arrivedDeliveries_small arrived small] at returns ⊢
  have fields : ∀ l ∈ (g.map Arrival.line).body, l.text ≠ [] := by
    simpa [Segment.map] using arrived.fields
  have blank : ∀ l ∈ (g.map Arrival.line).stop, l.text = [] := by
    intro l isStop
    obtain ⟨a, stop, rfl⟩ := Option.map_eq_some_iff.1 (Option.mem_def.1 isStop)
    exact (arrived.stop a stop).2
  have digits := digits_of_returns s [] fields small (by rw [clean]; exact returns)
  have read : s.deliverAll c ((g.map Arrival.line).body.map .line)
      = (s.reading (g.map Arrival.line).body, .ok []) := by
    have all := deliverAll_fields s [] fields small digits
    rwa [clean, List.nil_append] at all
  have json : (arrivedBlock g).jsonProbe c ≠ .raises := by
    rw [segmentDeliveries, deliverAll_append_nil read] at returns
    exact json_of_returns s blank returns
  exact deliverAll_segment clean ⟨fields, blank, small, digits, json⟩

theorem arrived_rest {max : ℕ} {g : Segment Arrival} (arrived : Arrived max g)
    {pre post : List Arrival} {a : Arrival} (split : g.body = pre ++ a :: post) :
    Arrived max ⟨post, g.stop⟩ := by
  have inBody : ∀ b ∈ post, b ∈ g.body := by
    intro b member
    rw [split]
    exact List.mem_append_right _ (List.mem_cons_of_mem _ member)
  exact ⟨fun b member => arrived.fields b (inBody b member),
    fun b member => arrived.shapes b (inBody b member), arrived.stop⟩

theorem deliverAll_outcome {c : Config} {s : BlockState} (clean : s.Clean)
    {g : Segment Arrival} (arrived : Arrived c.maxEventBytes g)
    (returns : (s.deliverAll c (arrivedDeliveries g)).2.isOk = true) :
    (s.deliverAll c (arrivedDeliveries g)).1.Clean
      ∧ (c.maxEventBytes < (arrivedBlock g).fieldBytes.length →
        s.reasons .oversize < (s.deliverAll c (arrivedDeliveries g)).1.reasons .oversize)
      ∧ s.reasons .oversize ≤ (s.deliverAll c (arrivedDeliveries g)).1.reasons .oversize := by
  -- On the number of field lines: what is left after a resumption is a shorter block.
  induction lines : g.body.length using Nat.strongRecOn generalizing s g with
  | ind n ih =>
      by_cases small : (arrivedBlock g).fieldBytes.length ≤ c.maxEventBytes
      · rw [deliverAll_small clean arrived small returns]
        refine ⟨afterBlock_clean c s _, fun beyond => absurd small (Nat.not_le.2 beyond), ?_⟩
        exact Nat.le_add_right _ _
      · obtain ⟨u, uClean, counted, whole | ⟨pre, a, post, split, -, -, same⟩⟩ :=
          deliverAll_oversize clean arrived (Nat.not_le.1 small) returns
        · rw [whole.2]
          dsimp only
          exact ⟨uClean, fun _ => by omega, by omega⟩
        · rw [same] at returns ⊢
          have shorter : post.length < n := by
            rw [← lines, split, List.length_append, List.length_cons]
            omega
          obtain ⟨restClean, -, more⟩ :=
            ih post.length shorter uClean (arrived_rest arrived split) returns rfl
          exact ⟨restClean, fun _ => by omega, by omega⟩

/-- Nothing of the block after one of its lines, taken as a block of its own, is an event
or over the limit. -/
def Inert (c : Config) (b : Block) : Prop :=
  b.fieldBytes.length ≤ c.maxEventBytes ∧ b.frame c = none

/-- The field lines alone are over the limit, and wherever skipping ends early the rest of
the block is inert. -/
def Harmless (c : Config) (g : Segment Arrival) : Prop :=
  c.maxEventBytes < (arrivedBlock g).fieldBytes.length
    ∧ ∀ pre a post, g.body = pre ++ a :: post → a.resumes = true →
      Inert c (arrivedBlock ⟨post, g.stop⟩)

theorem over_of_resumes {max : ℕ} {a : Arrival} (field : a.line.text ≠ [])
    (shape : a.Shape max) (resumes : a.resumes = true) : max < a.line.raw.length := by
  rcases shape with whole | ⟨beyond, _⟩
  · rw [whole] at resumes
    simp [Arrival.resumes, Arrival.whole, field] at resumes
  · exact beyond

theorem resumes_unique {max : ℕ} {g : Segment Arrival} (arrived : Arrived max g)
    {pre post pre' post' : List Arrival} {a b : Arrival}
    (split : g.body = pre ++ a :: post) (never : ∀ b ∈ pre, b.resumes = false)
    (small : (arrivedBlock ⟨post, g.stop⟩).fieldBytes.length ≤ max)
    (split' : g.body = pre' ++ b :: post') (resumes : b.resumes = true) :
    post' = post := by
  have notBefore : b ∉ pre := fun member => by simp [never b member] at resumes
  have notAfter : b ∉ post := by
    intro member
    have inBody : b ∈ g.body := by simp [split']
    have beyond := over_of_resumes (arrived.fields b inBody) (arrived.shapes b inBody) resumes
    have inRest : b.line.raw.Sublist (arrivedBlock ⟨post, g.stop⟩).fieldBytes :=
      List.sublist_flatten_of_mem (List.mem_map_of_mem (List.mem_map_of_mem member))
    have := inRest.length_le
    omega
  rw [split] at split'
  rcases List.append_eq_append_iff.1 split' with ⟨between, -, tail⟩ | ⟨between, head, tail⟩
  · cases between with
    | nil => exact (List.cons.inj tail).2.symm
    | cons d between =>
        obtain ⟨-, rest⟩ := List.cons.inj tail
        exact absurd (by simp [rest]) notAfter
  · cases between with
    | nil => exact (List.cons.inj tail).2
    | cons d between =>
        obtain ⟨rfl, -⟩ := List.cons.inj tail
        exact absurd (by simp [head]) notBefore

theorem dropped_iff_harmless {c : Config} {s : BlockState} (clean : s.Clean)
    {g : Segment Arrival} (arrived : Arrived c.maxEventBytes g)
    (returns : (s.deliverAll c (arrivedDeliveries g)).2.isOk = true) :
    (s.deliverAll c (arrivedDeliveries g)).2 = .ok []
        ∧ (s.deliverAll c (arrivedDeliveries g)).1.reasons .oversize
          = s.reasons .oversize + 1
      ↔ Harmless c g := by
  by_cases small : (arrivedBlock g).fieldBytes.length ≤ c.maxEventBytes
  · refine iff_of_false ?_ fun harmless => absurd small (Nat.not_le.2 harmless.1)
    rw [deliverAll_small clean arrived small returns]
    simp [afterBlock, noteAll, count_oversize_notes]
  · have beyond := Nat.not_le.1 small
    obtain ⟨u, uClean, counted, ⟨never, same⟩ | ⟨pre, a, post, split, never, resumes, same⟩⟩ :=
      deliverAll_oversize clean arrived beyond returns
    · refine iff_of_true (by rw [same]; exact ⟨rfl, counted⟩) ⟨beyond, ?_⟩
      intro pre a post split resumes
      have := never a (by simp [split])
      simp [this] at resumes
    · have rest := arrived_rest arrived split
      rw [same] at returns ⊢
      rw [← counted]
      constructor
      · rintro ⟨noFrame, once⟩
        have restSmall : (arrivedBlock ⟨post, g.stop⟩).fieldBytes.length
            ≤ c.maxEventBytes := by
          by_contra restOver
          have twice := (deliverAll_outcome uClean rest returns).2.1 (Nat.not_le.1 restOver)
          omega
        rw [deliverAll_small uClean rest restSmall returns] at noFrame
        refine ⟨beyond, fun pre' b post' split' resumes' => ?_⟩
        rw [resumes_unique arrived split never restSmall split' resumes']
        exact ⟨restSmall, by simpa using noFrame⟩
      · intro harmless
        obtain ⟨restSmall, noFrame⟩ := harmless.2 pre a post split resumes
        rw [deliverAll_small uClean rest restSmall returns, noFrame]
        simp [afterBlock, noteAll, count_oversize_notes]

/-! ## The counters only grow -/

theorem reasons_le_noteAll (s : BlockState) (notes : List MalformedReason)
    (reason : MalformedReason) : s.reasons reason ≤ (s.noteAll notes).reasons reason :=
  Nat.le_add_right _ _

theorem reasons_le_dispatch (c : Config) (s : BlockState) (reason : MalformedReason) :
    s.reasons reason ≤ (s.dispatch c).1.reasons reason := by
  rw [dispatch_eq]
  split
  · split
    · exact Nat.le_refl _
    · exact reasons_le_noteAll s _ reason
    · exact Nat.le_refl _
  · exact Nat.le_refl _

theorem applyField_reasons (s : BlockState) (field : Field) :
    (s.applyField field).reasons = s.reasons := by
  cases field <;> rfl

theorem reasons_le_deliver (c : Config) (s : BlockState) (d : Delivery)
    (reason : MalformedReason) : s.reasons reason ≤ (s.deliver c d).1.reasons reason := by
  cases d with
  | discard x =>
      simp only [deliver, valve]
      split
      · exact Nat.le_refl _
      · rw [noteMalformed_eq]
        exact reasons_le_noteAll s _ reason
  | finish =>
      simp only [deliver]
      split
      · exact Nat.le_refl _
      · have grows := reasons_le_dispatch c s reason
        rcases found : s.dispatch c with ⟨t, e | frame⟩ <;>
          simpa [found, resetBlock] using grows
  | line l =>
      cases skip : s.skipBlock with
      | true =>
          rw [deliver_skipping skip]
          dsimp only
          split <;> exact Nat.le_refl _
      | false =>
          rw [deliver, consumeLine_of_reading skip]
          split
          · exact reasons_le_dispatch c { s with rawBlock := s.rawBlock ++ l.raw } reason
          · split
            · rw [noteMalformed_eq]
              exact reasons_le_noteAll s _ reason
            · rw [parseField_eq]
              have grows : s.reasons reason
                  ≤ (({ s with rawBlock := s.rawBlock ++ l.raw }.noteAll
                      (lineNotes l.text)).applyField (fieldOf l.text)).reasons reason := by
                rw [applyField_reasons]
                exact reasons_le_noteAll _ _ reason
              by_cases long : fieldOf l.text = .longRetry <;> simpa [long] using grows

theorem reasons_le_deliverAll (c : Config) (s : BlockState) (ds : List Delivery)
    (reason : MalformedReason) : s.reasons reason ≤ (s.deliverAll c ds).1.reasons reason := by
  induction ds generalizing s with
  | nil => exact Nat.le_refl _
  | cons d ds ih =>
      have first := reasons_le_deliver c s d reason
      rcases found : s.deliver c d with ⟨t, e | frame⟩
      · rw [found] at first
        rwa [deliverAll_cons_error found]
      · rw [found] at first
        rw [deliverAll_cons_ok found]
        exact Nat.le_trans first (ih t)

end BlockState

/-! ## What the blocks of a stream produce -/

/-- What a run produced while it read one block: the frames and, by reason, the growth of
the malformed counters. -/
structure Entry where
  block : Segment Arrival
  frames : List SseFrame
  counts : MalformedReason → ℕ

/-- What the blocks produce, one after the other. -/
def ledger (c : Config) : BlockState → List (Segment Arrival) → List Entry
  | _, [] => []
  | s, g :: gs =>
      let read := s.deliverAll c (arrivedDeliveries g)
      ⟨g, read.2.toOption.getD [], fun reason => read.1.reasons reason - s.reasons reason⟩
        :: ledger c read.1 gs

/-- A block over the limit yields no frame and is counted as oversize once; every other
block yields what it means. -/
def Entry.Right (c : Config) (e : Entry) : Prop :=
  (c.maxEventBytes < (arrivedBlock e.block).raw.length →
      e.frames = [] ∧ e.counts .oversize = 1)
    ∧ ((arrivedBlock e.block).raw.length ≤ c.maxEventBytes →
      e.frames = ((arrivedBlock e.block).frame c).toList
        ∧ ∀ reason, e.counts reason = ((arrivedBlock e.block).notes c).count reason)

theorem entry_right_iff {c : Config} {s t : BlockState} {frames : List SseFrame}
    (clean : s.Clean) {g : Segment Arrival} (arrived : Arrived c.maxEventBytes g)
    (read : s.deliverAll c (arrivedDeliveries g) = (t, .ok frames)) :
    Entry.Right c ⟨g, frames, fun reason => t.reasons reason - s.reasons reason⟩
      ↔ (c.maxEventBytes < (arrivedBlock g).raw.length → BlockState.Harmless c g) := by
  have returns : (s.deliverAll c (arrivedDeliveries g)).2.isOk = true := by rw [read]; rfl
  have once : t.reasons .oversize - s.reasons .oversize = 1
      ↔ t.reasons .oversize = s.reasons .oversize + 1 := by
    have grows := BlockState.reasons_le_deliverAll c s (arrivedDeliveries g) .oversize
    rw [read] at grows
    dsimp only at grows
    omega
  by_cases beyond : c.maxEventBytes < (arrivedBlock g).raw.length
  · have dropped := BlockState.dropped_iff_harmless clean arrived returns
    rw [read] at dropped
    dsimp only at dropped
    simp only [Entry.Right, beyond, true_imp_iff, Nat.not_le.2 beyond, false_imp_iff, and_true,
      once, ← dropped, Except.ok.injEq]
  · have fits := Nat.not_lt.1 beyond
    have small : (arrivedBlock g).fieldBytes.length ≤ c.maxEventBytes := by
      rw [Block.raw, List.length_append] at fits
      omega
    rw [BlockState.deliverAll_small clean arrived small returns] at read
    cases read
    refine iff_of_true ⟨fun beyond' => absurd beyond' beyond, fun _ => ⟨rfl, fun reason => ?_⟩⟩
      fun beyond' => absurd beyond' beyond
    exact Nat.add_sub_cancel_left _ _

/-- The ledger adds up to the run, and its entries are right exactly when the blocks over
the limit are harmless. -/
theorem ledger_spec {c : Config} {s t : BlockState} {frames : List SseFrame}
    (clean : s.Clean) {gs : List (Segment Arrival)}
    (arrived : ∀ g ∈ gs, Arrived c.maxEventBytes g)
    (read : s.deliverAll c (gs.flatMap arrivedDeliveries) = (t, .ok frames)) :
    frames = (ledger c s gs).flatMap Entry.frames
      ∧ (∀ reason, t.reasons reason
          = s.reasons reason + ((ledger c s gs).map fun e => e.counts reason).sum)
      ∧ ((∀ e ∈ ledger c s gs, e.Right c)
          ↔ ∀ g ∈ gs, c.maxEventBytes < (arrivedBlock g).raw.length →
              BlockState.Harmless c g) := by
  induction gs generalizing s frames with
  | nil =>
      cases read
      exact ⟨rfl, fun _ => rfl, by simp [ledger]⟩
  | cons g gs ih =>
      rw [List.forall_mem_cons] at arrived
      obtain ⟨u, now, later, first, rest, rfl⟩ := BlockState.deliverAll_append_eq_ok read
      have returns : (s.deliverAll c (arrivedDeliveries g)).2.isOk = true := by
        rw [first]; rfl
      have uClean := (BlockState.deliverAll_outcome clean arrived.1 returns).1
      simp only [first] at uClean
      obtain ⟨frames, counts, right⟩ := ih uClean arrived.2 rest
      have entry := entry_right_iff clean arrived.1 first
      simp only [ledger, first, Except.toOption, Option.getD_some]
      refine ⟨?_, fun reason => ?_, ?_⟩
      · rw [List.flatMap_cons, ← frames]
      · have grows := BlockState.reasons_le_deliverAll c s (arrivedDeliveries g) reason
        rw [first] at grows
        dsimp only at grows
        rw [counts reason, List.map_cons, List.sum_cons]
        dsimp only
        omega
      · rw [List.forall_mem_cons, List.forall_mem_cons, entry, right]

/-- **The promise of the constructor's docstring**, for a stream fed in chunks: the frames
and the counters of the run are those of its blocks, and every block is treated right. -/
structure OversizeDropped (c : Config) (chunks : List Bytes) : Prop where
  returned : (Session.run c (Reader.callsOf chunks)).Returned
    ((ledger c .fresh (arrivedBlocks c.maxEventBytes chunks)).flatMap Entry.frames)
  counted : ∀ reason, (Session.run c (Reader.callsOf chunks)).parser.block.reasons reason
    = ((ledger c .fresh (arrivedBlocks c.maxEventBytes chunks)).map
        fun e => e.counts reason).sum
  right : ∀ e ∈ ledger c .fresh (arrivedBlocks c.maxEventBytes chunks), e.Right c

/-- **The promise is kept exactly when** no delivery raises and every block over the limit
is harmless: its field lines alone are over the limit, and wherever a discard ends at
the end of one of its lines the lines after it hold no event.  The blocks the ledger is
about are the event blocks of the stream. -/
theorem oversize_dropped_iff (c : Config) (chunks : List Bytes) :
    (arrivedBlocks c.maxEventBytes chunks).map arrivedBlock = streamBlocks chunks.flatten
      ∧ (OversizeDropped c chunks
        ↔ Along (BlockState.next c) (fun s d => ¬ Raises c s d) .fresh
              (Reader.calls c.maxEventBytes ⟨[], false⟩ (Reader.callsOf chunks)).1
            ∧ ∀ g ∈ arrivedBlocks c.maxEventBytes chunks,
                c.maxEventBytes < (arrivedBlock g).raw.length →
                  BlockState.Harmless c g) := by
  refine ⟨arrivedBlocks_blocks _ _, ?_⟩
  rw [← BlockState.deliverAll_isOk_iff_along]
  have arrived := arrivedBlocks_arrived c.positive chunks
  have deliveries := arrivedBlocks_deliveries c.maxEventBytes chunks
  cases delivered : BlockState.fresh.deliverAll c
      (Reader.calls c.maxEventBytes ⟨[], false⟩ (Reader.callsOf chunks)).1 with
  | mk t result =>
      cases result with
      | error e =>
          refine iff_of_false (fun promise => ?_) (fun both => Bool.noConfusion both.1)
          have raised := Session.runSchedule_raised (s := .fresh) delivered
          obtain ⟨parts, results, -⟩ := promise.returned
          rw [Session.run] at results
          rw [results] at raised
          simp at raised
      | ok frames =>
          have none : Session.fresh.Returned [] := ⟨[], rfl, rfl⟩
          obtain ⟨parser, returned⟩ := Session.runSchedule_returned none delivered
          rw [deliveries] at delivered
          obtain ⟨allFrames, counts, right⟩ :=
            ledger_spec BlockState.fresh_clean arrived delivered
          rw [List.nil_append, allFrames] at returned
          rw [← right]
          refine ⟨fun promise => ⟨rfl, promise.right⟩, fun both => ?_⟩
          refine ⟨returned, fun reason => ?_, both.2⟩
          rw [Session.run, parser, counts reason]
          exact Nat.zero_add _

/-- A limit of eight bytes. -/
def smallConfig : Config where
  maxEventBytes := 8
  positive := by decide
  validateJson := false
  jsonExempt := ["[DONE]"]
  emitDataless := false
  jsonLoads := fun _ => .accepts

/-- One block, `data:aaaaaa` and `data:x`, whose first line is cut just before its end. -/
def cutBeforeLineEnd : List Bytes :=
  [[0x64, 0x61, 0x74, 0x61, 0x3A, 0x61, 0x61, 0x61, 0x61, 0x61, 0x61],
    [lf, 0x64, 0x61, 0x74, 0x61, 0x3A, 0x78, lf, lf]]

/-- The tail of the dropped block is dispatched as an event. -/
theorem cutBeforeLineEnd_dispatches_tail : ¬ OversizeDropped smallConfig cutBeforeLineEnd := by
  intro promise
  have first : ∀ e ∈ (ledger smallConfig .fresh
      (arrivedBlocks smallConfig.maxEventBytes cutBeforeLineEnd)).head?, e.frames = [] := by
    intro e isFirst
    refine ((promise.right e (List.mem_of_mem_head? isFirst)).1 ?_).1
    revert e
    decide +kernel
  revert first
  decide +kernel

end Zhongzhuan.Protocol.Sse
