import Mathlib

/-!
# Translators of streams that arrive in chunks

A translator cuts what arrives into items (`scan`, which holds back what is not complete),
handles the items of a chunk one after another, and may be finished: from then on it takes no
further chunk.  At the end it is closed.  A handler may fail, and then the chunk has no result.

* `Incremental` says that cutting does not depend on the chunks, on a stream.
* `Steady` says that no item fails and that none writes once the translator is finished: the items
  that follow the last one in the same chunk are still handled.
* `steady_iff_output`: a translator writes the same for all ways to cut a stream into chunks
  exactly when it is steady on the items of the stream.
* `Along` is a condition on the state and the item at every place of a stream in chunks, and on
  the state at its end; `Law.good_iff_along` is the rule for a law of the output that is broken
  once and for all.
-/

namespace Zhongzhuan.Kit

universe u v w x y

/-- A translator of a stream of `α` into a stream of `ω`. -/
structure Translator (α : Type u) (β : Type v) (ι : Type w) (σ : Type x) (ω : Type y) where
  /-- The items that a chunk completes, and what is held back. -/
  scan : β → List α → List ι × β
  handle : σ → ι → Option (σ × List ω)
  finished : σ → Bool
  close : σ → List ω

namespace Translator

variable {α : Type u} {β : Type v} {ι : Type w} {σ : Type x} {ω : Type y}
variable (t : Translator α β ι σ ω)

/-- Handle items one after another. -/
def handleAll : σ → List ι → Option (σ × List ω)
  | s, [] => some (s, [])
  | s, i :: items =>
    (t.handle s i).bind fun next =>
      (handleAll next.1 items).map fun last => (last.1, next.2 ++ last.2)

/-- Take a chunk. -/
def feed (held : β) (s : σ) (chunk : List α) : Option (β × σ × List ω) :=
  if t.finished s then some (held, s, [])
  else (t.handleAll s (t.scan held chunk).1).map ((t.scan held chunk).2, ·)

/-- Take chunks one after another. -/
def feedAll : β → σ → List (List α) → Option (β × σ × List ω)
  | held, s, [] => some (held, s, [])
  | held, s, chunk :: chunks =>
    (t.feed held s chunk).bind fun next =>
      (feedAll next.1 next.2.1 chunks).map fun last => (last.1, last.2.1, next.2.2 ++ last.2.2)

/-- All that is written for a stream in chunks. -/
def output (held : β) (s : σ) (chunks : List (List α)) : Option (List ω) :=
  (t.feedAll held s chunks).map fun last => last.2.2 ++ t.close last.2.1

variable {t}

/-! ## Items -/

theorem handleAll_append (s : σ) (items more : List ι) :
    t.handleAll s (items ++ more)
      = (t.handleAll s items).bind fun next =>
          (t.handleAll next.1 more).map fun last => (last.1, next.2 ++ last.2) := by
  induction items generalizing s with
  | nil => simp [handleAll]
  | cons i items ih =>
      rw [List.cons_append, handleAll, handleAll]
      cases first : t.handle s i with
      | none => rfl
      | some next =>
          simp only [Option.bind_some, ih]
          cases later : t.handleAll next.1 items with
          | none => rfl
          | some last => simp [Function.comp_def]

theorem handleAll_singleton (s : σ) (i : ι) : t.handleAll s [i] = t.handle s i := by
  rw [handleAll]
  cases first : t.handle s i <;> simp [handleAll]

/-- No item fails, and none writes once the translator is finished. -/
def Steady (t : Translator α β ι σ ω) : σ → List ι → Prop
  | _, [] => True
  | s, i :: items => ∃ next, t.handle s i = some next ∧ (t.finished s = true → next.2 = [])
    ∧ Steady t next.1 items

/-- A translator that is finished stays so and has nothing to add at its end. -/
structure Final (t : Translator α β ι σ ω) : Prop where
  stays : ∀ s i next, t.handle s i = some next → t.finished s = true → t.finished next.1 = true
  silent : ∀ s, t.finished s = true → t.close s = []

theorem steady_append {s : σ} {items more : List ι} :
    t.Steady s (items ++ more) ↔ t.Steady s items ∧
      ∀ next, t.handleAll s items = some next → t.Steady next.1 more := by
  induction items generalizing s with
  | nil => simp [Steady, handleAll]
  | cons i items ih =>
      rw [List.cons_append, Steady, Steady]
      constructor
      · rintro ⟨next, first, quiet, rest⟩
        obtain ⟨front, back⟩ := ih.mp rest
        refine ⟨⟨next, first, quiet, front⟩, fun last run => ?_⟩
        rw [handleAll, first, Option.bind_some, Option.map_eq_some_iff] at run
        obtain ⟨later, run, rfl⟩ := run
        exact back later run
      · rintro ⟨⟨next, first, quiet, front⟩, back⟩
        refine ⟨next, first, quiet, ih.mpr ⟨front, fun last run => ?_⟩⟩
        refine back (last.1, next.2 ++ last.2) ?_
        rw [handleAll, first, Option.bind_some, run]
        rfl

theorem Steady.handled {s : σ} {items : List ι} (steady : t.Steady s items) :
    ∃ next, t.handleAll s items = some next := by
  induction items generalizing s with
  | nil => exact ⟨_, rfl⟩
  | cons i items ih =>
      obtain ⟨next, first, _, rest⟩ := steady
      obtain ⟨last, run⟩ := ih rest
      exact ⟨(last.1, next.2 ++ last.2), by rw [handleAll, first, Option.bind_some, run]; rfl⟩

theorem Steady.quiet (final : t.Final) {s : σ} {items : List ι} (steady : t.Steady s items)
    (ended : t.finished s = true) {next : σ × List ω} (run : t.handleAll s items = some next) :
    t.finished next.1 = true ∧ next.2 = [] := by
  induction items generalizing s next with
  | nil =>
      cases run
      exact ⟨ended, rfl⟩
  | cons i items ih =>
      obtain ⟨mid, first, quiet, rest⟩ := steady
      rw [handleAll, first, Option.bind_some, Option.map_eq_some_iff] at run
      obtain ⟨last, run, rfl⟩ := run
      obtain ⟨stays, none⟩ := ih rest (final.stays s i mid first ended) run
      exact ⟨stays, by simp [quiet ended, none]⟩

theorem steady_of_silent {s : σ} {items : List ι} {next : σ × List ω}
    (run : t.handleAll s items = some next) (silent : next.2 = []) : t.Steady s items := by
  induction items generalizing s next with
  | nil => trivial
  | cons i items ih =>
      rw [handleAll, Option.bind_eq_some_iff] at run
      obtain ⟨mid, first, run⟩ := run
      rw [Option.map_eq_some_iff] at run
      obtain ⟨last, run, rfl⟩ := run
      obtain ⟨here, later⟩ := List.append_eq_nil_iff.mp silent
      exact ⟨mid, first, fun _ => here, ih run later⟩

/-! ## Chunks -/

/-- Cutting into items does not depend on the chunks in which `stream` comes. -/
structure Incremental (t : Translator α β ι σ ω) (start : β) (stream : List α) : Prop where
  empty : t.scan start [] = ([], start)
  append : ∀ before chunk after, stream = before ++ chunk ++ after →
    t.scan start (before ++ chunk)
      = ((t.scan start before).1 ++ (t.scan (t.scan start before).2 chunk).1,
        (t.scan (t.scan start before).2 chunk).2)
  /-- One more element completes at most one item. -/
  one : ∀ before a after, stream = before ++ a :: after →
    (t.scan (t.scan start before).2 [a]).1.length ≤ 1

theorem Incremental.feedAll {start : β} {stream : List α} (inc : t.Incremental start stream)
    (final : t.Final) {s : σ} {before : List α} {chunks : List (List α)}
    (split : stream = before ++ chunks.flatten) {items : List ι}
    (rest : (t.scan start stream).1 = (t.scan start before).1 ++ items)
    (steady : t.Steady s items) {next : σ × List ω} (run : t.handleAll s items = some next) :
    ∃ held s', t.feedAll (t.scan start before).2 s chunks = some (held, s', next.2)
      ∧ (s' = next.1 ∨ (t.finished s' = true ∧ t.finished next.1 = true)) := by
  induction chunks generalizing s before items next with
  | nil =>
      rw [List.flatten_nil, List.append_nil] at split
      subst split
      obtain rfl : items = [] := by simpa using rest
      cases run
      exact ⟨_, s, rfl, .inl rfl⟩
  | cons chunk chunks ih =>
      by_cases ended : t.finished s = true
      · -- nothing more is taken, and nothing more would be written
        obtain ⟨stays, none⟩ := steady.quiet final ended run
        have skip : ∀ (held : β) (cs : List (List α)),
            t.feedAll held s cs = some (held, s, []) := by
          intro held cs
          induction cs with
          | nil => rfl
          | cons c cs ih => simp [Translator.feedAll, feed, ended, ih]
        exact ⟨_, s, by rw [skip, none], .inr ⟨ended, stays⟩⟩
      · rw [List.flatten_cons, ← List.append_assoc] at split
        have cut := inc.append before chunk chunks.flatten split
        have whole := inc.append (before ++ chunk) chunks.flatten [] (by simp [split])
        rw [← split] at whole
        obtain ⟨later, shape⟩ : ∃ later,
            items = (t.scan (t.scan start before).2 chunk).1 ++ later := by
          have both := rest.symm.trans (congrArg Prod.fst whole)
          rw [cut] at both
          dsimp only at both
          rw [List.append_assoc] at both
          exact ⟨_, List.append_cancel_left both⟩
        subst shape
        obtain ⟨first, back⟩ := steady_append.mp steady
        obtain ⟨mid, here⟩ := first.handled
        rw [handleAll_append, here, Option.bind_some, Option.map_eq_some_iff] at run
        obtain ⟨last, run, rfl⟩ := run
        have place : (t.scan start stream).1 = (t.scan start (before ++ chunk)).1 ++ later := by
          rw [rest, cut, List.append_assoc]
        obtain ⟨held, s', more, same⟩ := ih split place (back mid here) run
        refine ⟨held, s', ?_, same⟩
        rw [Translator.feedAll, feed, if_neg ended, here]
        rw [cut] at more
        simp [more]

theorem Steady.output {start : β} {s : σ} {stream : List α} (inc : t.Incremental start stream)
    (final : t.Final) (steady : t.Steady s (t.scan start stream).1) {next : σ × List ω}
    (run : t.handleAll s (t.scan start stream).1 = some next) {chunks : List (List α)}
    (whole : chunks.flatten = stream) :
    t.output start s chunks = some (next.2 ++ t.close next.1) := by
  have none : (t.scan start stream).1 = (t.scan start []).1 ++ (t.scan start stream).1 := by
    rw [inc.empty]
    rfl
  have split : stream = [] ++ chunks.flatten := whole.symm
  obtain ⟨held, s', fed, same⟩ := inc.feedAll final split none steady run
  rw [inc.empty] at fed
  rw [Translator.output, fed, Option.map_some]
  rcases same with rfl | ⟨ended, ended'⟩
  · rfl
  · rw [final.silent _ ended, final.silent _ ended']

theorem Final.stays_all (final : t.Final) {s : σ} {items : List ι} {next : σ × List ω}
    (ended : t.finished s = true) (run : t.handleAll s items = some next) :
    t.finished next.1 = true := by
  induction items generalizing s next with
  | nil =>
      cases run
      exact ended
  | cons i items ih =>
      rw [handleAll, Option.bind_eq_some_iff] at run
      obtain ⟨mid, first, run⟩ := run
      rw [Option.map_eq_some_iff] at run
      obtain ⟨last, run, rfl⟩ := run
      show t.finished last.1 = true
      exact ih (final.stays s i mid first ended) run

theorem steady_of_length_le {s : σ} {items : List ι} {next : σ × List ω}
    (going : t.finished s = false) (few : items.length ≤ 1)
    (run : t.handleAll s items = some next) : t.Steady s items := by
  cases items with
  | nil => trivial
  | cons i items =>
      obtain rfl : items = [] := List.eq_nil_of_length_eq_zero (by simpa using few)
      rw [handleAll_singleton] at run
      refine ⟨next, run, fun ended => ?_, trivial⟩
      rw [going] at ended
      cases ended

/-- The rest of a stream element by element: what is left out is what a finished translator
would still have written. -/
theorem Incremental.feedAll_singles {start : β} {stream : List α}
    (inc : t.Incremental start stream) (final : t.Final) {s : σ} {before after : List α}
    (split : stream = before ++ after) {items : List ι}
    (rest : (t.scan start stream).1 = (t.scan start before).1 ++ items)
    {next : σ × List ω} (run : t.handleAll s items = some next) :
    ∃ held s' out extra, t.feedAll (t.scan start before).2 s (after.map ([·]))
        = some (held, s', out)
      ∧ next.2 = out ++ extra ∧ (extra = [] → t.Steady s items)
      ∧ (extra = [] ∧ s' = next.1 ∨ (t.finished s' = true ∧ t.finished next.1 = true)) := by
  induction after generalizing s before items next with
  | nil =>
      rw [List.append_nil] at split
      subst split
      obtain rfl : items = [] := by simpa using rest
      cases run
      exact ⟨_, s, [], [], rfl, rfl, fun _ => trivial, .inl ⟨rfl, rfl⟩⟩
  | cons a after ih =>
      by_cases ended : t.finished s = true
      · have skip : ∀ (held : β) (cs : List (List α)),
            t.feedAll held s cs = some (held, s, []) := by
          intro held cs
          induction cs with
          | nil => rfl
          | cons c cs ih => simp [Translator.feedAll, feed, ended, ih]
        exact ⟨_, s, [], next.2, skip _ _, rfl, steady_of_silent run,
          .inr ⟨ended, final.stays_all ended run⟩⟩
      · have split' : stream = before ++ [a] ++ after := by simp [split]
        have cut := inc.append before [a] after split'
        have whole := inc.append (before ++ [a]) after [] (by simp [split'])
        rw [← split'] at whole
        obtain ⟨later, shape⟩ : ∃ later,
            items = (t.scan (t.scan start before).2 [a]).1 ++ later := by
          have both := rest.symm.trans (congrArg Prod.fst whole)
          rw [cut] at both
          dsimp only at both
          rw [List.append_assoc] at both
          exact ⟨_, List.append_cancel_left both⟩
        subst shape
        rw [handleAll_append, Option.bind_eq_some_iff] at run
        obtain ⟨mid, here, run⟩ := run
        rw [Option.map_eq_some_iff] at run
        obtain ⟨last, run, rfl⟩ := run
        have place : (t.scan start stream).1 = (t.scan start (before ++ [a])).1 ++ later := by
          rw [rest, cut, List.append_assoc]
        obtain ⟨held, s', out, extra, more, parts, steady, same⟩ := ih split' place run
        have first := steady_of_length_le (Bool.eq_false_iff.mpr ended)
          (inc.one before a after split) here
        refine ⟨held, s', mid.2 ++ out, extra, ?_, ?_, fun none => ?_, same⟩
        · rw [List.map_cons, Translator.feedAll, feed, if_neg ended, here]
          rw [cut] at more
          simp [more]
        · rw [parts, List.append_assoc]
        · refine steady_append.mpr ⟨first, fun mid' here' => ?_⟩
          obtain rfl : mid = mid' := Option.some.inj (here.symm.trans here')
          exact steady none

/-- **Exactly the steady translators do not depend on the chunks**, in what they write of any
rendering that shows every output. -/
theorem steady_iff_output {γ : Type*} {render : ω → List γ} (shows : ∀ w, render w ≠ [])
    {start : β} {s : σ} {stream : List α} (inc : t.Incremental start stream) (final : t.Final)
    (going : t.finished s = false) :
    (∃ out, ∀ chunks : List (List α), chunks.flatten = stream →
        (t.output start s chunks).map (List.flatMap render) = some out)
      ↔ t.Steady s (t.scan start stream).1 := by
  constructor
  · rintro ⟨out, same⟩
    have whole := same [stream] (by simp)
    rw [output, Option.map_map, Option.map_eq_some_iff] at whole
    obtain ⟨last, fed, closed⟩ := whole
    rw [Translator.feedAll, feed, going] at fed
    simp only [Bool.false_eq_true, if_false, Option.bind_eq_some_iff, Option.map_eq_some_iff]
      at fed
    obtain ⟨_, ⟨next, run, rfl⟩, ⟨_, nil, rfl⟩⟩ := fed
    cases nil
    have none : (t.scan start stream).1 = (t.scan start []).1 ++ (t.scan start stream).1 := by
      rw [inc.empty]
      rfl
    obtain ⟨held, s', out', extra, singles, parts, steady, last⟩ :=
      inc.feedAll_singles final (List.nil_append stream).symm none run
    have bits := same (stream.map ([·])) (by rw [← List.flatMap_def, List.flatMap_singleton'])
    rw [inc.empty] at singles
    rw [output, singles, Option.map_some, Option.map_some] at bits
    have bits := Option.some.inj bits
    rcases last with ⟨nothing, _⟩ | ⟨ended, ended'⟩
    · exact steady nothing
    · refine steady ?_
      simp only [List.append_nil, Function.comp_apply] at closed bits
      rw [final.silent _ ended, List.append_nil] at bits
      rw [final.silent _ ended', List.append_nil, parts, List.flatMap_append, bits] at closed
      have unseen : extra.flatMap render = [] := by simpa using closed
      refine List.eq_nil_iff_forall_not_mem.mpr fun w mem => ?_
      exact shows w (List.flatMap_eq_nil_iff.mp unseen w mem)
  · intro steady
    obtain ⟨next, run⟩ := steady.handled
    refine ⟨(next.2 ++ t.close next.1).flatMap render, fun chunks whole => ?_⟩
    rw [steady.output inc final run whole]
    rfl

/-! ## Laws of the output -/

/-- Every item is handled and finds `P`. -/
def AlongItems (t : Translator α β ι σ ω) (P : σ → ι → Prop) : σ → List ι → Prop
  | _, [] => True
  | s, i :: items => P s i ∧ ∃ next, t.handle s i = some next ∧ AlongItems t P next.1 items

/-- Steadiness as a condition on the state and the item at every place, where an invariant makes
it out. -/
theorem steady_iff_alongItems {P : σ → ι → Prop} (Inv : σ → Prop)
    (kept : ∀ s i next, Inv s → t.handle s i = some next → P s i → Inv next.1)
    (quiet : ∀ s i next, Inv s → t.handle s i = some next →
      ((t.finished s = true → next.2 = []) ↔ P s i))
    {s : σ} (start : Inv s) (items : List ι) : t.Steady s items ↔ t.AlongItems P s items := by
  induction items generalizing s with
  | nil => exact Iff.rfl
  | cons i items ih =>
      rw [Steady, AlongItems]
      constructor
      · rintro ⟨next, handled, silent, rest⟩
        have here := (quiet s i next start handled).mp silent
        exact ⟨here, next, handled, (ih (kept s i next start handled here)).mp rest⟩
      · rintro ⟨here, next, handled, rest⟩
        exact ⟨next, handled, (quiet s i next start handled).mpr here,
          (ih (kept s i next start handled here)).mpr rest⟩

/-- Every item that is taken is handled and finds `P`, and the end finds `E`. -/
def Along (t : Translator α β ι σ ω) (P : σ → ι → Prop) (E : σ → Prop) :
    β → σ → List (List α) → Prop
  | _, s, [] => E s
  | held, s, chunk :: chunks =>
    if t.finished s then E s
    else t.AlongItems P s (t.scan held chunk).1 ∧
      ∀ next, t.handleAll s (t.scan held chunk).1 = some next →
        Along t P E (t.scan held chunk).2 next.1 chunks

/-- A law of what has been written: `Tracks` relates it to the state, an item that does not find
`P` spoils it for good, and `E` is what the end needs. -/
structure Law (t : Translator α β ι σ ω) (P : σ → ι → Prop) (E : σ → Prop)
    (Tracks : σ → List ω → Prop) (Spoiled Good : List ω → Prop) : Prop where
  keeps : ∀ s past i next, Tracks s past → t.handle s i = some next → P s i →
    Tracks next.1 (past ++ next.2)
  spoils : ∀ s past i next, Tracks s past → t.handle s i = some next → ¬ P s i →
    Spoiled (past ++ next.2)
  spoiled : ∀ past more, Spoiled past → Spoiled (past ++ more)
  bad : ∀ past, Spoiled past → ¬ Good past
  ends : ∀ s past, Tracks s past → (Good (past ++ t.close s) ↔ E s)

section Laws

variable {P : σ → ι → Prop} {E : σ → Prop} {Tracks : σ → List ω → Prop}
  {Spoiled Good : List ω → Prop}

theorem Law.items (law : t.Law P E Tracks Spoiled Good) {s : σ} {past : List ω}
    (tracks : Tracks s past) {items : List ι} {next : σ × List ω}
    (run : t.handleAll s items = some next) :
    (t.AlongItems P s items ∧ Tracks next.1 (past ++ next.2))
      ∨ (¬ t.AlongItems P s items ∧ Spoiled (past ++ next.2)) := by
  induction items generalizing s past next with
  | nil =>
      cases run
      exact .inl ⟨trivial, by simpa using tracks⟩
  | cons i items ih =>
      rw [handleAll, Option.bind_eq_some_iff] at run
      obtain ⟨mid, first, run⟩ := run
      rw [Option.map_eq_some_iff] at run
      obtain ⟨last, run, rfl⟩ := run
      by_cases here : P s i
      · rcases ih (law.keeps s past i mid tracks first here) run with ⟨later, good⟩ | ⟨later, bad⟩
        · exact .inl ⟨⟨here, mid, first, later⟩, by simpa using good⟩
        · refine .inr ⟨?_, by simpa using bad⟩
          rintro ⟨_, mid', first', later'⟩
          obtain rfl : mid = mid' := Option.some.inj (first.symm.trans first')
          exact later later'
      · refine .inr ⟨fun along => here along.1, ?_⟩
        have spoiled := law.spoiled _ last.2 (law.spoils s past i mid tracks first here)
        simpa using spoiled

theorem AlongItems.handled {s : σ} {items : List ι} (along : t.AlongItems P s items) :
    ∃ next, t.handleAll s items = some next := by
  induction items generalizing s with
  | nil => exact ⟨_, rfl⟩
  | cons i items ih =>
      obtain ⟨_, next, first, rest⟩ := along
      obtain ⟨last, run⟩ := ih rest
      exact ⟨(last.1, next.2 ++ last.2), by rw [handleAll, first, Option.bind_some, run]; rfl⟩

/-- **A law that is broken once and for all holds of the output exactly when every item that is
taken finds its condition.** -/
theorem Law.good_iff_along (law : t.Law P E Tracks Spoiled Good) {held : β} {s : σ} {past : List ω}
    (tracks : Tracks s past) (chunks : List (List α)) :
    (∃ out, t.output held s chunks = some out ∧ Good (past ++ out))
      ↔ t.Along P E held s chunks := by
  induction chunks generalizing held s past with
  | nil =>
      have written : t.output held s [] = some (t.close s) := by simp [output, feedAll]
      rw [written, Along, ← law.ends s past tracks]
      simp
  | cons chunk chunks ih =>
      by_cases ended : t.finished s = true
      · -- the chunk is not taken, nor is any after it
        have skip : t.output held s (chunk :: chunks) = t.output held s chunks := by
          simp [output, feedAll, feed, ended]
        rw [skip, ih tracks, Along, if_pos ended]
        cases chunks with
        | nil => exact Iff.rfl
        | cons _ _ => rw [Along, if_pos ended]
      · have shape : t.output held s (chunk :: chunks)
            = (t.handleAll s (t.scan held chunk).1).bind fun next =>
                (t.output (t.scan held chunk).2 next.1 chunks).map (next.2 ++ ·) := by
          rw [output, feedAll, feed, if_neg ended]
          cases run : t.handleAll s (t.scan held chunk).1 with
          | none => rfl
          | some next => simp [output, Option.map_map, Function.comp_def, List.append_assoc]
        rw [shape, Along, if_neg ended]
        cases run : t.handleAll s (t.scan held chunk).1 with
        | none =>
            constructor
            · rintro ⟨_, failed, _⟩
              cases failed
            · rintro ⟨along, _⟩
              obtain ⟨next, run'⟩ := along.handled
              rw [run] at run'
              cases run'
        | some next =>
            rw [Option.bind_some]
            rcases law.items tracks run with ⟨along, good⟩ | ⟨broken, bad⟩
            · have later : (∃ out, t.output (t.scan held chunk).2 next.1 chunks = some out
                    ∧ Good (past ++ next.2 ++ out))
                  ↔ t.Along P E (t.scan held chunk).2 next.1 chunks := ih good
              constructor
              · rintro ⟨out, written, holds⟩
                obtain ⟨rest, more, rfl⟩ := Option.map_eq_some_iff.mp written
                refine ⟨along, fun next' run' => ?_⟩
                obtain rfl : next = next' := Option.some.inj run'
                exact later.mp ⟨rest, more, by simpa using holds⟩
              · rintro ⟨_, rest⟩
                obtain ⟨out, written, holds⟩ := later.mpr (rest next rfl)
                exact ⟨next.2 ++ out, by rw [written]; rfl, by simpa using holds⟩
            · constructor
              · rintro ⟨out, written, holds⟩
                obtain ⟨rest, _, rfl⟩ := Option.map_eq_some_iff.mp written
                have spoiled := law.spoiled _ rest bad
                rw [List.append_assoc] at spoiled
                exact absurd holds (law.bad _ spoiled)
              · rintro ⟨along, _⟩
                exact absurd along broken

end Laws

end Translator

end Zhongzhuan.Kit
