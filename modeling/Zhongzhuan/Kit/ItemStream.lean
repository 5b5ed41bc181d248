import Zhongzhuan.Kit.Lifecycle

/-!
# Streams of items with texts, and an end

A stream announces items, speaks about them while they are open, closes them and ends.  What
one frame of it does is its `Act`.  In contrast to `WellFormed` the law `Lawful` is about a
stream that may still go on: it says of every frame that it was allowed where it stands, so that
a stream is lawful exactly when each frame is `Allowed` after the frames before it
(`lawful_snoc`).  A frame that is not allowed is never made good.

A text is a list over an arbitrary alphabet.  `said k` is what the fragments of an item `k` come
to, and an act `recaps k` repeats it.
-/

namespace Zhongzhuan.Kit.ItemStream

universe u v

variable {κ : Type u} {α : Type v}

/-- What a frame does. -/
inductive Act (κ : Type u) (α : Type v)
  | opens (k : κ)
  | closes (k : κ)
  /-- It speaks about an item. -/
  | uses (k : κ)
  /-- A fragment of the text of an item. -/
  | adds (k : κ) (fragment : List α)
  /-- The whole text of an item. -/
  | recaps (k : κ) (text : List α)
  | ends
  | plain
deriving DecidableEq

namespace Act

/-- The item a frame opens. -/
def opened? : Act κ α → Option κ
  | .opens k => some k
  | _ => none

/-- The item a frame closes. -/
def closed? : Act κ α → Option κ
  | .closes k => some k
  | _ => none

/-- The item a frame needs open. -/
def needed? : Act κ α → Option κ
  | .closes k | .uses k | .adds k _ | .recaps k _ => some k
  | _ => none

end Act

open Act

variable [DecidableEq κ]

/-- What the fragments of an item come to. -/
def said (k : κ) (acts : List (Act κ α)) : List α :=
  acts.flatMap fun act =>
    match act with
    | .adds j fragment => if j = k then fragment else []
    | _ => []

/-- An item is open after these frames. -/
def Live (acts : List (Act κ α)) (k : κ) : Prop := .opens k ∈ acts ∧ .closes k ∉ acts

/-- The law of a stream so far. -/
structure Lawful (acts : List (Act κ α)) : Prop where
  /-- No item is opened twice. -/
  opened_once : (acts.filterMap opened?).Nodup
  /-- No item is closed twice. -/
  closed_once : (acts.filterMap closed?).Nodup
  /-- What a frame closes or speaks about is open. -/
  needed_live : ∀ before act after k, acts = before ++ act :: after → act.needed? = some k →
    Live before k
  /-- The whole text of an item is what its fragments come to. -/
  recapped : ∀ before k text after, acts = before ++ .recaps k text :: after →
    text = said k before
  /-- The end comes when every item is closed, and nothing comes after it. -/
  ended : ∀ before after, acts = before ++ .ends :: after →
    after = [] ∧ ∀ k, .opens k ∈ before → .closes k ∈ before

/-- What may come next. -/
structure Allowed (acts : List (Act κ α)) (act : Act κ α) : Prop where
  going : .ends ∉ acts
  fresh : ∀ k, act = .opens k → .opens k ∉ acts
  live : ∀ k, act.needed? = some k → Live acts k
  whole : ∀ k text, act = .recaps k text → text = said k acts
  all_closed : act = .ends → ∀ k, .opens k ∈ acts → .closes k ∈ acts

theorem mem_opened {acts : List (Act κ α)} {k : κ} :
    k ∈ acts.filterMap opened? ↔ .opens k ∈ acts := by
  rw [List.mem_filterMap]
  constructor
  · rintro ⟨act, mem, opens⟩
    cases act with
    | opens j =>
        cases opens
        exact mem
    | _ => cases opens
  · exact fun mem => ⟨_, mem, rfl⟩

theorem mem_closed {acts : List (Act κ α)} {k : κ} :
    k ∈ acts.filterMap closed? ↔ .closes k ∈ acts := by
  rw [List.mem_filterMap]
  constructor
  · rintro ⟨act, mem, closes⟩
    cases act with
    | closes j =>
        cases closes
        exact mem
    | _ => cases closes
  · exact fun mem => ⟨_, mem, rfl⟩

theorem Lawful.nil : Lawful ([] : List (Act κ α)) where
  opened_once := List.nodup_nil
  closed_once := List.nodup_nil
  needed_live := by simp
  recapped := by simp
  ended := by simp

theorem lawful_snoc {acts : List (Act κ α)} {act : Act κ α} :
    Lawful (acts ++ [act]) ↔ Lawful acts ∧ Allowed acts act := by
  constructor
  · intro law
    have earlier : ∀ before a after, acts = before ++ a :: after →
        acts ++ [act] = before ++ a :: (after ++ [act]) := by
      rintro before a after rfl
      simp
    refine ⟨⟨?_, ?_, ?_, ?_, ?_⟩, ⟨?_, ?_, ?_, ?_, ?_⟩⟩
    · exact law.opened_once.sublist ((List.sublist_append_left _ _).filterMap _)
    · exact law.closed_once.sublist ((List.sublist_append_left _ _).filterMap _)
    · exact fun before a after k split => law.needed_live _ _ _ k (earlier _ _ _ split)
    · exact fun before k text after split => law.recapped _ _ _ _ (earlier _ _ _ split)
    · intro before after split
      have ended := (law.ended _ _ (earlier _ _ _ split)).1
      exact absurd ended (by simp)
    · intro ends
      obtain ⟨before, after, split⟩ := List.append_of_mem ends
      have ended := (law.ended _ _ (earlier _ _ _ split)).1
      exact absurd ended (by simp)
    · rintro k rfl opens
      have once := law.opened_once
      rw [List.filterMap_append, List.nodup_append] at once
      exact once.2.2 k (mem_opened.mpr opens) k (by simp [opened?]) rfl
    · exact fun k needs => law.needed_live _ _ _ k rfl needs
    · rintro k text rfl
      exact law.recapped _ _ _ _ rfl
    · rintro rfl
      exact (law.ended _ _ rfl).2
  · rintro ⟨law, allowed⟩
    refine ⟨?_, ?_, ?_, ?_, ?_⟩
    · rw [List.filterMap_append, List.nodup_append]
      refine ⟨law.opened_once, (List.nodup_singleton act).filterMap (by
        rintro a b k opens opens'
        cases a <;> cases b <;> simp_all [opened?]), ?_⟩
      rintro k opens j opens' rfl
      obtain ⟨a, only, is⟩ := List.mem_filterMap.mp opens'
      rw [List.mem_singleton] at only
      subst only
      cases a with
      | opens j =>
          cases is
          exact allowed.fresh _ rfl (mem_opened.mp opens)
      | _ => cases is
    · rw [List.filterMap_append, List.nodup_append]
      refine ⟨law.closed_once, (List.nodup_singleton act).filterMap (by
        rintro a b k closes closes'
        cases a <;> cases b <;> simp_all [closed?]), ?_⟩
      rintro k closes j closes' rfl
      obtain ⟨a, only, is⟩ := List.mem_filterMap.mp closes'
      rw [List.mem_singleton] at only
      subst only
      cases a with
      | closes j =>
          cases is
          exact (allowed.live _ rfl).2 (mem_closed.mp closes)
      | _ => cases is
    · intro before a after k split needs
      rcases snoc_eq_split split with ⟨_, rfl, rfl⟩ | ⟨rest, _, rfl⟩
      · exact allowed.live k needs
      · exact law.needed_live before a rest k rfl needs
    · intro before k text after split
      rcases snoc_eq_split split with ⟨_, rfl, rfl⟩ | ⟨rest, _, rfl⟩
      · exact allowed.whole k text rfl
      · exact law.recapped before k text rest rfl
    · intro before after split
      rcases snoc_eq_split split with ⟨rfl, rfl, rfl⟩ | ⟨rest, _, rfl⟩
      · exact ⟨rfl, allowed.all_closed rfl⟩
      · exact absurd (List.mem_append_right _ List.mem_cons_self) allowed.going

theorem Lawful.of_append {acts more : List (Act κ α)} (law : Lawful (acts ++ more)) :
    Lawful acts := by
  induction more using List.reverseRecOn with
  | nil => simpa using law
  | append_singleton more act ih =>
      rw [← List.append_assoc, lawful_snoc] at law
      exact ih law.1

theorem said_append (k : κ) (acts more : List (Act κ α)) :
    said k (acts ++ more) = said k acts ++ said k more :=
  List.flatMap_append

theorem said_adds_self (k : κ) (fragment : List α) : said k [.adds k fragment] = fragment := by
  simp [said]

theorem said_adds_of_ne {k j : κ} (other : j ≠ k) (fragment : List α) :
    said k [.adds j fragment] = [] := by
  simp [said, other]

theorem Lawful.said_eq_nil {acts : List (Act κ α)} (law : Lawful acts) {k : κ}
    (unopened : .opens k ∉ acts) : said k acts = [] := by
  refine List.flatMap_eq_nil_iff.mpr fun act mem => ?_
  cases act with
  | adds j fragment =>
      refine if_neg fun same => unopened ?_
      subst same
      obtain ⟨before, after, rfl⟩ := List.append_of_mem mem
      exact List.mem_append_left _ (law.needed_live before _ after j rfl rfl).1
  | _ => rfl

end Zhongzhuan.Kit.ItemStream
