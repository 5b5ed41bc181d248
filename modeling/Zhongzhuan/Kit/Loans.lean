import Mathlib

/-!
# Things that are lent and given back

Parties ask at a place for something, get it or are refused, and give it back at some place.  A
`Loan` is one such occasion, with its number and the place it was asked at.

* `Loans` is the whole: what was asked for, what is out, what was given back and where, what was
  lost, and what each party has asked for and holds, with the place it will give it back at.
* `Loans.Move` are the moves.
* `Loans.Balanced` is what they keep: a loan is in one state at a time, what is out is held by
  one party or lost, and what was given back was given back once and where it came from.
-/

namespace Zhongzhuan.Kit

universe u v

/-- One occasion on which something is lent. -/
structure Loan (P : Type v) where
  number : ℕ
  place : P
deriving DecidableEq, Repr

/-- All loans so far. -/
structure Loans (T : Type u) (P : Type v) where
  next : ℕ
  asked : List (Loan P)
  out : List (Loan P)
  /-- What was given back, and where. -/
  returned : List (Loan P × P)
  lost : List (Loan P)
  asks : T → Option (Loan P)
  holds : T → List (Loan P × P)

namespace Loans

variable {T : Type u} {P : Type v} {l l' : Loans T P} {loan : Loan P} {t : T}

/-- Every loan that has not been refused. -/
def all (l : Loans T P) : List (Loan P) := l.asked ++ l.out ++ l.returned.map Prod.fst

/-- How many loans are asked for or out. -/
def outstanding (l : Loans T P) : ℤ := l.asked.length + l.out.length

/-- The books balance. -/
structure Balanced (l : Loans T P) : Prop where
  known : ∀ loan ∈ l.all, loan.number < l.next
  distinct : l.all.Nodup
  home : ∀ r ∈ l.returned, r.2 = r.1.place
  asking : ∀ t loan, l.asks t = some loan → loan ∈ l.asked
  asker : ∀ loan ∈ l.asked, ∃ t, l.asks t = some loan
  asker_unique : ∀ t t' loan, l.asks t = some loan → l.asks t' = some loan → t = t'
  holding : ∀ t r, r ∈ l.holds t → r.1 ∈ l.out ∧ r.1 ∉ l.lost ∧ r.2 = r.1.place
  holder : ∀ loan ∈ l.out, loan ∈ l.lost ∨ ∃ t place, (loan, place) ∈ l.holds t
  holder_unique : ∀ t t' r, r ∈ l.holds t → r ∈ l.holds t' → t = t'
  held_once : ∀ t, (l.holds t).Nodup
  lost_out : ∀ loan ∈ l.lost, loan ∈ l.out

/-- Nothing was ever asked for. -/
def start : Loans T P := ⟨0, [], [], [], [], fun _ => none, fun _ => []⟩

theorem balanced_start : (start : Loans T P).Balanced := by
  constructor <;> simp [start, all]

theorem Balanced.number (balanced : l.Balanced) {place : P} :
    (⟨l.next, place⟩ : Loan P) ∉ l.all := fun mem =>
  absurd (balanced.known _ mem) (lt_irrefl _)

theorem Balanced.asked_fresh (balanced : l.Balanced) (mem : loan ∈ l.asked) :
    loan ∉ l.out ∧ loan ∉ l.returned.map Prod.fst := by
  have distinct := balanced.distinct
  rw [all, List.append_assoc, List.nodup_append] at distinct
  constructor
  · exact fun there => distinct.2.2 _ mem _ (List.mem_append_left _ there) rfl
  · exact fun there => distinct.2.2 _ mem _ (List.mem_append_right _ there) rfl

theorem Balanced.out_fresh (balanced : l.Balanced) (mem : loan ∈ l.out) :
    loan ∉ l.returned.map Prod.fst := by
  have distinct := balanced.distinct
  rw [all, List.nodup_append] at distinct
  exact fun there => distinct.2.2 _ (List.mem_append_right _ mem) _ there rfl

theorem Balanced.asked_nodup (balanced : l.Balanced) : l.asked.Nodup :=
  ((List.sublist_append_left _ _).trans (List.sublist_append_left _ _)).nodup balanced.distinct

theorem Balanced.out_nodup (balanced : l.Balanced) : l.out.Nodup :=
  ((List.sublist_append_right _ _).trans (List.sublist_append_left _ _)).nodup balanced.distinct

theorem Balanced.returned_once (balanced : l.Balanced) : (l.returned.map Prod.fst).Nodup :=
  (List.sublist_append_right _ _).nodup balanced.distinct

theorem Balanced.eq_of_held (balanced : l.Balanced) {t t' : T} {place place' : P}
    (here : (loan, place) ∈ l.holds t) (there : (loan, place') ∈ l.holds t') :
    t = t' ∧ place = place' := by
  have same : place = place' :=
    (balanced.holding t _ here).2.2.trans (balanced.holding t' _ there).2.2.symm
  subst same
  exact ⟨balanced.holder_unique t t' _ here there, rfl⟩

/-! ## The moves keep the balance -/

variable [DecidableEq T]

theorem Balanced.asks_after (balanced : l.Balanced) (mine : l.asks t = some loan) {t' : T}
    {loan' : Loan P} : Function.update l.asks t none t' = some loan'
      ↔ l.asks t' = some loan' ∧ loan' ≠ loan := by
  rw [Function.update_apply]
  split
  · next same =>
    subst same
    simp only [reduceCtorEq, mine, Option.some.injEq, false_iff, not_and, not_not]
    exact Eq.symm
  · next other =>
    constructor
    · intro asks
      refine ⟨asks, ?_⟩
      rintro rfl
      exact other (balanced.asker_unique _ _ _ asks mine)
    · exact And.left

theorem mem_holds_cons {r r' : Loan P × P} {t' : T} :
    r' ∈ Function.update l.holds t (r :: l.holds t) t' ↔ r' ∈ l.holds t' ∨ t' = t ∧ r' = r := by
  rw [Function.update_apply]
  split
  · next same =>
    subst same
    rw [List.mem_cons, or_comm, eq_self, true_and]
  · next other => simp only [other, false_and, or_false]

theorem Balanced.ask (balanced : l.Balanced) (place : P) (free : l.asks t = none) :
    ({ l with
        next := l.next + 1
        asked := l.asked ++ [⟨l.next, place⟩]
        asks := Function.update l.asks t (some ⟨l.next, place⟩) } : Loans T P).Balanced := by
  have new : (⟨l.next, place⟩ : Loan P) ∉ l.all := balanced.number
  have fresh : (⟨l.next, place⟩ : Loan P) ∉ l.asked := fun mem =>
    new (List.mem_append_left _ (List.mem_append_left _ mem))
  have perm : (l.asked ++ [(⟨l.next, place⟩ : Loan P)] ++ l.out ++ l.returned.map Prod.fst).Perm
      ((⟨l.next, place⟩ : Loan P) :: l.all) := by
    rw [all, List.append_assoc, List.append_assoc, List.append_assoc]
    exact List.perm_middle
  refine { balanced with
    known := ?_, distinct := ?_, asking := ?_, asker := ?_, asker_unique := ?_ }
  · intro loan mem
    rcases List.mem_cons.mp (perm.mem_iff.mp mem) with rfl | old
    · exact Nat.lt_succ_self _
    · exact (balanced.known loan old).trans (Nat.lt_succ_self _)
  · exact perm.nodup_iff.mpr (List.nodup_cons.mpr ⟨new, balanced.distinct⟩)
  · intro t' loan asks
    simp only [Function.update_apply] at asks
    split at asks
    · rw [← Option.some.inj asks]
      exact List.mem_append_right _ List.mem_cons_self
    · exact List.mem_append_left _ (balanced.asking t' loan asks)
  · intro loan mem
    rcases List.mem_append.mp mem with old | here
    · obtain ⟨t', asks⟩ := balanced.asker loan old
      have other : t' ≠ t := by
        rintro rfl
        rw [free] at asks
        cases asks
      exact ⟨t', (Function.update_of_ne other ..).trans asks⟩
    · rw [List.mem_singleton.mp here]
      exact ⟨t, Function.update_self ..⟩
  · intro t₁ t₂ loan first second
    simp only [Function.update_apply] at first second
    split at first <;> split at second
    · next same same' => rw [same, same']
    · exact absurd (balanced.asking _ _ (second.trans first.symm)) fresh
    · exact absurd (balanced.asking _ _ (first.trans second.symm)) fresh
    · exact balanced.asker_unique t₁ t₂ loan first second

variable [DecidableEq P]

/-- One move, and by how much it changes the number of loans that are asked for or out. -/
inductive Move (l : Loans T P) : ℤ → Loans T P → Prop
  | stay : Move l 0 l
  | ask (t : T) (place : P) (free : l.asks t = none) :
      Move l 1 { l with
        next := l.next + 1
        asked := l.asked ++ [⟨l.next, place⟩]
        asks := Function.update l.asks t (some ⟨l.next, place⟩) }
  | refuse (t : T) (loan : Loan P) (mine : l.asks t = some loan) :
      Move l (-1) { l with
        asked := l.asked.erase loan
        asks := Function.update l.asks t none }
  | lend (t : T) (loan : Loan P) (mine : l.asks t = some loan) :
      Move l 0 { l with
        asked := l.asked.erase loan
        out := l.out ++ [loan]
        asks := Function.update l.asks t none
        holds := Function.update l.holds t ((loan, loan.place) :: l.holds t) }
  | giveBack (t : T) (loan : Loan P) (place : P) (mine : (loan, place) ∈ l.holds t) :
      Move l (-1) { l with
        out := l.out.erase loan
        returned := l.returned ++ [(loan, place)]
        holds := Function.update l.holds t ((l.holds t).erase (loan, place)) }
  | lose (t : T) (loan : Loan P) (place : P) (mine : (loan, place) ∈ l.holds t) :
      Move l 0 { l with
        lost := l.lost ++ [loan]
        holds := Function.update l.holds t ((l.holds t).erase (loan, place)) }

theorem Balanced.refuse (balanced : l.Balanced) (mine : l.asks t = some loan) :
    ({ l with
        asked := l.asked.erase loan
        asks := Function.update l.asks t none } : Loans T P).Balanced := by
  have sub : (l.asked.erase loan ++ l.out ++ l.returned.map Prod.fst).Sublist l.all :=
    (List.erase_sublist.append_right _).append_right _
  refine { balanced with
    known := ?_, distinct := ?_, asking := ?_, asker := ?_, asker_unique := ?_ }
  · exact fun other mem => balanced.known other (sub.subset mem)
  · exact sub.nodup balanced.distinct
  · intro t' other asks
    obtain ⟨there, ne⟩ := (balanced.asks_after mine).mp asks
    exact (List.mem_erase_of_ne ne).mpr (balanced.asking t' other there)
  · intro other mem
    obtain ⟨ne, old⟩ := (balanced.asked_nodup.mem_erase_iff).mp mem
    obtain ⟨t', asks⟩ := balanced.asker other old
    exact ⟨t', (balanced.asks_after mine).mpr ⟨asks, ne⟩⟩
  · intro t₁ t₂ other first second
    exact balanced.asker_unique t₁ t₂ other ((balanced.asks_after mine).mp first).1
      ((balanced.asks_after mine).mp second).1

theorem Balanced.lend (balanced : l.Balanced) (mine : l.asks t = some loan) :
    ({ l with
        asked := l.asked.erase loan
        out := l.out ++ [loan]
        asks := Function.update l.asks t none
        holds := Function.update l.holds t ((loan, loan.place) :: l.holds t) } :
      Loans T P).Balanced := by
  have asked := balanced.asking t loan mine
  obtain ⟨inside, unreturned⟩ := balanced.asked_fresh asked
  have unheld : ∀ t' place, (loan, place) ∉ l.holds t' := fun t' place here =>
    inside (balanced.holding t' _ here).1
  have perm : (l.asked.erase loan ++ (l.out ++ [loan]) ++ l.returned.map Prod.fst).Perm l.all := by
    refine List.Perm.append_right _ ?_
    rw [← List.append_assoc]
    refine (List.perm_append_singleton _ _).trans ?_
    exact (List.Perm.append_right l.out (List.perm_cons_erase asked)).symm
  refine { balanced with
    known := ?_, distinct := ?_, asking := ?_, asker := ?_, asker_unique := ?_, holding := ?_
    holder := ?_, holder_unique := ?_, held_once := ?_, lost_out := ?_ }
  · exact fun other mem => balanced.known other (perm.mem_iff.mp mem)
  · exact perm.nodup_iff.mpr balanced.distinct
  · exact (balanced.refuse mine).asking
  · exact (balanced.refuse mine).asker
  · exact (balanced.refuse mine).asker_unique
  · intro t' r here
    rcases mem_holds_cons.mp here with old | ⟨-, rfl⟩
    · obtain ⟨there, rest⟩ := balanced.holding t' r old
      exact ⟨List.mem_append_left _ there, rest⟩
    · exact ⟨List.mem_append_right _ List.mem_cons_self,
        fun gone => inside (balanced.lost_out loan gone), rfl⟩
  · intro other mem
    rcases List.mem_append.mp mem with old | here
    · refine (balanced.holder other old).imp_right ?_
      rintro ⟨t', place, held⟩
      exact ⟨t', place, mem_holds_cons.mpr (.inl held)⟩
    · rw [List.mem_singleton.mp here]
      exact .inr ⟨t, loan.place, mem_holds_cons.mpr (.inr ⟨rfl, rfl⟩)⟩
  · intro t₁ t₂ r first second
    rcases mem_holds_cons.mp first with old | ⟨here, same⟩
    · rcases mem_holds_cons.mp second with old' | ⟨-, same⟩
      · exact balanced.holder_unique t₁ t₂ r old old'
      · exact absurd (same ▸ old) (unheld _ _)
    · rcases mem_holds_cons.mp second with old' | ⟨there, -⟩
      · exact absurd (same ▸ old') (unheld _ _)
      · rw [here, there]
  · intro t'
    change (Function.update l.holds t _ t').Nodup
    rw [Function.update_apply]
    split
    · exact List.nodup_cons.mpr ⟨unheld _ _, balanced.held_once t⟩
    · exact balanced.held_once t'
  · exact fun other gone => List.mem_append_left _ (balanced.lost_out other gone)

theorem Balanced.mem_holds_erase (balanced : l.Balanced) {r r' : Loan P × P} {t' : T}
    (mine : r ∈ l.holds t) :
    r' ∈ Function.update l.holds t ((l.holds t).erase r) t' ↔ r' ∈ l.holds t' ∧ r' ≠ r := by
  rw [Function.update_apply]
  split
  · next same =>
    subst same
    rw [(balanced.held_once _).mem_erase_iff, and_comm]
  · next other =>
    refine ⟨fun here => ⟨here, ?_⟩, And.left⟩
    rintro rfl
    exact other (balanced.holder_unique _ _ _ here mine)

theorem Balanced.nodup_holds_erase (balanced : l.Balanced) {r : Loan P × P} (t' : T) :
    (Function.update l.holds t ((l.holds t).erase r) t').Nodup := by
  rw [Function.update_apply]
  split
  · exact (balanced.held_once t).erase r
  · exact balanced.held_once t'

theorem Balanced.giveBack (balanced : l.Balanced) {place : P}
    (mine : (loan, place) ∈ l.holds t) :
    ({ l with
        out := l.out.erase loan
        returned := l.returned ++ [(loan, place)]
        holds := Function.update l.holds t ((l.holds t).erase (loan, place)) } :
      Loans T P).Balanced := by
  obtain ⟨out, kept, home⟩ := balanced.holding t _ mine
  dsimp only at out kept home
  have perm : (l.asked ++ l.out.erase loan ++ (l.returned ++ [(loan, place)]).map Prod.fst).Perm
      l.all := by
    rw [List.map_append, List.map_singleton, ← List.append_assoc]
    refine (List.perm_append_singleton _ _).trans ?_
    rw [all, ← List.cons_append]
    refine List.Perm.append_right _ ?_
    refine List.perm_middle.symm.trans ?_
    exact List.Perm.append_left _ (List.perm_cons_erase out).symm
  have others : ∀ {r : Loan P × P} {t' : T}, r ∈ l.holds t' → r ≠ (loan, place) →
      r.1 ≠ loan := by
    rintro ⟨other, place'⟩ t' here ne rfl
    exact ne (Prod.ext rfl (balanced.eq_of_held here mine).2)
  refine { balanced with
    known := ?_, distinct := ?_, home := ?_, holding := ?_, holder := ?_, holder_unique := ?_
    held_once := balanced.nodup_holds_erase, lost_out := ?_ }
  · exact fun other mem => balanced.known other (perm.mem_iff.mp mem)
  · exact perm.nodup_iff.mpr balanced.distinct
  · intro r mem
    rcases List.mem_append.mp mem with old | here
    · exact balanced.home r old
    · rw [List.mem_singleton.mp here]
      exact home
  · intro t' r here
    obtain ⟨old, ne⟩ := (balanced.mem_holds_erase mine).mp here
    obtain ⟨there, rest⟩ := balanced.holding t' r old
    exact ⟨(List.mem_erase_of_ne (others old ne)).mpr there, rest⟩
  · intro other mem
    obtain ⟨ne, old⟩ := balanced.out_nodup.mem_erase_iff.mp mem
    refine (balanced.holder other old).imp_right ?_
    rintro ⟨t', place', held⟩
    refine ⟨t', place', (balanced.mem_holds_erase mine).mpr ⟨held, ?_⟩⟩
    exact fun same => ne (congrArg Prod.fst same)
  · intro t₁ t₂ r first second
    exact balanced.holder_unique t₁ t₂ r ((balanced.mem_holds_erase mine).mp first).1
      ((balanced.mem_holds_erase mine).mp second).1
  · intro other gone
    refine (List.mem_erase_of_ne ?_).mpr (balanced.lost_out other gone)
    rintro rfl
    exact kept gone

theorem Balanced.lose (balanced : l.Balanced) {place : P} (mine : (loan, place) ∈ l.holds t) :
    ({ l with
        lost := l.lost ++ [loan]
        holds := Function.update l.holds t ((l.holds t).erase (loan, place)) } :
      Loans T P).Balanced := by
  obtain ⟨out, -, home⟩ := balanced.holding t _ mine
  refine { balanced with
    holding := ?_, holder := ?_, holder_unique := ?_
    held_once := balanced.nodup_holds_erase, lost_out := ?_ }
  · intro t' r here
    obtain ⟨old, ne⟩ := (balanced.mem_holds_erase mine).mp here
    obtain ⟨there, kept, place⟩ := balanced.holding t' r old
    refine ⟨there, fun gone => ?_, place⟩
    rcases List.mem_append.mp gone with before | now
    · exact kept before
    · refine ne (Prod.ext (List.mem_singleton.mp now) ?_)
      rw [place, home, List.mem_singleton.mp now]
  · intro other mem
    rcases balanced.holder other mem with gone | ⟨t', place', held⟩
    · exact .inl (List.mem_append_left _ gone)
    · by_cases same : other = loan
      · exact .inl (List.mem_append_right _ (List.mem_singleton.mpr same))
      · refine .inr ⟨t', place', (balanced.mem_holds_erase mine).mpr ⟨held, ?_⟩⟩
        exact fun pair => same (congrArg Prod.fst pair)
  · intro t₁ t₂ r first second
    exact balanced.holder_unique t₁ t₂ r ((balanced.mem_holds_erase mine).mp first).1
      ((balanced.mem_holds_erase mine).mp second).1
  · intro other gone
    rcases List.mem_append.mp gone with before | now
    · exact balanced.lost_out other before
    · rw [List.mem_singleton.mp now]
      exact out

theorem Balanced.move {n : ℤ} (balanced : l.Balanced) (move : Move l n l') : l'.Balanced := by
  cases move with
  | stay => exact balanced
  | ask t place free => exact balanced.ask place free
  | refuse t loan mine => exact balanced.refuse mine
  | lend t loan mine => exact balanced.lend mine
  | giveBack t loan place mine => exact balanced.giveBack mine
  | lose t loan place mine => exact balanced.lose mine

theorem Balanced.outstanding {n : ℤ} (balanced : l.Balanced) (move : Move l n l') :
    l'.outstanding = l.outstanding + n := by
  unfold Loans.outstanding
  cases move with
  | stay => exact (add_zero _).symm
  | ask t place free =>
    rw [List.length_append, List.length_singleton]
    push_cast
    ring
  | refuse t loan mine =>
    have positive := List.length_pos_of_mem (balanced.asking t loan mine)
    rw [List.length_erase_of_mem (balanced.asking t loan mine)]
    dsimp only
    omega
  | lend t loan mine =>
    have positive := List.length_pos_of_mem (balanced.asking t loan mine)
    rw [List.length_erase_of_mem (balanced.asking t loan mine), List.length_append,
      List.length_singleton]
    omega
  | giveBack t loan place mine =>
    have out := (balanced.holding t _ mine).1
    have positive := List.length_pos_of_mem out
    rw [List.length_erase_of_mem out]
    dsimp only
    omega
  | lose t loan place mine => exact (add_zero _).symm

theorem Move.returned {n : ℤ} (move : Move l n l') {r : Loan P × P}
    (mem : r ∈ l.returned) : r ∈ l'.returned := by
  cases move with
  | giveBack t loan place mine => exact List.mem_append_left _ mem
  | stay | ask | refuse | lend | lose => exact mem

theorem Move.lent {n : ℤ} (move : Move l n l') (mem : loan ∈ l.out) :
    loan ∈ l'.out ∨ ∃ place, (loan, place) ∈ l'.returned := by
  cases move with
  | giveBack t other place mine =>
    by_cases same : loan = other
    · exact .inr ⟨place, List.mem_append_right _ (List.mem_singleton.mpr (same ▸ rfl))⟩
    · exact .inl ((List.mem_erase_of_ne same).mpr mem)
  | lend t other mine => exact .inl (List.mem_append_left _ mem)
  | stay | ask | refuse | lose => exact .inl mem

end Loans

end Zhongzhuan.Kit
