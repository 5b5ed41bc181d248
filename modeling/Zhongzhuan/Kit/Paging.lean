import Mathlib.Data.List.Basic
import Mathlib.Tactic.Common

/-!
# Reading a listing page by page

A listing answers a cursor with some rows, a cursor for the next request and whether there is
to be one.  `readPages` follows the cursor; `fetch` is given the number of the request, so that
each may ask for a page of its own size.

Two rules: `readPages_ends` (something that gets less with each cursor bounds the requests) and
`readPages_eq` (a function of the cursor that each page and the rest of the reading make up is
what the reading returns).
-/

namespace Zhongzhuan.Kit

/-- One answer of a listing. -/
structure Page (ρ κ : Type*) where
  rows : List ρ
  cursor : κ
  more : Bool
deriving DecidableEq, Repr

variable {ρ κ : Type*} (fetch : ℕ → κ → Page ρ κ)

/-- The rows of all pages from the request number `n` on; `none` when the reading has not come
to its end within `fuel` requests. -/
def readPages : ℕ → ℕ → κ → Option (List ρ)
  | 0, _, _ => none
  | fuel + 1, n, cursor =>
    let page := fetch n cursor
    if page.more then (readPages fuel (n + 1) page.cursor).map (page.rows ++ ·)
    else some page.rows

variable {fetch} {Sound : κ → Prop}

theorem readPages_last {n : ℕ} {cursor : κ} (last : (fetch n cursor).more = false) (fuel : ℕ) :
    readPages fetch (fuel + 1) n cursor = some (fetch n cursor).rows := by
  rw [readPages, last]
  rfl

theorem readPages_more {n : ℕ} {cursor : κ} (more : (fetch n cursor).more = true) (fuel : ℕ) :
    readPages fetch (fuel + 1) n cursor
      = (readPages fetch fuel (n + 1) (fetch n cursor).cursor).map
          ((fetch n cursor).rows ++ ·) := by
  rw [readPages, more]
  rfl

/-- **The reading ends** when something gets less with each page that asks for another. -/
theorem readPages_ends (left : κ → ℕ)
    (keeps : ∀ n c, Sound c → (fetch n c).more = true → Sound (fetch n c).cursor)
    (shrinks : ∀ n c, Sound c → (fetch n c).more = true → left (fetch n c).cursor < left c)
    {cursor : κ} (sound : Sound cursor) (n : ℕ) :
    ∃ rows, readPages fetch (left cursor + 1) n cursor = some rows := by
  -- the induction is on a bound of what is left, with the number of the request free
  have ends : ∀ bound n cursor, Sound cursor → left cursor < bound →
      ∃ rows, readPages fetch bound n cursor = some rows := by
    intro bound
    induction bound with
    | zero => exact fun _ _ _ below => absurd below (Nat.not_lt_zero _)
    | succ bound ih =>
        intro n cursor sound below
        by_cases more : (fetch n cursor).more = true
        · obtain ⟨rest, tail⟩ := ih (n + 1) _ (keeps n cursor sound more)
            (Nat.lt_of_lt_of_le (shrinks n cursor sound more) (Nat.le_of_lt_succ below))
          exact ⟨_, by rw [readPages_more more, tail]; rfl⟩
        · exact ⟨_, readPages_last (Bool.eq_false_iff.mpr more) bound⟩
  exact ends _ n cursor sound (Nat.lt_succ_self _)

/-- **What the reading returns**: each page is the beginning of what remains at its cursor, and
the last page is all of it. -/
theorem readPages_eq (remaining : κ → List ρ)
    (keeps : ∀ n c, Sound c → (fetch n c).more = true → Sound (fetch n c).cursor)
    (splits : ∀ n c, Sound c → (fetch n c).more = true →
      remaining c = (fetch n c).rows ++ remaining (fetch n c).cursor)
    (closes : ∀ n c, Sound c → (fetch n c).more = false → remaining c = (fetch n c).rows)
    {fuel n : ℕ} {cursor : κ} (sound : Sound cursor) {rows : List ρ}
    (read : readPages fetch fuel n cursor = some rows) : rows = remaining cursor := by
  induction fuel generalizing n cursor rows with
  | zero => cases read
  | succ fuel ih =>
      by_cases more : (fetch n cursor).more = true
      · rw [readPages_more more] at read
        obtain ⟨rest, tail, rfl⟩ := Option.map_eq_some_iff.mp read
        rw [ih (keeps n cursor sound more) tail, splits n cursor sound more]
      · rw [readPages_last (Bool.eq_false_iff.mpr more)] at read
        rw [← Option.some.inj read, closes n cursor sound (Bool.eq_false_iff.mpr more)]

end Zhongzhuan.Kit
