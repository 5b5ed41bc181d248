import Zhongzhuan.Responses.ChainHistory

/-!
# What `resolve_chain` recovers

`ChainPath` is the chain as the store has it: from an id along `previous_response_id` to a root
or to a compact boundary.  `Recovers` is what the resolver is for: it reads no more records than
the depth ceiling allows, it succeeds exactly on a chain that ends, repeats no id and fits the
ceilings, and then it returns every item of every turn.

`resolve_chain` reads the stored rows of a turn with a limit, one more than the items it may
still recover, so that a turn with too many items trips the guard.  The limit counts rows,
though, and the guard counts items: rows of reasoning use up the limit and not the budget
(`readRows`).  `recovers_iff` says that this is the only way in which the resolver fails.
-/

namespace Zhongzhuan.Responses

open Kit Store Protocol

/-- A response on a chain. -/
structure Turn where
  id : String
  record : ResponseRecord
deriving DecidableEq, Repr

/-! ## Chains in a store -/

/-- `path` leads from an id to a root or to a compact boundary, the child first. -/
inductive ChainPath (db : Tables) (ws : String) : String → List Turn → Prop
  | root : ChainPath db ws "" []
  | boundary {id : String} {record : ResponseRecord} (named : id ≠ "")
      (found : db.getResponse id ws = some record)
      (compacted : isCompactBoundary record = true) : ChainPath db ws id [⟨id, record⟩]
  | turn {id : String} {record : ResponseRecord} {path : List Turn} (named : id ≠ "")
      (found : db.getResponse id ws = some record)
      (plain : isCompactBoundary record = false)
      (older : ChainPath db ws record.previousResponseId path) :
      ChainPath db ws id (⟨id, record⟩ :: path)

/-- No id comes twice, and no record names itself as the one before it. -/
def Unrepeated (path : List Turn) : Prop :=
  (path.map Turn.id).Nodup ∧ ∀ turn ∈ path, turn.record.previousResponseId ≠ turn.id

/-- The rows of a turn that are read with a limit: its input and then its output. -/
def turnRows (db : Tables) (turn : Turn) (limit : ℕ) : List Json :=
  let stored := db.listInputItems turn.id (-1) limit
  let inputs :=
    if stored.isEmpty then normalizeInput (requestField turn.record "input") else stored
  let outputs :=
    if turn.record.output.truthy then listOf turn.record.output
    else db.listOutputItems turn.id limit
  inputs ++ outputs

/-- All rows of a turn. -/
def everyRow (db : Tables) (turn : Turn) : List Json :=
  turnRows db turn ((db turn.id).inputItems.length + (db turn.id).outputItems.length)

section Counts

variable (strOf : Json → String)

/-- How many items some turns come to. -/
def itemsIn (turns : List (List Json)) : ℕ :=
  (turns.map fun rows => (normalizeHistory strOf rows).length).sum

/-- How many tokens the items of some turns are estimated at. -/
def tokensIn (turns : List (List Json)) : ℕ :=
  (turns.map fun rows => ((normalizeHistory strOf rows).map estimateTokens).sum).sum

/-- A chain within the ceilings, when these are its rows. -/
structure FitsCeilings (caps : ChainCaps) (path : List Turn) (turns : List (List Json)) : Prop where
  unrepeated : Unrepeated path
  depth : path.length ≤ caps.depth
  items : itemsIn strOf turns ≤ caps.items
  tokens : tokensIn strOf turns ≤ caps.tokens

/-- The rows of a chain within the limits that `resolve_chain` reads it with, after `total`
items. -/
def readRows (db : Tables) (caps : ChainCaps) : ℕ → List Turn → List (List Json)
  | _, [] => []
  | total, turn :: older =>
    let rows := turnRows db turn (caps.items - total + 1)
    rows :: readRows db caps (total + (normalizeHistory strOf rows).length) older

end Counts

/-! ## The records that are read -/

section Reads

variable {I : Type} (codec : ItemCodec I) (db : Tables)

/-- The ids that the loop of `resolve_chain` asks the store for. -/
def walkReads (caps : ChainCaps) (ws : String) : ℕ → String → Walk I → List String
  | left, current, w =>
    if current = "" then []
    else if current ∈ w.visited then []
    else
      match left with
      | 0 => []
      | left + 1 =>
        current ::
          match db.getResponse current ws with
          | none => []
          | some record =>
            match w.visit codec db caps current record with
            | .inr _ => []
            | .inl w =>
              if isCompactBoundary record then []
              else walkReads caps ws left record.previousResponseId w

/-- The ids that `resolve_chain` asks the store for. -/
def chainReads (caps : ChainCaps) (responseId ws : String) : List String :=
  if responseId = "" then []
  else walkReads codec db caps ws caps.depth responseId ⟨[], 0, [], 0, 0⟩

variable {codec db} {db' : Tables}

theorem length_walkReads_le (caps : ChainCaps) (ws : String) (left : ℕ) (current : String)
    (w : Walk I) : (walkReads codec db caps ws left current w).length ≤ left := by
  induction left generalizing current w with
  | zero =>
      unfold walkReads
      split
      · exact le_rfl
      split
      · exact le_rfl
      · exact le_rfl
  | succ left ih =>
      unfold walkReads
      split
      · exact Nat.zero_le _
      split
      · exact Nat.zero_le _
      apply Nat.succ_le_succ
      split
      · exact Nat.zero_le _
      split
      · exact Nat.zero_le _
      split
      · exact Nat.zero_le _
      · exact ih _ _

theorem length_chainReads_le (caps : ChainCaps) (responseId ws : String) :
    (chainReads codec db caps responseId ws).length ≤ caps.depth := by
  unfold chainReads
  split
  · exact Nat.zero_le _
  · exact length_walkReads_le _ _ _ _ _

end Reads

/-! ## Rows within the limit -/

theorem turnRows_sublist (db : Tables) (turn : Turn) {limit : ℕ} (some : 0 < limit) :
    (turnRows db turn limit).Sublist (everyRow db turn) := by
  unfold everyRow turnRows
  have inputs : db.listInputItems turn.id (-1) limit
      = (db.listInputItems turn.id (-1)
          ((db turn.id).inputItems.length + (db turn.id).outputItems.length)).take limit :=
    Tables.page_eq_take (Nat.le_add_right _ _) _ _
  have outputs : db.listOutputItems turn.id limit
      = (db.listOutputItems turn.id
          ((db turn.id).inputItems.length + (db turn.id).outputItems.length)).take limit :=
    Tables.page_eq_take (Nat.le_add_left _ _) _ _
  rw [inputs, outputs]
  apply List.Sublist.append
  · generalize db.listInputItems turn.id (-1) _ = all
    cases all with
    | nil => simp
    | cons row rows =>
        obtain ⟨n, rfl⟩ := Nat.exists_eq_succ_of_ne_zero some.ne'
        exact List.take_sublist _ _
  · split
    · exact List.Sublist.refl _
    · exact List.take_sublist _ _

section Walks

variable {strOf : Json → String} {db : Tables} {caps : ChainCaps} {ws : String}

@[simp] theorem itemsIn_nil : itemsIn strOf [] = 0 := rfl

@[simp] theorem tokensIn_nil : tokensIn strOf [] = 0 := rfl

@[simp] theorem itemsIn_cons (rows : List Json) (turns : List (List Json)) :
    itemsIn strOf (rows :: turns) = (normalizeHistory strOf rows).length + itemsIn strOf turns := by
  simp [itemsIn]

@[simp] theorem tokensIn_cons (rows : List Json) (turns : List (List Json)) :
    tokensIn strOf (rows :: turns)
      = ((normalizeHistory strOf rows).map estimateTokens).sum + tokensIn strOf turns := by
  simp [tokensIn]

theorem itemsIn_readRows_le (strOf : Json → String) (db : Tables) (caps : ChainCaps)
    (total : ℕ) (path : List Turn) :
    itemsIn strOf (readRows strOf db caps total path) ≤ itemsIn strOf (path.map (everyRow db)) := by
  induction path generalizing total with
  | nil => exact le_rfl
  | cons turn older ih =>
      rw [readRows, List.map_cons, itemsIn_cons, itemsIn_cons]
      exact Nat.add_le_add (historyLength_sublist strOf (turnRows_sublist db turn (Nat.succ_pos _)))
        (ih _)

theorem tokensIn_readRows_le (total : ℕ) (path : List Turn) :
    tokensIn strOf (readRows strOf db caps total path)
      ≤ tokensIn strOf (path.map (everyRow db)) := by
  induction path generalizing total with
  | nil => exact le_rfl
  | cons turn older ih =>
      rw [readRows, List.map_cons, tokensIn_cons, tokensIn_cons]
      exact Nat.add_le_add (historyTokens_sublist strOf (turnRows_sublist db turn (Nat.succ_pos _)))
        (ih _)

theorem histories_eq_of_items (total : ℕ) (path : List Turn)
    (same : itemsIn strOf (path.map (everyRow db))
      ≤ itemsIn strOf (readRows strOf db caps total path)) :
    (readRows strOf db caps total path).map (List.filter (replayable strOf))
      = (path.map (everyRow db)).map (List.filter (replayable strOf)) := by
  induction path generalizing total with
  | nil => rfl
  | cons turn older ih =>
      have sub : (turnRows db turn (caps.items - total + 1)).Sublist (everyRow db turn) :=
        turnRows_sublist db turn (Nat.succ_pos _)
      have here := historyLength_sublist strOf sub
      have rest := itemsIn_readRows_le strOf db caps
        (total + (normalizeHistory strOf (turnRows db turn (caps.items - total + 1))).length)
        older
      rw [readRows, List.map_cons, itemsIn_cons, itemsIn_cons] at same
      rw [readRows, List.map_cons, List.map_cons, List.map_cons, ih _ (by omega),
        history_eq_of_length sub (by omega)]

end Walks

/-! ## The walk along a chain -/

/-- A walk that has gone on along `path` and read these rows. -/
def Walk.extend (strOf : Json → String) (w : Walk NormalizedItem) (path : List Turn)
    (turns : List (List Json)) : Walk NormalizedItem where
  visited := w.visited ++ path.map Turn.id
  depth := w.depth + path.length
  buckets := w.buckets ++ turns.map (normalizeHistory strOf)
  totalItems := w.totalItems + itemsIn strOf turns
  totalTokens := w.totalTokens + tokensIn strOf turns

theorem Walk.extend_nil (strOf : Json → String) (w : Walk NormalizedItem) :
    w.extend strOf [] [] = w := by
  simp [Walk.extend]

theorem Walk.extend_extend (strOf : Json → String) (w : Walk NormalizedItem) (turn : Turn)
    (rows : List Json) (path : List Turn) (turns : List (List Json)) :
    (w.extend strOf [turn] [rows]).extend strOf path turns
      = w.extend strOf (turn :: path) (rows :: turns) := by
  simp only [Walk.extend, List.map_cons, List.map_nil, List.append_assoc, List.length_cons,
    List.length_nil, itemsIn_cons, tokensIn_cons, itemsIn_nil, tokensIn_nil]
  refine Walk.mk.injEq .. ▸ ⟨rfl, by omega, rfl, by omega, by omega⟩

section Resolver

variable {py : PyText} {db : Tables} {caps : ChainCaps} {ws : String}

theorem visibleItems_registry (turn : Turn) (limit : ℕ) :
    visibleItems (registryCodec py) db turn.id turn.record limit
      = normalizeHistory py.strOf (turnRows db turn limit) := rfl

theorem tokens_registry : (registryCodec py).tokens = estimateTokens := rfl

theorem visit_of_fits (py : PyText) (db : Tables) (caps : ChainCaps)
    (w : Walk NormalizedItem) (turn : Turn)
    (items : w.totalItems + (normalizeHistory py.strOf
      (turnRows db turn (caps.items - w.totalItems + 1))).length ≤ caps.items)
    (tokens : w.totalTokens + ((normalizeHistory py.strOf
      (turnRows db turn (caps.items - w.totalItems + 1))).map estimateTokens).sum ≤ caps.tokens)
    (other : turn.record.previousResponseId ≠ turn.id) :
    w.visit (registryCodec py) db caps turn.id turn.record
      = .inl (w.extend py.strOf [turn] [turnRows db turn (caps.items - w.totalItems + 1)]) := by
  unfold Walk.visit
  rw [visibleItems_registry, tokens_registry]
  dsimp only
  rw [if_neg (Nat.not_lt.mpr items), if_neg (Nat.not_lt.mpr tokens),
    if_neg fun same => other same.2]
  simp only [Walk.extend, itemsIn_cons, tokensIn_cons, itemsIn_nil, tokensIn_nil]
  rfl

theorem fits_of_visit {w next : Walk NormalizedItem} (turn : Turn) (named : turn.id ≠ "")
    (visited : w.visit (registryCodec py) db caps turn.id turn.record = .inl next) :
    (w.totalItems + (normalizeHistory py.strOf
        (turnRows db turn (caps.items - w.totalItems + 1))).length ≤ caps.items)
      ∧ (w.totalTokens + ((normalizeHistory py.strOf
        (turnRows db turn (caps.items - w.totalItems + 1))).map estimateTokens).sum ≤ caps.tokens)
      ∧ turn.record.previousResponseId ≠ turn.id := by
  unfold Walk.visit at visited
  rw [visibleItems_registry, tokens_registry] at visited
  dsimp only at visited
  split at visited
  · cases visited
  case isFalse items =>
    split at visited
    · cases visited
    case isFalse tokens =>
      split at visited
      · cases visited
      case isFalse other =>
        exact ⟨Nat.not_lt.mp items, Nat.not_lt.mp tokens,
          fun same => other ⟨same ▸ named, same⟩⟩

/-- **The walk along a chain within the ceilings reaches its end**, with the rows it reads. -/
theorem walk_of_path {path : List Turn} {current : String} (chain : ChainPath db ws current path)
    (left : ℕ) (w : Walk NormalizedItem) (fresh : ∀ turn ∈ path, turn.id ∉ w.visited)
    (unrepeated : Unrepeated path) (deep : path.length ≤ left)
    (items : w.totalItems + itemsIn py.strOf (readRows py.strOf db caps w.totalItems path)
      ≤ caps.items)
    (tokens : w.totalTokens + tokensIn py.strOf (readRows py.strOf db caps w.totalItems path)
      ≤ caps.tokens) :
    walk (registryCodec py) db caps ws left current w
      = (w.extend py.strOf path (readRows py.strOf db caps w.totalItems path)).resolution
          (registryCodec py) := by
  induction chain generalizing left w with
  | root =>
      unfold walk
      rw [if_pos rfl, readRows, Walk.extend_nil]
  | @boundary id record named found compacted =>
      obtain ⟨left, rfl⟩ := Nat.exists_eq_add_of_le' deep
      rw [readRows, readRows] at items tokens ⊢
      have visit := visit_of_fits py db caps w ⟨id, record⟩ (by simpa using items)
        (by simpa using tokens) (unrepeated.2 _ List.mem_cons_self)
      rw [List.length_singleton, walk, if_neg named,
        if_neg (fresh _ List.mem_cons_self), found]
      dsimp only
      rw [visit]
      dsimp only
      rw [if_pos compacted]
  | @turn id record older named found plain _ ih =>
      obtain ⟨left, rfl⟩ := Nat.exists_eq_add_of_le' deep
      rw [readRows] at items tokens ⊢
      rw [itemsIn_cons] at items
      rw [tokensIn_cons] at tokens
      have visit := visit_of_fits py db caps w ⟨id, record⟩ (by omega)
        (by omega) (unrepeated.2 _ List.mem_cons_self)
      obtain ⟨notAgain, distinct⟩ := List.nodup_cons.mp unrepeated.1
      rw [show left + (⟨id, record⟩ :: older : List Turn).length = left + older.length + 1 from rfl,
        walk, if_neg named, if_neg (fresh _ List.mem_cons_self), found]
      dsimp only
      rw [visit]
      dsimp only
      rw [if_neg (by simp [plain]), ih, Walk.extend_extend]
      · simp only [Walk.extend, itemsIn_cons, itemsIn_nil, Nat.add_zero]
      · intro turn mem again
        rcases List.mem_append.mp again with before | here
        · exact fresh turn (List.mem_cons_of_mem _ mem) before
        · rw [List.map_cons, List.map_nil, List.mem_singleton] at here
          exact notAgain (here ▸ List.mem_map_of_mem mem)
      · exact ⟨distinct, fun turn mem => unrepeated.2 turn (List.mem_cons_of_mem _ mem)⟩
      · exact Nat.le_add_left _ _
      · simpa [Walk.extend, Nat.add_assoc] using items
      · simpa [Walk.extend, Nat.add_assoc] using tokens

theorem path_of_walk (left : ℕ) (current : String) (w : Walk NormalizedItem)
    (itemsBefore : w.totalItems ≤ caps.items) (tokensBefore : w.totalTokens ≤ caps.tokens)
    (succeeded : (walk (registryCodec py) db caps ws left current w).error = none) :
    ∃ path, ChainPath db ws current path ∧ (∀ turn ∈ path, turn.id ∉ w.visited)
      ∧ Unrepeated path ∧ path.length ≤ left
      ∧ w.totalItems + itemsIn py.strOf (readRows py.strOf db caps w.totalItems path)
          ≤ caps.items
      ∧ w.totalTokens + tokensIn py.strOf (readRows py.strOf db caps w.totalItems path)
          ≤ caps.tokens := by
  induction left generalizing current w with
  | zero =>
      rw [walk] at succeeded
      split at succeeded
      case isTrue unnamed =>
        subst unnamed
        exact ⟨[], .root, fun _ mem => absurd mem List.not_mem_nil,
          ⟨List.nodup_nil, fun _ mem => absurd mem List.not_mem_nil⟩, le_rfl, itemsBefore,
          tokensBefore⟩
      split at succeeded
      · cases succeeded
      · cases succeeded
  | succ left ih =>
      rw [walk] at succeeded
      split at succeeded
      case isTrue unnamed =>
        subst unnamed
        exact ⟨[], .root, fun _ mem => absurd mem List.not_mem_nil,
          ⟨List.nodup_nil, fun _ mem => absurd mem List.not_mem_nil⟩, Nat.zero_le _,
          itemsBefore, tokensBefore⟩
      case isFalse named =>
      split at succeeded
      · cases succeeded
      case isFalse unseen =>
      cases found : db.getResponse current ws with
      | none => simp only [found] at succeeded; cases succeeded
      | some record =>
          simp only [found] at succeeded
          cases visited : w.visit (registryCodec py) db caps current record with
          | inr failed =>
              simp only [visited] at succeeded
              unfold Walk.visit at visited
              dsimp only at visited
              split at visited
              · cases visited
                cases succeeded
              split at visited
              · cases visited
                cases succeeded
              split at visited
              · cases visited
                cases succeeded
              · cases visited
          | inl next =>
              simp only [visited] at succeeded
              obtain ⟨items, tokens, other⟩ :=
                fits_of_visit ⟨current, record⟩ named visited
              have visit := visit_of_fits py db caps w ⟨current, record⟩ items tokens other
              obtain rfl : _ = next := Sum.inl.inj (visit.symm.trans visited)
              cases compacted : isCompactBoundary record with
              | true =>
                  refine ⟨[⟨current, record⟩], .boundary named found compacted, ?_, ⟨?_, ?_⟩,
                    Nat.succ_le_succ (Nat.zero_le _), ?_, ?_⟩
                  · simpa using unseen
                  · exact List.nodup_singleton _
                  · simpa using other
                  · simpa [readRows] using items
                  · simpa [readRows] using tokens
              | false =>
                  rw [if_neg (by simp [compacted])] at succeeded
                  obtain ⟨older, chain, fresh, unrepeated, deep, itemsOk, tokensOk⟩ :=
                    ih _ _ (by simpa [Walk.extend] using items)
                      (by simpa [Walk.extend] using tokens) succeeded
                  have notHere : current ∉ older.map Turn.id := by
                    intro mem
                    obtain ⟨turn, inOlder, same⟩ := List.mem_map.mp mem
                    exact fresh turn inOlder (by simp [Walk.extend, same])
                  refine ⟨⟨current, record⟩ :: older, .turn named found compacted chain, ?_,
                    ⟨?_, ?_⟩, Nat.succ_le_succ deep, ?_, ?_⟩
                  · intro turn mem
                    rcases List.mem_cons.mp mem with rfl | inOlder
                    · exact unseen
                    · intro seen
                      exact fresh turn inOlder (by simp [Walk.extend, seen])
                  · exact List.nodup_cons.mpr ⟨notHere, unrepeated.1⟩
                  · intro turn mem
                    rcases List.mem_cons.mp mem with rfl | inOlder
                    · exact other
                    · exact unrepeated.2 turn inOlder
                  · simpa [Walk.extend, readRows, Nat.add_assoc] using itemsOk
                  · simpa [Walk.extend, readRows, Nat.add_assoc] using tokensOk

theorem resolution_error (w : Walk NormalizedItem) :
    (w.resolution (registryCodec py)).error = none := rfl

theorem walk_failed (left : ℕ) (current : String) (w : Walk NormalizedItem)
    (failed : (walk (registryCodec py) db caps ws left current w).error ≠ none) :
    (walk (registryCodec py) db caps ws left current w).items = [] := by
  induction left generalizing current w with
  | zero =>
      rw [walk] at failed ⊢
      split
      case isTrue unnamed => simp [unnamed, resolution_error] at failed
      split
      · rfl
      · rfl
  | succ left ih =>
      rw [walk] at failed ⊢
      split
      case isTrue unnamed => simp [unnamed, resolution_error] at failed
      case isFalse named =>
      rw [if_neg named] at failed
      split
      · rfl
      case isFalse unseen =>
      rw [if_neg unseen] at failed
      cases found : db.getResponse current ws with
      | none => rfl
      | some record =>
          simp only [found] at failed ⊢
          cases visited : w.visit (registryCodec py) db caps current record with
          | inr answer =>
              unfold Walk.visit at visited
              dsimp only at visited
              split at visited
              · cases visited
                rfl
              split at visited
              · cases visited
                rfl
              split at visited
              · cases visited
                rfl
              · cases visited
          | inl next =>
              simp only [visited] at failed ⊢
              split
              case isTrue compacted => simp [compacted, resolution_error] at failed
              case isFalse plain =>
                rw [if_neg plain] at failed
                exact ih _ _ failed

theorem ChainPath.unique {id : String} {path other : List Turn} (chain : ChainPath db ws id path)
    (chain' : ChainPath db ws id other) : path = other := by
  induction chain generalizing other with
  | root =>
      cases chain' with
      | root => rfl
      | boundary named _ _ => exact absurd rfl named
      | turn named _ _ _ => exact absurd rfl named
  | @boundary id record named found compacted =>
      cases chain' with
      | root => exact absurd rfl named
      | boundary _ found' _ => rw [Option.some.inj (found.symm.trans found')]
      | turn _ found' plain _ =>
          rw [Option.some.inj (found.symm.trans found'), plain] at compacted
          exact absurd compacted Bool.false_ne_true
  | @turn id record path named found plain _ ih =>
      cases chain' with
      | root => exact absurd rfl named
      | boundary _ found' compacted =>
          rw [Option.some.inj (found.symm.trans found'), compacted] at plain
          exact absurd plain.symm Bool.false_ne_true
      | turn _ found' _ older' =>
          obtain rfl := Option.some.inj (found.symm.trans found')
          rw [ih older']

/-! ## What is recovered -/

theorem reseq_flatten {strOf : Json → String} (turns : List (List Json)) (number : ℕ) :
    (((turns.map fun rows => itemsFrom strOf rows 0).flatten.zipIdx number).map
        fun item => reseqItem item.1 item.2)
      = itemsFrom strOf turns.flatten number := by
  induction turns generalizing number with
  | nil => rfl
  | cons rows turns ih =>
      rw [List.map_cons, List.flatten_cons, List.flatten_cons, List.zipIdx_append,
        List.map_append, reseq_itemsFrom, length_itemsFrom, Nat.add_comm, ih, itemsFrom_append,
        Nat.add_comm]

theorem itemsFrom_map_some {strOf : Json → String} {rows : List Json}
    (visible : ∀ row ∈ rows, replayable strOf row = true) (start : ℕ) :
    (itemsFrom strOf rows start).map some
      = (rows.zipIdx start).map fun row => parseValue strOf row.1 row.2 := by
  rw [itemsFrom, List.map_map]
  apply List.map_congr_left
  intro row mem
  exact (parseValue_of_replayable (visible _ (List.fst_mem_of_mem_zipIdx mem)) _).symm

theorem resolution_items (path : List Turn) (turns : List (List Json)) :
    ((Walk.extend py.strOf ⟨[], 0, [], 0, 0⟩ path turns).resolution (registryCodec py)).items
      = itemsFrom py.strOf (turns.map (List.filter (replayable py.strOf))).reverse.flatten 0 := by
  have histories : turns.map (normalizeHistory py.strOf)
      = (turns.map (List.filter (replayable py.strOf))).map
          fun rows => itemsFrom py.strOf rows 0 := by
    rw [List.map_map]
    exact List.map_congr_left fun rows _ => normalizeHistory_eq rows
  calc ((Walk.extend py.strOf ⟨[], 0, [], 0, 0⟩ path turns).resolution (registryCodec py)).items
      = (turns.map (normalizeHistory py.strOf)).reverse.flatten.zipIdx.map
          fun item => reseqItem item.1 item.2 := rfl
    _ = _ := by rw [histories, ← List.map_reverse, reseq_flatten]

variable (py db caps ws)

/-- What `resolve_chain` is for. -/
structure Recovers (responseId : String) : Prop where
  /-- No more records are read than the depth ceiling allows. -/
  reads : (chainReads (registryCodec py) db caps responseId ws).length ≤ caps.depth
  /-- A chain that ends, repeats no id and fits the ceilings is resolved, and no other. -/
  succeeds : (resolveChain (registryCodec py) db caps responseId ws).error = none
    ↔ responseId ≠ "" ∧ ∃ path, ChainPath db ws responseId path
        ∧ FitsCeilings py.strOf caps path (path.map (everyRow db))
  /-- What is recovered is every item of every turn, the root first, numbered from zero. -/
  whole : (resolveChain (registryCodec py) db caps responseId ws).error = none →
    ∀ path, ChainPath db ws responseId path →
      (resolveChain (registryCodec py) db caps responseId ws).items.map some
        = ((path.reverse.flatMap (everyRow db)).filter (replayable py.strOf)).zipIdx.map
            fun row => parseValue py.strOf row.1 row.2
  failed : (resolveChain (registryCodec py) db caps responseId ws).error ≠ none →
    (resolveChain (registryCodec py) db caps responseId ws).items = []

/-- The chain ends and what lies within the read limits fits the ceilings, but an item lies
beyond them. -/
def CutShort (responseId : String) : Prop :=
  responseId ≠ "" ∧ ∃ path, ChainPath db ws responseId path
    ∧ FitsCeilings py.strOf caps path (readRows py.strOf db caps 0 path)
    ∧ itemsIn py.strOf (readRows py.strOf db caps 0 path)
        < itemsIn py.strOf (path.map (everyRow db))

variable {py db caps ws}

theorem resolveChain_ok_iff (responseId : String) :
    (resolveChain (registryCodec py) db caps responseId ws).error = none
      ↔ responseId ≠ "" ∧ ∃ path, ChainPath db ws responseId path
          ∧ FitsCeilings py.strOf caps path (readRows py.strOf db caps 0 path) := by
  unfold resolveChain
  constructor
  · intro succeeded
    split at succeeded
    · cases succeeded
    case isFalse named =>
      obtain ⟨path, chain, _, unrepeated, deep, items, tokens⟩ :=
        path_of_walk _ _ _ (Nat.zero_le _) (Nat.zero_le _) succeeded
      exact ⟨named, path, chain, unrepeated, deep, by simpa using items, by simpa using tokens⟩
  · rintro ⟨named, path, chain, fits⟩
    rw [if_neg named, walk_of_path chain _ _ (fun _ _ => List.not_mem_nil) fits.unrepeated
      fits.depth (by simpa using fits.items) (by simpa using fits.tokens)]
    rfl

theorem resolveChain_items {responseId : String} (named : responseId ≠ "") {path : List Turn}
    (chain : ChainPath db ws responseId path)
    (fits : FitsCeilings py.strOf caps path (readRows py.strOf db caps 0 path)) :
    (resolveChain (registryCodec py) db caps responseId ws).items
      = itemsFrom py.strOf
          ((readRows py.strOf db caps 0 path).map
            (List.filter (replayable py.strOf))).reverse.flatten 0 := by
  unfold resolveChain
  rw [if_neg named, walk_of_path chain _ _ (fun _ _ => List.not_mem_nil) fits.unrepeated
    fits.depth (by simpa using fits.items) (by simpa using fits.tokens)]
  exact resolution_items path _

theorem filter_turnRows (path : List Turn) :
    ((path.map (everyRow db)).map (List.filter (replayable py.strOf))).reverse.flatten
      = (path.reverse.flatMap (everyRow db)).filter (replayable py.strOf) := by
  rw [List.filter_flatMap, List.flatMap_def, List.map_map, ← List.map_reverse]
  rfl

theorem length_turnRows (turns : List (List Json)) :
    (turns.map (List.filter (replayable py.strOf))).reverse.flatten.length
      = itemsIn py.strOf turns := by
  rw [List.length_flatten, List.map_reverse, List.sum_reverse, List.map_map, itemsIn]
  congr 1
  apply List.map_congr_left
  intro rows _
  rw [normalizeHistory_eq, length_itemsFrom]
  rfl

/-- **The resolver recovers what it is for, but for items beyond its read limits.** -/
theorem recovers_iff (py : PyText) (db : Tables) (caps : ChainCaps) (responseId ws : String) :
    Recovers py db caps ws responseId ↔ ¬ CutShort py db caps ws responseId := by
  constructor
  · rintro recovers ⟨named, path, chain, fits, fewer⟩
    have succeeded := (resolveChain_ok_iff responseId).mpr ⟨named, path, chain, fits⟩
    have lengths := congrArg List.length (recovers.whole succeeded path chain)
    rw [List.length_map, resolveChain_items named chain fits, length_itemsFrom, length_turnRows,
      List.length_map, List.length_zipIdx, ← filter_turnRows, length_turnRows] at lengths
    omega
  · intro uncut
    have all (named : responseId ≠ "") {path : List Turn}
        (chain : ChainPath db ws responseId path)
        (fits : FitsCeilings py.strOf caps path (readRows py.strOf db caps 0 path)) :
        itemsIn py.strOf (path.map (everyRow db))
          ≤ itemsIn py.strOf (readRows py.strOf db caps 0 path) :=
      Nat.le_of_not_lt fun fewer => uncut ⟨named, path, chain, fits, fewer⟩
    constructor
    case reads => exact length_chainReads_le _ _ _
    case succeeds =>
      rw [resolveChain_ok_iff]
      constructor
      · rintro ⟨named, path, chain, fits⟩
        have same := histories_eq_of_items 0 path (all named chain fits)
        have sameTokens : tokensIn py.strOf (path.map (everyRow db))
            = tokensIn py.strOf (readRows py.strOf db caps 0 path) := by
          have asFiltered (turns : List (List Json)) : tokensIn py.strOf turns
              = ((turns.map (List.filter (replayable py.strOf))).map
                  fun rows => tokensFrom py.strOf rows 0).sum := by
            rw [List.map_map, tokensIn]
            congr 1
            apply List.map_congr_left
            intro rows _
            rw [normalizeHistory_eq]
            rfl
          rw [asFiltered, asFiltered, same]
        exact ⟨named, path, chain, fits.unrepeated, fits.depth,
          (all named chain fits).trans fits.items, sameTokens.le.trans fits.tokens⟩
      · rintro ⟨named, path, chain, fits⟩
        exact ⟨named, path, chain, fits.unrepeated, fits.depth,
          (itemsIn_readRows_le _ _ _ 0 path).trans fits.items,
          (tokensIn_readRows_le 0 path).trans fits.tokens⟩
    case whole =>
      intro succeeded path chain
      obtain ⟨named, other, chain', fits⟩ := (resolveChain_ok_iff responseId).mp succeeded
      obtain rfl := chain'.unique chain
      rw [resolveChain_items named chain fits,
        histories_eq_of_items 0 other (all named chain fits), filter_turnRows]
      exact itemsFrom_map_some (fun row mem => List.of_mem_filter mem) 0
    case failed =>
      unfold resolveChain
      split
      · intro _
        rfl
      · exact walk_failed _ _ _

end Resolver

/-! ### Reasoning before a message -/

/-- `str`, `repr` and `int` on the values below. -/
def plainText : PyText where
  strOf := dumps
  reprOf := dumps
  intOf value :=
    match value with
    | .int n => some n
    | _ => none
  sanitize := id

/-- A first turn without output. -/
def firstTurn : ResponseRecord where
  workspaceId := "1"
  status := .completed
  model := "m"
  createdAt := 10
  updatedAt := 10
  completedAt := 10
  previousResponseId := ""
  background := false
  request := .obj []
  output := .arr []
  usage := .obj []
  error := ""
  incompleteDetails := .obj []
  terminalReason := ""
  cancelled := false

/-- A reasoning item as it is kept in the store. -/
def keptReasoning (id : String) : Json :=
  .obj [("id", .str id), ("type", .str "reasoning"), ("summary", .arr [])]

/-- The question after two items of reasoning. -/
def lateQuestion : List (ℕ × Json) :=
  [(0, keptReasoning "rs_1"), (1, keptReasoning "rs_2"),
    (2, .obj [("type", .str "message"), ("role", .str "user"), ("content", .str "Why?"),
      ("id", .str "")])]

/-- A store with that turn and no other. -/
def lateQuestionStore : Tables := fun id =>
  if id = "resp_1" then ⟨some firstTurn, lateQuestion, [], none, none⟩ else .empty

theorem turnRows_lateQuestion (limit : ℕ) (some : 0 < limit) :
    turnRows lateQuestionStore ⟨"resp_1", firstTurn⟩ limit
      = (lateQuestion.map Prod.snd).take limit := by
  have rows (limit : ℕ) : lateQuestionStore.listInputItems "resp_1" (-1) limit
      = (lateQuestion.map Prod.snd).take limit := Tables.page_of_sorted (by decide) limit
  have output : lateQuestionStore.listOutputItems "resp_1" limit = [] :=
    (Tables.page_of_sorted List.Pairwise.nil limit).trans List.take_nil
  obtain ⟨n, rfl⟩ := Nat.exists_eq_succ_of_ne_zero some.ne'
  unfold turnRows
  rw [rows, output]
  exact List.append_nil _

/-- A resolver for at most one item takes the reasoning to be the whole turn: the question is
dropped, and no guard trips. -/
theorem lateQuestion_dropped :
    ¬ Recovers plainText lateQuestionStore (.of 64 1 200000) "1" "resp_1" := by
  intro recovers
  have chain : ChainPath lateQuestionStore "1" "resp_1" [⟨"resp_1", firstTurn⟩] :=
    .turn (by decide) (by decide) (by decide) .root
  have within : readRows plainText.strOf lateQuestionStore (.of 64 1 200000) 0
      [⟨"resp_1", firstTurn⟩] = [[keptReasoning "rs_1", keptReasoning "rs_2"]] := by
    rw [readRows, readRows, turnRows_lateQuestion _ (by decide)]
    rfl
  have fits : FitsCeilings plainText.strOf (.of 64 1 200000) [⟨"resp_1", firstTurn⟩]
      (readRows plainText.strOf lateQuestionStore (.of 64 1 200000) 0
        [⟨"resp_1", firstTurn⟩]) := by
    rw [within]
    exact ⟨⟨by decide, by decide⟩, by decide, by decide, by decide⟩
  have succeeded := (resolveChain_ok_iff "resp_1").mpr ⟨by decide, _, chain, fits⟩
  have lengths := congrArg List.length (recovers.whole succeeded _ chain)
  have all : everyRow lateQuestionStore ⟨"resp_1", firstTurn⟩ = lateQuestion.map Prod.snd :=
    turnRows_lateQuestion _ (by decide)
  rw [List.length_map, resolveChain_items (by decide) chain fits, length_itemsFrom,
    length_turnRows, within, List.length_map, List.length_zipIdx, List.reverse_singleton,
    List.flatMap_singleton, all] at lengths
  exact absurd lengths (by decide)

end Zhongzhuan.Responses
