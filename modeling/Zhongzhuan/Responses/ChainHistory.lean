import Zhongzhuan.Protocol.ItemRegistry
import Zhongzhuan.Responses.ChainResolver

/-!
# What a recovered turn contributes

The functions of `responses_v3/chain.py` on items: `normalize_history`, `_reseq`,
`_estimate_tokens` and `build_upstream_input`.  With those of the item registry they make a
codec for `ChainResolver`, `registryCodec`.

A row is kept when it is `replayable`; the items of a history are the kept rows, numbered
(`normalizeHistory_eq`).  Fewer rows make fewer items and fewer tokens
(`historyTokens_sublist`): a smaller number is written with no more digits.
-/

namespace Zhongzhuan.Responses

open Kit Store Protocol

/-- `str`, `repr` and `int` on values, and `sanitize_message`. -/
structure PyText where
  /-- `str(value)` of a value that is not a string. -/
  strOf : Json → String
  /-- `repr(value)`. -/
  reprOf : Json → String
  /-- `int(value)`; `none` is a `TypeError` or a `ValueError`. -/
  intOf : Json → Option ℤ
  /-- `sanitize_message`. -/
  sanitize : String → String

section History

variable (strOf : Json → String)

/-- `normalize_history`. -/
def normalizeHistory (rawItems : List Json) : List NormalizedItem :=
  rawItems.foldl
    (fun out entry =>
      match parseValue strOf entry out.length with
      | some item => if item.itemType = "reasoning" then out else out ++ [item]
      | none => out)
    []

/-- `_estimate_tokens`. -/
def estimateTokens (item : NormalizedItem) : ℕ :=
  max 1 ((dumps (.obj item.payload)).length / 4)

/-- `_reseq`. -/
def reseqItem (item : NormalizedItem) (seq : ℕ) : NormalizedItem :=
  { item with
    seq := seq
    payload := Fields.put "seq" (.int seq) item.payload }

/-- `build_upstream_input`. -/
def buildUpstreamInput (items : List NormalizedItem) (currentInput : Json) : List Json :=
  let recovered := (items.filter fun item => item.itemType ≠ "reasoning").map fun item =>
    Json.obj (serializeItem item)
  let current := (parseInputItems strOf currentInput recovered.length).filter fun item =>
    item.itemType ≠ "reasoning"
  recovered ++ current.map fun item => Json.obj (serializeItem item)

end History

/-- The functions on items that `ChainResolver` and the endpoints call. -/
def registryCodec (py : PyText) : ItemCodec NormalizedItem where
  parse value := (parseInputItems py.strOf value 0).map fun item => .obj (serializeItem item)
  history := normalizeHistory py.strOf
  tokens := estimateTokens
  reseq := reseqItem
  text value :=
    match value with
    | .str text => text
    | value => py.strOf value
  repr := py.reprOf
  int := py.intOf
  sanitize := py.sanitize

section Items

variable {strOf : Json → String}

/-- The items of some rows, numbered from `start`. -/
def itemsFrom (strOf : Json → String) (rows : List Json) (start : ℕ) : List NormalizedItem :=
  (rows.zipIdx start).map fun row => itemOf strOf row.1 row.2

@[simp] theorem length_itemsFrom (rows : List Json) (start : ℕ) :
    (itemsFrom strOf rows start).length = rows.length := by
  simp [itemsFrom]

@[simp] theorem itemsFrom_nil (start : ℕ) : itemsFrom strOf [] start = [] := rfl

@[simp] theorem itemsFrom_cons (row : Json) (rows : List Json) (start : ℕ) :
    itemsFrom strOf (row :: rows) start
      = itemOf strOf row start :: itemsFrom strOf rows (start + 1) := rfl

theorem itemsFrom_append (rows more : List Json) (start : ℕ) :
    itemsFrom strOf (rows ++ more) start
      = itemsFrom strOf rows start ++ itemsFrom strOf more (start + rows.length) := by
  simp [itemsFrom, List.zipIdx_append, Nat.add_comm]

theorem normalizeHistory_eq (rows : List Json) :
    normalizeHistory strOf rows = itemsFrom strOf (rows.filter (replayable strOf)) 0 := by
  have grows : ∀ (rows : List Json) (out : List NormalizedItem),
      rows.foldl (fun out entry =>
          match parseValue strOf entry out.length with
          | some item => if item.itemType = "reasoning" then out else out ++ [item]
          | none => out) out
        = out ++ itemsFrom strOf (rows.filter (replayable strOf)) out.length := by
    intro rows
    induction rows with
    | nil => simp
    | cons row rows ih =>
        intro out
        rw [List.foldl_cons]
        cases visible : replayable strOf row with
        | true =>
            have plain : (itemOf strOf row out.length).itemType ≠ "reasoning" := by
              cases row with
              | obj fields => exact of_decide_eq_true (Bool.and_eq_true_iff.mp visible).2
              | _ => simp [replayable] at visible
            rw [parseValue_of_replayable visible, List.filter_cons_of_pos visible]
            dsimp only
            rw [if_neg plain, ih, List.append_assoc, itemsFrom_cons, List.length_append]
            rfl
        | false =>
            rw [List.filter_cons_of_neg (by simp [visible])]
            cases parsed : parseValue strOf row out.length with
            | none => exact ih out
            | some item =>
                dsimp only
                rw [if_pos (parseValue_of_not_replayable visible parsed), ih]
  exact grows rows []

theorem reseqItem_itemOf (row : Json) (seq number : ℕ) :
    reseqItem (itemOf strOf row seq) number = itemOf strOf row number := by
  unfold reseqItem
  rw [put_seq_itemOf]
  rfl

theorem reseq_itemsFrom (rows : List Json) (start number : ℕ) :
    ((itemsFrom strOf rows start).zipIdx number).map (fun item => reseqItem item.1 item.2)
      = itemsFrom strOf rows number := by
  induction rows generalizing start number with
  | nil => rfl
  | cons row rows ih =>
      rw [itemsFrom_cons, itemsFrom_cons, List.zipIdx_cons, List.map_cons, ih,
        reseqItem_itemOf]

/-- The estimate for the items of some rows. -/
def tokensFrom (strOf : Json → String) (rows : List Json) (start : ℕ) : ℕ :=
  ((itemsFrom strOf rows start).map estimateTokens).sum

theorem narrower_withRole {role : String} {fields wide : Fields}
    (narrower : Fields.Narrower fields wide) :
    Fields.Narrower (withRole role fields) (withRole role wide) := by
  unfold withRole
  split
  · exact narrower
  · exact narrower.put le_rfl

theorem estimateTokens_mono (strOf : Json → String) (row : Json) {seq later : ℕ}
    (le : seq ≤ later) :
    estimateTokens (itemOf strOf row seq) ≤ estimateTokens (itemOf strOf row later) := by
  have narrower :
      Fields.Narrower (itemOf strOf row seq).payload (itemOf strOf row later).payload :=
    narrower_withRole ((Fields.Narrower.refl _).put (length_dumps_nat_mono le))
  exact max_le_max le_rfl (Nat.div_le_div_right narrower.dumps)

theorem tokensFrom_sublist {rows more : List Json} (sub : rows.Sublist more) {start later : ℕ}
    (le : start ≤ later) : tokensFrom strOf rows start ≤ tokensFrom strOf more later := by
  induction sub generalizing start later with
  | slnil => exact le_rfl
  | @cons rows more row _ ih =>
      have rest := ih (le.trans (Nat.le_add_right later 1))
      simp only [tokensFrom, itemsFrom_cons, List.map_cons, List.sum_cons] at rest ⊢
      omega
  | @cons_cons rows more row _ ih =>
      have first := estimateTokens_mono strOf row le
      have rest := ih (Nat.add_le_add_right le 1)
      simp only [tokensFrom, itemsFrom_cons, List.map_cons, List.sum_cons] at rest ⊢
      omega

theorem historyLength_sublist (strOf : Json → String) {rows more : List Json}
    (sub : rows.Sublist more) :
    (normalizeHistory strOf rows).length ≤ (normalizeHistory strOf more).length := by
  rw [normalizeHistory_eq, normalizeHistory_eq, length_itemsFrom, length_itemsFrom]
  exact (sub.filter _).length_le

theorem historyTokens_sublist (strOf : Json → String) {rows more : List Json}
    (sub : rows.Sublist more) :
    ((normalizeHistory strOf rows).map estimateTokens).sum
      ≤ ((normalizeHistory strOf more).map estimateTokens).sum := by
  rw [normalizeHistory_eq, normalizeHistory_eq]
  exact tokensFrom_sublist (sub.filter _) le_rfl

theorem history_eq_of_length {rows more : List Json} (sub : rows.Sublist more)
    (same : (normalizeHistory strOf more).length ≤ (normalizeHistory strOf rows).length) :
    rows.filter (replayable strOf) = more.filter (replayable strOf) := by
  rw [normalizeHistory_eq, normalizeHistory_eq, length_itemsFrom, length_itemsFrom] at same
  exact (sub.filter _).eq_of_length_le same

end Items

end Zhongzhuan.Responses
