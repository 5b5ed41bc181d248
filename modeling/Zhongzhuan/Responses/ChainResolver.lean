import Zhongzhuan.Kit.Text
import Zhongzhuan.Protocol.Models
import Zhongzhuan.Store.ResponseTables

/-!
# `ChainResolver`: walking `previous_response_id`

The model of `responses_v3/chain.py`: from a response back to the root of its conversation,
with the guards against cycles, depth and the size of what is recovered.

The pure functions on items (parsing, redaction, the token estimate) are the parameters
`ItemCodec`; nothing here depends on what they compute.  The loop of `resolve_chain` passes
its depth guard once for each ancestor, so the depth that is left bounds it: `walk` recurses
on that.
-/

namespace Zhongzhuan.Responses

open Kit Store Protocol

/-- Functions on items and on the texts of answers. -/
structure ItemCodec (I : Type) where
  /-- `[serialize_item(it) for it in parse_input_items(value)]`. -/
  parse : Json → List Json
  /-- `normalize_history`. -/
  history : List Json → List I
  /-- `_estimate_tokens`. -/
  tokens : I → ℕ
  /-- `_reseq`. -/
  reseq : I → ℕ → I
  /-- `str(value)`. -/
  text : Json → String
  /-- `repr(value)`. -/
  repr : Json → String
  /-- `int(value)`; `none` is a `TypeError` or a `ValueError`. -/
  int : Json → Option ℤ
  /-- `sanitize_message`. -/
  sanitize : String → String

/-- The ceilings of a resolver. -/
structure ChainCaps where
  depth : ℕ
  items : ℕ
  tokens : ℕ
deriving DecidableEq, Repr

/-- `max(1, min(default, max(1, ceiling)))`: a ceiling of the constructor only narrows. -/
def narrowed (default : ℕ) (ceiling : ℤ) : ℕ := max 1 (min default (max 1 ceiling).toNat)

/-- The ceilings that `resolve_chain` goes by when its caller gives none. -/
def ChainCaps.of (maxDepth maxItems maxTokens : ℤ) : ChainCaps where
  depth := narrowed 64 maxDepth
  items := narrowed 2000 maxItems
  tokens := narrowed 200000 maxTokens

/-- `ChainResolver(store)`. -/
def ChainCaps.default : ChainCaps := .of 64 2000 200000

/-- `ChainResolution`; an error is always `INVALID_CLIENT_REQUEST`. -/
structure ChainResolution (I : Type) where
  items : List I
  depth : ℕ
  visited : List String
  error : Option (Option TerminalReason × String)
deriving DecidableEq, Repr

/-- `_fail`. -/
def chainFail {I : Type} (depth : ℕ) (visited : List String) (reason : Option TerminalReason)
    (message : String) : ChainResolution I :=
  ⟨[], depth, visited, some (reason, message)⟩

/-- What the loop carries from one ancestor to the next.  `visited` serves as `seen` too: both
get every id at the same place. -/
structure Walk (I : Type) where
  visited : List String
  depth : ℕ
  /-- From the child to the root. -/
  buckets : List (List I)
  totalItems : ℕ
  totalTokens : ℕ
deriving DecidableEq, Repr

/-- `_request_of(record).get(key)`. -/
def requestField (record : ResponseRecord) (key : String) : Option Json :=
  match record.request with
  | .obj fields => Fields.get fields key
  | _ => none

/-- `_normalize_input`. -/
def normalizeInput : Option Json → List Json
  | some (.arr items) => items
  | some (.str text) =>
    if stripText text = "" then []
    else
      [.obj [("type", .str "message"), ("role", .str "user"),
        ("content", .arr [.obj [("type", .str "input_text"), ("text", .str text)]])]]
  | _ => []

/-- The items of an output column. -/
def listOf : Json → List Json
  | .arr items => items
  | _ => []

variable {I : Type} (codec : ItemCodec I) (db : Tables)

/-- `_visible_items`. -/
def visibleItems (responseId : String) (record : ResponseRecord) (limit : ℕ) : List I :=
  let stored := db.listInputItems responseId (-1) limit
  let inputs :=
    if stored.isEmpty then normalizeInput (requestField record "input") else stored
  let outputs :=
    if record.output.truthy then listOf record.output
    else db.listOutputItems responseId limit
  codec.history (inputs ++ outputs)

/-- The end of `resolve_chain`: root first, with new numbers. -/
def Walk.resolution (w : Walk I) : ChainResolution I where
  items := w.buckets.reverse.flatten.zipIdx.map fun item => codec.reseq item.1 item.2
  depth := w.depth
  visited := w.visited
  error := none

/-- One turn of the loop for a record that was found: the walk with its items, or an error. -/
def Walk.visit (caps : ChainCaps) (w : Walk I) (current : String) (record : ResponseRecord) :
    Walk I ⊕ ChainResolution I :=
  let visited := w.visited ++ [current]
  let bucket := visibleItems codec db current record (caps.items - w.totalItems + 1)
  let totalItems := w.totalItems + bucket.length
  let totalTokens := w.totalTokens + (bucket.map codec.tokens).sum
  if caps.items < totalItems then
    .inr (chainFail (w.depth + 1) visited (some .responseChainTooDeep)
      ("recovered chain exceeds the maximum of " ++ toString caps.items ++ " items"))
  else if caps.tokens < totalTokens then
    .inr (chainFail (w.depth + 1) visited (some .responseChainTooDeep)
      ("recovered chain exceeds the maximum of " ++ toString caps.tokens ++ " tokens"))
  else if record.previousResponseId ≠ "" ∧ record.previousResponseId = current then
    .inr (chainFail (w.depth + 1) visited (some .responseChainCycle)
      ("response " ++ current ++ " references itself as previous_response_id"))
  else
    .inl
      { visited := visited
        depth := w.depth + 1
        buckets := w.buckets ++ [bucket]
        totalItems := totalItems
        totalTokens := totalTokens }

/-- `_is_compact_boundary`. -/
def isCompactBoundary (record : ResponseRecord) : Bool :=
  ((requestField record "compact_boundary").getD .null).truthy

/-- The loop of `resolve_chain`, with the depth that is left. -/
def walk (caps : ChainCaps) (ws : String) : ℕ → String → Walk I → ChainResolution I
  | left, current, w =>
    if current = "" then w.resolution codec
    else if current ∈ w.visited then
      chainFail w.depth w.visited (some .responseChainCycle)
        ("response chain cycle detected at " ++ current)
    else
      match left with
      | 0 =>
        chainFail w.depth w.visited (some .responseChainTooDeep)
          ("response chain exceeds the maximum depth of " ++ toString caps.depth)
      | left + 1 =>
        match db.getResponse current ws with
        | none =>
          chainFail w.depth w.visited none ("previous_response_id " ++ current ++ " not found")
        | some record =>
          match w.visit codec db caps current record with
          | .inr failed => failed
          | .inl w =>
            if isCompactBoundary record then w.resolution codec
            else walk caps ws left record.previousResponseId w

/-- `resolve_chain`. -/
def resolveChain (caps : ChainCaps) (responseId ws : String) : ChainResolution I :=
  if responseId = "" then
    chainFail 0 [] none "previous_response_id must be a non-empty response id"
  else walk codec db caps ws caps.depth responseId ⟨[], 0, [], 0, 0⟩

/-- `chain_error_response`. -/
def chainErrorResponse (reason : Option TerminalReason) (message : String) : ℕ × Json :=
  let message :=
    match reason with
    | some reason => message ++ " (" ++ reason.value ++ ")"
    | none => message
  (400,
    .obj [("error", .obj [("type", .str "invalid_request_error"),
      ("code", .str "invalid_request"), ("message", .str (codec.sanitize message)),
      ("param", .str "previous_response_id")])])

variable {codec db} {db' : Tables}

/-- Two stores that give a workspace the same responses, with the same items. -/
def SameFor (ws : String) (db db' : Tables) : Prop :=
  (∀ id, db.getResponse id ws = db'.getResponse id ws)
    ∧ ∀ id record, db.getResponse id ws = some record →
        db.listInputItems id = db'.listInputItems id
          ∧ db.listOutputItems id = db'.listOutputItems id

theorem walk_congr {caps : ChainCaps} {ws : String} (same : SameFor ws db db') (left : ℕ)
    (current : String) (w : Walk I) :
    walk codec db caps ws left current w = walk codec db' caps ws left current w := by
  induction left generalizing current w with
  | zero => simp only [walk]
  | succ left ih =>
      rw [walk, walk, same.1 current]
      cases found : db'.getResponse current ws with
      | none => rfl
      | some record =>
          obtain ⟨inputs, outputs⟩ := same.2 current record (by rw [same.1, found])
          have items : ∀ limit, visibleItems codec db current record limit
              = visibleItems codec db' current record limit := by
            intro limit
            rw [visibleItems, visibleItems, inputs, outputs]
          have visit : w.visit codec db caps current record
              = w.visit codec db' caps current record := by
            rw [Walk.visit, Walk.visit, items]
          simp only [visit, ih]

theorem resolveChain_congr {caps : ChainCaps} {ws : String} (same : SameFor ws db db')
    (responseId : String) :
    resolveChain codec db caps responseId ws = resolveChain codec db' caps responseId ws := by
  unfold resolveChain
  split
  · rfl
  · exact walk_congr same _ _ _

end Zhongzhuan.Responses
