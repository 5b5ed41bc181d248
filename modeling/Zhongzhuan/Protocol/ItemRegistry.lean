import Zhongzhuan.Kit.Fields
import Zhongzhuan.Kit.Text

/-!
# The item registry

The model of `proxy/protocol/item_registry.py`: how an item of a request is read
(`parseItem`), written back (`serializeItem`) and stripped of its reasoning text
(`redactItem`).

`str` on a value that is not a string is the parameter `strOf`.
-/

namespace Zhongzhuan.Protocol

open Kit

/-- `NormalizedItem`. -/
structure NormalizedItem where
  id : String
  seq : ℕ
  itemType : String
  role : String
  payload : Fields
  redacted : Bool
deriving DecidableEq, Repr

/-- `ItemHandler`. -/
structure ItemHandler where
  itemType : String
  redactPayload : Bool := false
  /-- `role_extractor` is `_role_of`. -/
  roleExtractor : Bool := false
deriving DecidableEq, Repr

/-- `ITEM_REGISTRY`. -/
def itemRegistry : List ItemHandler :=
  [{ itemType := "message", roleExtractor := true },
    { itemType := "reasoning", redactPayload := true },
    { itemType := "function_call" }, { itemType := "function_call_output" },
    { itemType := "custom_tool_call" }, { itemType := "custom_tool_call_output" },
    { itemType := "file_search_call" }, { itemType := "web_search_call" },
    { itemType := "computer_call" }, { itemType := "computer_call_output" },
    { itemType := "code_interpreter_call" }, { itemType := "image_generation_call" },
    { itemType := "local_shell_call" }, { itemType := "local_shell_call_output" },
    { itemType := "mcp_call" }, { itemType := "mcp_list_tools" },
    { itemType := "mcp_approval_request" }, { itemType := "mcp_approval_response" }]

/-- `get_handler`. -/
def getHandler (itemType : String) : Option ItemHandler :=
  itemRegistry.find? fun handler => handler.itemType = itemType

/-- `is_known_item_type`. -/
def isKnownItemType (itemType : String) : Bool := (getHandler itemType).isSome

section Parsing

variable (strOf : Json → String)

/-- `str(value or "")`. -/
def strOr : Option Json → String
  | none => ""
  | some (.str text) => text
  | some value => if value.truthy then strOf value else ""

/-- `str(raw.get("type") or "")`. -/
def typeOf (raw : Fields) : String := strOr strOf (raw.get "type")

/-- `item_role`. -/
def itemRole (item : Fields) : String :=
  match getHandler (typeOf strOf item) with
  | some handler => if handler.roleExtractor then strOr strOf (item.get "role") else ""
  | none => ""

/-- The summary of a reasoning item without its texts. -/
def bareSummary (summary : List Json) : List Json :=
  summary.filterMap fun part =>
    match part with
    | .obj fields => some (.obj (Fields.without fields "text"))
    | _ => none

/-- `redact_item`. -/
def redactItem (raw : Fields) : Fields :=
  if typeOf strOf raw = "reasoning" then
    let out :=
      match Fields.get raw "summary" with
      | some (.arr summary) => Fields.put "summary" (.arr (bareSummary summary)) raw
      | _ => raw
    ((out.without "content").without "text").without "encrypted_content"
  else raw

/-- `if role: payload["role"] = role`. -/
def withRole (role : String) (payload : Fields) : Fields :=
  if role = "" then payload else Fields.put "role" (.str role) payload

/-- `parse_item` on an object. -/
def parseItem (raw : Fields) (seq : ℕ) : Option NormalizedItem :=
  let itemType := typeOf strOf raw
  match getHandler itemType with
  | none => none
  | some handler =>
    let itemId := strOr strOf (raw.get "id")
    let role := itemRole strOf raw
    let payload := withRole role
      (Fields.put "seq" (.int seq)
        (Fields.put "id" (.str itemId) (Fields.put "type" (.str itemType) raw)))
    some
      { id := itemId
        seq := seq
        itemType := itemType
        role := role
        payload := if handler.redactPayload then redactItem strOf payload else payload
        redacted := handler.redactPayload }

/-- `parse_item`. -/
def parseValue (raw : Json) (seq : ℕ) : Option NormalizedItem :=
  match raw with
  | .obj fields => parseItem strOf fields seq
  | _ => none

/-- `serialize_item`. -/
def serializeItem (item : NormalizedItem) : Fields := item.payload.without "seq"

/-- The item that a request with a text as its input is read as. -/
def textItem (text : String) (seq : ℕ) : NormalizedItem where
  id := ""
  seq := seq
  itemType := "message"
  role := "user"
  payload :=
    [("type", .str "message"), ("role", .str "user"),
      ("content", .arr [.obj [("type", .str "input_text"),
        ("text", .str (if stripText text = "" then "..." else stripText text))]])]
  redacted := false

/-- `parse_input_items`. -/
def parseInputItems (input : Json) (startSeq : ℕ) : List NormalizedItem :=
  match input with
  | .str text => [textItem text startSeq]
  | .arr items => items.zipIdx.filterMap fun raw => parseValue strOf raw.1 (startSeq + raw.2)
  | _ => []

/-! ## What an item is read as -/

/-- An object of a registered type other than reasoning. -/
def replayable (raw : Json) : Bool :=
  match raw with
  | .obj fields => isKnownItemType (typeOf strOf fields) && typeOf strOf fields ≠ "reasoning"
  | _ => false

/-- The fields of an object. -/
def objFields : Json → Fields
  | .obj fields => fields
  | _ => []

/-- The object that an item of a registered type goes out as. -/
def wireFields (raw : Fields) : Fields :=
  withRole (itemRole strOf raw)
    (Fields.put "id" (.str (strOr strOf (raw.get "id")))
      (Fields.put "type" (.str (typeOf strOf raw)) (raw.without "seq")))

variable {strOf}

theorem getHandler_type {itemType : String} {handler : ItemHandler}
    (found : getHandler itemType = some handler) : handler.itemType = itemType :=
  of_decide_eq_true (List.find?_some (p := fun h : ItemHandler => h.itemType = itemType) found)

theorem redactPayload_iff {itemType : String} {handler : ItemHandler}
    (found : getHandler itemType = some handler) :
    handler.redactPayload = true ↔ itemType = "reasoning" := by
  rw [← getHandler_type found]
  exact (by decide : ∀ handler ∈ itemRegistry,
    handler.redactPayload = true ↔ handler.itemType = "reasoning") handler
      (List.mem_of_find?_eq_some found)

theorem withRole_put_seq (role : String) (seq : ℕ) (payload : Fields) (number : ℕ) :
    Fields.put "seq" (.int number) (withRole role (Fields.put "seq" (.int seq) payload))
      = withRole role (Fields.put "seq" (.int number) payload) := by
  unfold withRole
  split
  · exact Fields.put_put _ _ _ _
  · rw [Fields.put_comm (by decide) _ _ (by rw [Fields.get_put_self]; rfl), Fields.put_put]

theorem without_seq_withRole (role : String) (payload : Fields) :
    (withRole role payload).without "seq" = withRole role (payload.without "seq") := by
  unfold withRole
  split
  · rfl
  · exact Fields.without_put_of_ne (by decide) _ _

/-- The item that a replayable object is read as. -/
def itemOf (strOf : Json → String) (raw : Json) (seq : ℕ) : NormalizedItem :=
  let fields := objFields raw
  { id := strOr strOf (fields.get "id")
    seq := seq
    itemType := typeOf strOf fields
    role := itemRole strOf fields
    payload := withRole (itemRole strOf fields)
      (Fields.put "seq" (.int seq)
        (Fields.put "id" (.str (strOr strOf (fields.get "id")))
          (Fields.put "type" (.str (typeOf strOf fields)) fields)))
    redacted := false }

theorem parseValue_of_replayable {raw : Json} (visible : replayable strOf raw = true)
    (seq : ℕ) : parseValue strOf raw seq = some (itemOf strOf raw seq) := by
  cases raw with
  | obj fields =>
      obtain ⟨known, plain⟩ := Bool.and_eq_true_iff.mp visible
      obtain ⟨handler, found⟩ := Option.isSome_iff_exists.mp known
      have kept : handler.redactPayload = false := by
        apply Bool.eq_false_iff.mpr
        intro redacts
        exact of_decide_eq_true plain ((redactPayload_iff found).mp redacts)
      rw [parseValue, parseItem, found]
      simp [kept, itemOf, objFields]
  | _ => simp [replayable] at visible

theorem parseValue_of_not_replayable {raw : Json} (hidden : replayable strOf raw = false)
    {seq : ℕ} {item : NormalizedItem} (parsed : parseValue strOf raw seq = some item) :
    item.itemType = "reasoning" := by
  cases raw with
  | obj fields =>
      unfold parseValue parseItem at parsed
      dsimp only at parsed
      split at parsed
      case h_1 => cases parsed
      case h_2 handler found =>
        cases parsed
        simpa [replayable, isKnownItemType, found] using hidden
  | _ => cases parsed

theorem put_seq_itemOf (raw : Json) (seq number : ℕ) :
    Fields.put "seq" (.int number) (itemOf strOf raw seq).payload
      = (itemOf strOf raw number).payload :=
  withRole_put_seq _ _ _ _

theorem serializeItem_itemOf (raw : Json) (seq : ℕ) :
    serializeItem (itemOf strOf raw seq) = wireFields strOf (objFields raw) := by
  unfold serializeItem itemOf wireFields
  dsimp only
  rw [without_seq_withRole, Fields.without_put_self,
    Fields.without_put_of_ne (by decide), Fields.without_put_of_ne (by decide)]

end Parsing

end Zhongzhuan.Protocol
