import Zhongzhuan.Kit.Collected
import Zhongzhuan.Protocol.FlatTools

/-!
# Calls and their outputs in a converted request

A chat request wants every tool message behind the assistant message that has its call.
`convert_responses_request_to_chatcompletions` collects neighbouring calls into one assistant
message and makes each output a tool message of its own.

* `partOf` is what an item is made into, `partsOf` what a message holds.
* `convertItems_eq` is the loop over the items as `collect` of the parts.
* `convertRequest_paired`: the messages hold the parts of the items in their order, none without
  a call, and a tool message stands behind its call.

A `function_call` without a name has no part.  Its output has one all the same.
-/

namespace Zhongzhuan.Protocol

open Kit

/-! ## What items are made into and messages hold -/

/-- A field of a value, if it is an object. -/
def fieldIn (key : String) : Json → Option Json
  | .obj fields => Fields.get fields key
  | _ => none

/-- The kind of an item. -/
def kindOf : Json → Option Json
  | .obj item => itemTypeOf item
  | _ => none

/-- The `call_id` of an item, as the message has it. -/
def callIdOf (item : Json) : Json := (fieldIn "call_id" item).getD .null

def IsCall (item : Json) : Prop := kindOf item = some (.str "function_call")

def IsOutput (item : Json) : Prop := kindOf item = some (.str "function_call_output")

/-- A call with a name. -/
def IsNamedCall (item : Json) : Prop := IsCall item ∧ properName (fieldIn "name" item) ≠ none

/-- What an item is made into: an entry of `tool_calls`, or a message of its own. -/
def partOf (env : RequestEnv) : Json → Option (Json ⊕ Json)
  | .obj item =>
    if itemTypeOf item = some (.str "message") then some (.inr (convertMessage item))
    else if itemTypeOf item = some (.str "function_call") then
      (properName (Fields.get item "name")).map fun name => .inl (convertCall env item name)
    else if itemTypeOf item = some (.str "function_call_output") then
      some (.inr (convertOutput item))
    else none
  | _ => none

/-- The calls of a message that has a field for them. -/
def toolCallsOf (msg : Json) : Option (List Json) :=
  match fieldIn "tool_calls" msg with
  | some (.arr calls) => some calls
  | _ => none

/-- What a message holds: its calls, or itself. -/
def partsOf (msg : Json) : List (Json ⊕ Json) :=
  match toolCallsOf msg with
  | some calls => calls.map .inl
  | none => [.inr msg]

/-- The message for a group of parts. -/
def messageOf : List Json ⊕ Json → Json
  | .inl calls => .obj [("role", .str "assistant"), ("content", .null), ("tool_calls", .arr calls)]
  | .inr msg => msg

/-! ## The loop -/

section Loop

variable (env : RequestEnv)

/-- One round of the loop, by the part of the item. -/
def Conversation.push (conv : Conversation) : Option (Json ⊕ Json) → Conversation
  | none => conv
  | some (.inl call) => { conv with current := some (conv.current.getD [] ++ [call]) }
  | some (.inr msg) => { messages := conv.flush ++ [msg], current := none }

theorem convertItem_eq (conv : Conversation) (item : Fields) :
    convertItem env conv (.obj item) = some (conv.push (partOf env (.obj item))) := by
  simp only [convertItem, partOf]
  split
  · rfl
  · split
    · cases properName (Fields.get item "name") <;> rfl
    · split <;> rfl

theorem flush_eq (conv : Conversation) :
    conv.flush = conv.messages ++ (conv.current.toList.map .inl).map messageOf := by
  rw [Conversation.flush, List.map_map]
  rfl

theorem convertItems_eq {items : List Json}
    (objects : ∀ item ∈ items, ∃ fields, item = .obj fields) (conv : Conversation) :
    ∃ conv', convertItems env conv items = some conv'
      ∧ conv'.flush
        = conv.messages ++ (collect conv.current (items.filterMap (partOf env))).map messageOf := by
  induction items generalizing conv with
  | nil => exact ⟨conv, rfl, flush_eq conv⟩
  | cons item items ih =>
    obtain ⟨fields, rfl⟩ := objects item List.mem_cons_self
    have others : ∀ other ∈ items, ∃ fields, other = .obj fields := fun other mem =>
      objects other (List.mem_cons_of_mem _ mem)
    obtain ⟨conv', loop, flushed⟩ := ih others (conv.push (partOf env (.obj fields)))
    refine ⟨conv', ?_, ?_⟩
    · rw [convertItems, convertItem_eq, Option.bind_some, loop]
    · rw [flushed]
      cases part : partOf env (.obj fields) with
      | none => rw [List.filterMap_cons_none part, Conversation.push]
      | some part' =>
        rw [List.filterMap_cons_some part]
        cases part' with
        | inl call => rw [Conversation.push, collect]
        | inr msg =>
          -- a message of its own closes the group that is open
          rw [Conversation.push, collect, flush_eq, List.map_append, List.append_assoc,
            List.append_assoc]
          rfl

end Loop

/-! ## Every request -/

/-- Each output comes after an item of this kind with its `call_id`. -/
def OutputsFollow (p : Json → Prop) (items : List Json) : Prop :=
  ∀ before item after, items = before ++ item :: after → IsOutput item →
    ∃ call ∈ before, p call ∧ callIdOf call = callIdOf item

/-- Each message that answers a call comes after one that has it. -/
def CallsAnswered (msgs : List Json) : Prop :=
  ∀ before tool after id, msgs = before ++ tool :: after → fieldIn "tool_call_id" tool = some id →
    ∃ msg ∈ before, fieldIn "role" msg = some (.str "assistant")
      ∧ ∃ calls, toolCallsOf msg = some calls ∧ ∃ call ∈ calls, fieldIn "id" call = some id

/-- The messages have what the items say, and are paired. -/
structure PairedMessages (env : RequestEnv) (items msgs : List Json) : Prop where
  parts : msgs.flatMap partsOf = items.filterMap (partOf env)
  calls : ∀ msg ∈ msgs, toolCallsOf msg ≠ some []
  answered : OutputsFollow IsNamedCall items → CallsAnswered msgs

section Requests

variable {env : RequestEnv} {item msg tool id : Json} {items msgs : List Json}

theorem partOf_inr (part : partOf env item = some (.inr msg)) : toolCallsOf msg = none := by
  cases item with
  | obj fields =>
    simp only [partOf] at part
    split at part
    · cases part
      rfl
    · split at part
      · cases name : properName (Fields.get fields "name") <;> rw [name] at part <;> cases part
      · split at part
        · cases part
          rfl
        · cases part
  | null | bool | int | float | str | arr => cases part

theorem partOf_tool (part : partOf env item = some (.inr tool))
    (answers : fieldIn "tool_call_id" tool = some id) : IsOutput item ∧ callIdOf item = id := by
  cases item with
  | obj fields =>
    simp only [partOf] at part
    split at part
    · cases part
      cases answers
    · split at part
      · cases name : properName (Fields.get fields "name") <;> rw [name] at part <;> cases part
      · split at part
        · next output =>
          cases part
          cases answers
          exact ⟨output, rfl⟩
        · cases part
  | null | bool | int | float | str | arr => cases part

theorem partOf_named (env : RequestEnv) (named : IsNamedCall item) :
    ∃ call, partOf env item = some (.inl call) ∧ fieldIn "id" call = some (callIdOf item) := by
  obtain ⟨isCall, name⟩ := named
  cases item with
  | obj fields =>
    have type : itemTypeOf fields = some (.str "function_call") := isCall
    obtain ⟨callName, here⟩ := Option.ne_none_iff_exists'.mp name
    refine ⟨convertCall env fields callName, ?_, rfl⟩
    have proper : properName (Fields.get fields "name") = some callName := here
    rw [partOf, type, if_neg (by simp), if_pos rfl, proper, Option.map_some]
  | null | bool | int | float | str | arr => cases isCall

theorem mem_of_mem_collect {xs : List (Json ⊕ Json)} (mem : .inr msg ∈ collect none xs) :
    .inr msg ∈ xs := by
  have there : (.inr msg : Json ⊕ Json) ∈ (collect none xs).flatMap spread :=
    List.mem_flatMap.mpr ⟨.inr msg, mem, List.mem_singleton_self _⟩
  rw [spread_collect] at there
  exact there

theorem partsOf_messageOf {g : List Json ⊕ Json}
    (plain : ∀ msg, g = .inr msg → toolCallsOf msg = none) : partsOf (messageOf g) = spread g := by
  cases g with
  | inl calls => rfl
  | inr msg => rw [messageOf, partsOf, plain msg rfl, spread]

theorem answered_of_mem {groups : List (List Json ⊕ Json)} {call : Json}
    (mem : .inl call ∈ groups.flatMap spread) (called : fieldIn "id" call = some id) :
    ∃ msg ∈ groups.map messageOf, fieldIn "role" msg = some (.str "assistant")
      ∧ ∃ calls, toolCallsOf msg = some calls ∧ ∃ call ∈ calls, fieldIn "id" call = some id := by
  obtain ⟨g, group, inGroup⟩ := List.mem_flatMap.mp mem
  obtain ⟨calls, rfl, inCalls⟩ := mem_spread_inl.mp inGroup
  exact ⟨messageOf (.inl calls), List.mem_map_of_mem group, rfl, calls, rfl, call, inCalls, called⟩

theorem paired_collect :
    PairedMessages env items ((collect none (items.filterMap (partOf env))).map messageOf) := by
  have plain : ∀ g ∈ collect none (items.filterMap (partOf env)), ∀ msg, g = .inr msg →
      toolCallsOf msg = none := by
    rintro g mem msg rfl
    obtain ⟨item, -, part⟩ := List.mem_filterMap.mp (mem_of_mem_collect mem)
    exact partOf_inr part
  refine ⟨?_, ?_, ?_⟩
  · rw [List.flatMap_map]
    refine Eq.trans ?_ (spread_collect none _)
    exact List.flatMap_congr fun g mem => partsOf_messageOf (plain g mem)
  · intro msg mem empty
    obtain ⟨g, group, rfl⟩ := List.mem_map.mp mem
    cases g with
    | inl calls =>
      have none_left : calls = [] := Option.some.inj empty
      subst none_left
      exact collect_ne_nil (Option.some_ne_none _).symm group
    | inr msg =>
      have none_there : toolCallsOf msg = some [] := empty
      rw [plain _ group msg rfl] at none_there
      cases none_there
  · intro follows before tool after id split answers
    obtain ⟨before', rest, groups, rfl, rest_eq⟩ := List.map_eq_append_iff.mp split
    obtain ⟨g, after', rfl, made, -⟩ := List.map_eq_cons_iff.mp rest_eq
    have alone : g = .inr tool := by
      cases g with
      | inl calls =>
        rw [← made] at answers
        cases answers
      | inr msg => rw [← made, messageOf]
    rw [alone] at groups
    obtain ⟨front, back, rfl, held, back_eq⟩ :=
      List.filterMap_eq_append_iff.mp (collect_before groups)
    obtain ⟨skipped, item, last, rfl, nothing, part, -⟩ := List.filterMap_eq_cons_iff.mp back_eq
    obtain ⟨isOutput, called⟩ := partOf_tool part answers
    obtain ⟨call, mem, named, same⟩ := follows (front ++ skipped) item last
      (by rw [List.append_assoc]) isOutput
    obtain ⟨entry, here, asks⟩ := partOf_named env named
    rcases List.mem_append.mp mem with inFront | inSkipped
    · refine answered_of_mem ?_ (asks.trans (congrArg some (same.trans called)))
      rw [← held]
      exact List.mem_filterMap.mpr ⟨call, inFront, here⟩
    · rw [nothing call inSkipped] at here
      cases here

end Requests

/-- The message for the instructions. -/
def systemMessages (body : Fields) : List Json :=
  (trueField body "instructions").toList.map fun instructions =>
    .obj [("role", .str "system"), ("content", instructions)]

/-- **The messages of a chat request have the texts, the named calls and the outputs of the input,
each once and in their order; no list of calls is empty, and where each output comes after its
named call, each tool message comes after an assistant message with the call.** -/
theorem convertRequest_paired (env : RequestEnv) {body : Fields} {items : List Json}
    (given : trueField body "input" = some (.arr items))
    (objects : ∀ item ∈ items, ∃ fields, item = .obj fields) :
    ∃ msgs, PairedMessages env items msgs
      ∧ ∀ result, convertRequest env body = some result →
        result.get "messages" = some (.arr (systemMessages body ++ msgs)) := by
  refine ⟨_, paired_collect, fun result converted => ?_⟩
  have normal : normalizeResponsesInput (.arr items) = some items := by
    cases items with
    | nil =>
      obtain ⟨-, isTrue⟩ := Option.filter_eq_some_iff.mp given
      cases isTrue
    | cons item items => rfl
  obtain ⟨conv, loop, flushed⟩ := convertItems_eq env objects { messages := systemMessages body }
  unfold convertRequest at converted
  rw [given] at converted
  dsimp only at converted
  rw [normal] at converted
  dsimp only at converted
  obtain ⟨conv', loop', converted⟩ := Option.bind_eq_some_iff.mp converted
  have same : conv' = conv := Option.some.inj (loop'.symm.trans loop)
  subst same
  obtain ⟨withTools, tools, converted⟩ := Option.bind_eq_some_iff.mp converted
  obtain ⟨choice, -, rfl⟩ := Option.map_eq_some_iff.mp converted
  have kept : withTools.get "messages" = some (.arr conv'.flush) := by
    split at tools
    · obtain ⟨out, -, rfl⟩ := Option.map_eq_some_iff.mp tools
      rw [Fields.get_put_of_ne (by decide)]
      exact Fields.get_put_self _ _ _
    · cases tools
      exact Fields.get_put_self _ _ _
  rw [get_mapFields (by decide), ← flushed]
  cases choice with
  | none => exact kept
  | some choice => exact (Fields.get_put_of_ne (by decide) _ _).trans kept

/-- A call with this name, and what came of it. -/
def givenCall (name : Json) : Json :=
  .obj [("type", .str "function_call"), ("call_id", .str "call_1"), ("name", name),
    ("arguments", .str "")]

def givenOutput : Json :=
  .obj [("type", .str "function_call_output"), ("call_id", .str "call_1"), ("output", .str "ok")]

/-- A request with a call and its output. -/
def callRequest (name : Json) : Fields := [("input", .arr [givenCall name, givenOutput])]

theorem callRequest_paired :
    ∃ msgs, PairedMessages plainRequestEnv [givenCall (.str "run"), givenOutput] msgs
      ∧ ∀ result, convertRequest plainRequestEnv (callRequest (.str "run")) = some result →
        result.get "messages"
          = some (.arr (systemMessages (callRequest (.str "run")) ++ msgs)) := by
  refine convertRequest_paired plainRequestEnv rfl ?_
  intro item mem
  simp only [List.mem_cons, List.not_mem_nil, or_false] at mem
  rcases mem with rfl | rfl
  · exact ⟨_, rfl⟩
  · exact ⟨_, rfl⟩

theorem follows_given {p : Json → Prop} {call : Json} (isCall : p call)
    (other : ¬IsOutput call) (same : callIdOf call = callIdOf givenOutput) :
    OutputsFollow p [call, givenOutput] := by
  intro before item after split output
  cases before with
  | nil =>
    rw [List.nil_append, List.cons.injEq] at split
    exact absurd (split.1 ▸ output) other
  | cons first rest =>
    rw [List.cons_append, List.cons.injEq] at split
    obtain ⟨rfl, split⟩ := split
    refine ⟨call, List.mem_cons_self, isCall, ?_⟩
    have last : item = givenOutput := by
      have mem : item ∈ [givenOutput] := split ▸ List.mem_append_right _ List.mem_cons_self
      exact List.mem_singleton.mp mem
    rw [last, same]

/-- A call without a name is in no message, and its output comes after no call. -/
theorem namelessCall_lost : ¬∀ (env : RequestEnv) (body result : Fields) (items msgs : List Json),
    trueField body "input" = some (.arr items) → OutputsFollow IsCall items →
    convertRequest env body = some result → result.get "messages" = some (.arr msgs) →
    CallsAnswered msgs ∧ (∀ msg ∈ msgs, toolCallsOf msg ≠ some [])
      ∧ ∀ item ∈ items, IsCall item →
        ∃ msg ∈ msgs, ∃ calls, toolCallsOf msg = some calls
          ∧ ∃ call ∈ calls, fieldIn "id" call = some (callIdOf item) := by
  intro always
  have follows : OutputsFollow IsCall [givenCall (.str " "), givenOutput] :=
    follows_given (show IsCall (givenCall (.str " ")) from rfl) (by unfold IsOutput; decide) rfl
  obtain ⟨-, -, kept⟩ := always plainRequestEnv (callRequest (.str " ")) _ _
    [.obj [("role", .str "tool"), ("tool_call_id", .str "call_1"), ("content", .str "ok")]]
    rfl follows rfl rfl
  obtain ⟨msg, mem, calls, here, -⟩ := kept (givenCall (.str " ")) List.mem_cons_self rfl
  rw [List.mem_singleton.mp mem] at here
  cases here

end Zhongzhuan.Protocol
