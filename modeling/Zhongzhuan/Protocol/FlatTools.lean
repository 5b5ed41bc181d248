import Zhongzhuan.Kit.Separated
import Zhongzhuan.Protocol.ResponsesAnswer
import Zhongzhuan.Protocol.ResponsesRequest

/-!
# Flattened tools

A tool of a namespace goes upstream as a function with a flat name, and a call of that function
comes back as a call of the tool.  `Declares` says which tools a declaration of a request stands
for, `restored` what a call of the upstream is restored to, and `Reversible` that no tool is lost
or confused on the way there and back.
-/

namespace Zhongzhuan.Protocol

open Kit

/-! ## Declarations -/

/-- A character of `^[a-zA-Z0-9_-]+$`. -/
def isNameChar (c : Char) : Bool := c.isAlphanum || c = '_' || c = '-'

/-- A name that the pattern admits. -/
structure IsName (name : String) : Prop where
  nonempty : name ≠ ""
  chars : ∀ c ∈ name.toList, isNameChar c = true

/-- Where a function tool has its name: in its field `function`, or in itself. -/
def functionOf (tool : Fields) : Fields :=
  match tool.get "function" with
  | some (.obj fn) => fn
  | _ => tool

/-- A plain function tool, in either form. -/
structure FunctionTool (tool : Fields) (name : String) : Prop where
  type : tool.get "type" = some (.str "function")
  form : tool.get "function" = none ∨ ∃ fn, tool.get "function" = some (.obj fn)
  named : Fields.get (functionOf tool) "name" = some (.str name)
  isName : IsName name
  parameters : (normalizeToolParameters (Fields.get (functionOf tool) "parameters")).isSome

/-- The subtools of a namespace, with their names. -/
def Subtools (subs : List Json) (names : List String) : Prop :=
  List.Forall₂ (fun sub name => ∃ tool, sub = .obj tool ∧ FunctionTool tool name) subs names

/-- The tools that a declaration stands for, as namespace and name; the namespace of a plain
function is empty. -/
inductive Declares : Json → List (String × String) → Prop
  | plain {tool : Fields} {name : String} (fn : FunctionTool tool name) :
    Declares (.obj tool) [("", name)]
  | nested {tool : Fields} {ns : String} {subs : List Json} {names : List String}
    (type : tool.get "type" = some (.str "namespace"))
    (named : tool.get "name" = some (.str ns)) (isName : IsName ns)
    (tools : tool.get "tools" = some (.arr subs)) (declared : Subtools subs names) :
    Declares (.obj tool) (names.map fun name => (ns, name))

/-- The name a tool has upstream. -/
def flatName (tool : String × String) : String :=
  if tool.1 = "" then tool.2 else tool.1 ++ namespaceFlatSep ++ tool.2

/-! ## What the upstream is sent -/

theorem not_isSpace_of_isNameChar {c : Char} (named : isNameChar c = true) :
    isSpace c = false := by
  have code : (48 ≤ c.toNat ∧ c.toNat ≤ 57) ∨ (65 ≤ c.toNat ∧ c.toNat ≤ 90)
      ∨ (97 ≤ c.toNat ∧ c.toNat ≤ 122) ∨ c.toNat = 95 ∨ c.toNat = 45 := by
    simp only [isNameChar, Char.isAlphanum, Char.isAlpha, Char.isUpper, Char.isLower,
      Char.isDigit, Bool.or_eq_true, Bool.and_eq_true, decide_eq_true_eq,
      UInt32.le_iff_toNat_le, ge_iff_le] at named
    change ((((65 ≤ c.toNat ∧ c.toNat ≤ 90) ∨ (97 ≤ c.toNat ∧ c.toNat ≤ 122)) ∨
      (48 ≤ c.toNat ∧ c.toNat ≤ 57)) ∨ c = '_') ∨ c = '-' at named
    rcases named with ((letter | digit) | rfl) | rfl
    · omega
    · omega
    · decide
    · decide
  simp only [isSpace, Bool.or_eq_false_iff, Bool.and_eq_false_iff, decide_eq_false_iff_not,
    beq_eq_false_iff_ne]
  omega

variable {name ns : String}

theorem IsName.strip (isName : IsName name) : stripText name = name := by
  have plain : ∀ text : List Char, (∀ c ∈ text, isNameChar c = true) →
      text.dropWhile isSpace = text := by
    intro text chars
    cases text with
    | nil => rfl
    | cons c rest =>
        have visible := not_isSpace_of_isNameChar (chars c List.mem_cons_self)
        exact List.dropWhile_cons_of_neg (by simp [visible])
  unfold stripText Kit.strip
  rw [plain _ isName.chars, plain _ fun c mem => isName.chars c (List.mem_reverse.mp mem),
    List.reverse_reverse, String.ofList_toList]

theorem IsName.properName (isName : IsName name) : properName (some (.str name)) = some name := by
  unfold Protocol.properName
  dsimp only
  rw [isName.strip, if_neg isName.nonempty]

variable (env : RequestEnv)

theorem strippedName_of_named {fields : Fields} (named : fields.get "name" = some (.str name))
    (isName : IsName name) : strippedName env fields = name := by
  unfold strippedName
  rw [named]
  exact isName.strip

theorem toolName_of_function {tool fn : Fields} (function : tool.get "function" = some (.obj fn))
    (named : fn.get "name" = some (.str name)) : toolName env (.obj tool) = name := by
  have filled : trueField tool "function" = some (.obj fn) := by
    unfold trueField
    rw [function]
    cases fn with
    | nil => cases named
    | cons field rest => rfl
  unfold toolName
  dsimp only
  rw [filled]
  dsimp only
  rw [named]
  rfl

theorem functionTool_of_parameters {fn : Fields}
    (parameters : (normalizeToolParameters (fn.get "parameters")).isSome) (more : Fields) :
    ∃ tool, functionTool env name fn more = some tool ∧ tool.truthy = true
      ∧ toolName env tool = name := by
  obtain ⟨normal, is⟩ := Option.isSome_iff_exists.mp parameters
  refine ⟨_, by rw [functionTool, is]; rfl, rfl, toolName_of_function env rfl rfl⟩

theorem convertDeclared_plain {tool : Fields} (fn : FunctionTool tool name) :
    ∃ out, convertDeclared env (.obj tool) = some out
      ∧ out.map (toolName env) = [flatName ("", name)] := by
  obtain ⟨type, form, named, isName, parameters⟩ := fn
  have converts : ∃ mapped, convertTool env (.obj tool) = some mapped ∧ mapped.truthy = true
      ∧ toolName env mapped = name := by
    unfold convertTool
    dsimp only
    rcases form with absent | ⟨fn, function⟩
    · rw [functionOf, absent] at named parameters
      rw [trueField, absent, Option.filter_none]
      dsimp only
      rw [named, isName.properName]
      exact functionTool_of_parameters env parameters _
    · rw [functionOf, function] at named
      cases fn with
      | nil => cases named
      | cons field rest =>
          rw [trueField, function, Option.filter_some]
          refine ⟨_, rfl, ?_, toolName_of_function env function named⟩
          cases tool with
          | nil => cases type
          | cons _ _ => rfl
  obtain ⟨mapped, converted, there, keeps⟩ := converts
  refine ⟨[mapped], ?_, by rw [List.map_singleton, keeps]; rfl⟩
  unfold convertDeclared
  dsimp only
  rw [type]
  dsimp only
  rw [if_neg (by decide), if_neg (by decide), converted, Option.map_some, if_pos there]

theorem flattenTools_of_get {fields : Fields} {value : Json} (nonempty : ns ≠ "")
    (tools : fields.get "tools" = some value) :
    flattenTools env ns fields = flattenSubtools env ns value := by
  unfold Fields.get at tools
  induction fields with
  | nil => cases tools
  | cons field rest ih =>
      obtain ⟨key, held⟩ := field
      rw [flattenTools, if_neg nonempty]
      by_cases here : key = "tools"
      · rw [if_pos here]
        rw [here, List.lookup_cons_self] at tools
        rw [Option.some.inj tools]
      · have miss : ("tools" == key) = false := by simpa using Ne.symm here
        rw [List.lookup_cons, miss] at tools
        rw [if_neg here, ih tools]

theorem flattenSub_function {tool : Fields} (fn : FunctionTool tool name) :
    ∃ out, flattenSub env ns (.obj tool) = some out
      ∧ out.map (toolName env) = [ns ++ namespaceFlatSep ++ name] := by
  obtain ⟨type, form, named, isName, parameters⟩ := fn
  obtain ⟨mapped, made, -, keeps⟩ :=
    @functionTool_of_parameters (ns ++ namespaceFlatSep ++ name) env _ parameters []
  refine ⟨[mapped], ?_, by rw [List.map_singleton, keeps]⟩
  have typed : strOr env.strOf (tool.get "type") = "function" := by
    rw [type]
    rfl
  rw [flattenSub, typed, if_neg (by decide), flattenFunction, typed, if_neg (by simp)]
  show (if strippedName env (functionOf tool) = "" then some []
    else (functionTool env (ns ++ namespaceFlatSep ++ strippedName env (functionOf tool))
      (functionOf tool) []).map ([·])) = _
  rw [strippedName_of_named env named isName, if_neg isName.nonempty, made]
  rfl

theorem flattenEach_subtools {subs : List Json} {names : List String}
    (declared : Subtools subs names) :
    ∃ out, flattenEach env ns subs = some out
      ∧ out.map (toolName env) = names.map fun name => ns ++ namespaceFlatSep ++ name := by
  unfold Subtools at declared
  induction declared with
  | nil => exact ⟨[], rfl, rfl⟩
  | cons first rest ih =>
      obtain ⟨tool, rfl, fn⟩ := first
      obtain ⟨front, flattened, keeps⟩ := @flattenSub_function _ ns env _ fn
      obtain ⟨back, others, keeps'⟩ := ih
      refine ⟨front ++ back, ?_, ?_⟩
      · rw [flattenEach, flattened, Option.bind_some, others]
        rfl
      · rw [List.map_append, keeps, keeps']
        rfl

theorem convertDeclared_of_declares {tool : Json} {declared : List (String × String)}
    (declares : Declares tool declared) :
    ∃ out, convertDeclared env tool = some out
      ∧ out.map (toolName env) = declared.map flatName := by
  cases declares with
  | plain fn => exact convertDeclared_plain env fn
  | @nested tool ns subs names type named isName tools declared =>
      obtain ⟨out, flattened, keeps⟩ := @flattenEach_subtools ns env _ _ declared
      refine ⟨out, ?_, ?_⟩
      · unfold convertDeclared
        dsimp only
        rw [type]
        dsimp only
        rw [if_neg (by decide), if_pos rfl, flattenNamespaceTool,
          strippedName_of_named env named isName,
          flattenTools_of_get env isName.nonempty tools, flattenSubtools, flattened]
      · rw [keeps, List.map_map]
        refine List.map_congr_left fun name _ => ?_
        rw [Function.comp_apply, flatName, if_neg isName.nonempty]

theorem convertTools_of_declares {tools : List Json} {declared : List (List (String × String))}
    (declares : List.Forall₂ Declares tools declared) :
    ∃ out, convertTools env tools = some out
      ∧ out.map (toolName env) = declared.flatten.map flatName := by
  induction declares with
  | nil => exact ⟨[], rfl, rfl⟩
  | cons first rest ih =>
      obtain ⟨front, converted, keeps⟩ := convertDeclared_of_declares env first
      obtain ⟨back, others, keeps'⟩ := ih
      refine ⟨front ++ back, ?_, ?_⟩
      · rw [convertTools, converted, Option.bind_some, others]
        rfl
      · rw [List.map_append, keeps, keeps', List.flatten_cons, List.map_append]

/-! ## Names -/

/-- A name that holds a hyphen after the beginning of a flattened name. -/
def looksFlattened (name : String) : Bool :=
  startsWith name namespacePrefix && decide ('-' ∈ name.toList)

/-- A tool that its flat name determines: a plain function whose name does not look flattened, or
a tool without a hyphen in its name, of a namespace that begins with `mcp__`. -/
def Restorable (tool : String × String) : Prop :=
  if tool.1 = "" then looksFlattened tool.2 = false
  else startsWith tool.1 namespacePrefix = true ∧ '-' ∉ tool.2.toList

theorem not_dot_of_isNameChar {text : List Char} (chars : ∀ c ∈ text, isNameChar c = true) :
    '.' ∉ text := fun mem => absurd (chars '.' mem) (by decide)

theorem toList_flatName (nonempty : ns ≠ "") :
    (flatName (ns, name)).toList = ns.toList ++ '-' :: name.toList := by
  rw [flatName, if_neg nonempty, String.toList_append, String.toList_append, List.append_assoc]
  rfl

theorem startsWith_flatName (nonempty : ns ≠ "") :
    startsWith (flatName (ns, name)) namespacePrefix = startsWith ns namespacePrefix := by
  unfold startsWith
  rw [toList_flatName nonempty, Bool.eq_iff_iff, List.isPrefixOf_iff_prefix,
    List.isPrefixOf_iff_prefix]
  constructor
  · intro front
    -- the hyphen would stand inside `mcp__` if the namespace were shorter
    rcases List.prefix_or_prefix_of_prefix front (List.prefix_append _ _) with within | short
    · exact within
    · obtain ⟨rest, split⟩ := front
      obtain ⟨more, cut⟩ := short
      rw [← cut, List.append_assoc, List.append_cancel_left_eq] at split
      cases more with
      | nil =>
          rw [List.append_nil] at cut
          rw [cut]
      | cons c more =>
          have hyphen : '-' ∈ namespacePrefix.toList := by
            rw [← cut, (List.cons.inj split).1]
            simp
          exact absurd hyphen (by decide)
  · exact fun front => front.trans (List.prefix_append _ _)

theorem rpartition_front_ne {sep : Char} {text : List Char} (other : sep ≠ 'm')
    (front : namespacePrefix.toList <+: text) (there : sep ∈ text) :
    (rpartition sep text).1 ≠ [] := by
  intro none
  have joined := rpartition_join there
  obtain ⟨rest, begins⟩ := front
  rw [none, ← begins] at joined
  exact other (List.cons.inj joined).1

theorem splitNamespaceName_of_plain {f : String} (plain : (splitNamespaceName f).1 = "") :
    splitNamespaceName f = ("", f) := by
  have cut : ∀ sep, sep ≠ 'm' → startsWith f namespacePrefix = true → sep ∈ f.toList →
      String.ofList (rpartition sep f.toList).1 ≠ "" := by
    intro sep other front there none
    refine rpartition_front_ne other (List.isPrefixOf_iff_prefix.mp front) there ?_
    simpa using none
  unfold splitNamespaceName at plain ⊢
  split
  case isTrue front =>
    rw [if_pos front] at plain
    split
    case isTrue dot =>
      rw [if_pos dot] at plain
      exact absurd plain (cut '.' (by decide) front dot)
    case isFalse dotless =>
      rw [if_neg dotless] at plain
      split
      case isTrue hyphen =>
        rw [if_pos hyphen] at plain
        exact absurd plain (cut '-' (by decide) front hyphen)
      case isFalse _ => rfl
  case isFalse _ => rfl

theorem splitNamespaceName_flatName (nsName : ns = "" ∨ IsName ns) (isName : IsName name) :
    splitNamespaceName (flatName (ns, name)) = (ns, name) ↔ Restorable (ns, name) := by
  unfold splitNamespaceName Restorable
  dsimp only
  rcases nsName with rfl | nsName
  · rw [if_pos rfl, show flatName ("", name) = name from rfl,
      if_neg (not_dot_of_isNameChar isName.chars), looksFlattened]
    by_cases front : startsWith name namespacePrefix = true
    · rw [if_pos front, front, Bool.true_and, decide_eq_false_iff_not]
      by_cases hyphen : '-' ∈ name.toList
      · rw [if_pos hyphen]
        refine iff_of_false (fun same => ?_) (not_not.mpr hyphen)
        refine rpartition_front_ne (by decide) (List.isPrefixOf_iff_prefix.mp front) hyphen ?_
        simpa using (Prod.mk.inj same).1
      · rw [if_neg hyphen]
        exact iff_of_true rfl hyphen
    · rw [if_neg front, Bool.eq_false_iff.mpr front]
      exact iff_of_true rfl rfl
  · rw [if_neg nsName.nonempty, startsWith_flatName nsName.nonempty,
      toList_flatName nsName.nonempty]
    have dotless : '.' ∉ ns.toList ++ '-' :: name.toList := by
      refine not_dot_of_isNameChar fun c mem => ?_
      rcases List.mem_append.mp mem with mem | mem
      · exact nsName.chars c mem
      · rcases List.mem_cons.mp mem with rfl | mem
        · rfl
        · exact isName.chars c mem
    by_cases front : startsWith ns namespacePrefix = true
    · rw [if_pos front, if_neg dotless, if_pos (by simp)]
      constructor
      · intro same
        refine ⟨front, fun hyphen => ?_⟩
        have last := congrArg String.toList (Prod.mk.inj same).2
        rw [String.toList_ofList] at last
        exact not_mem_rpartition '-' _ (last ▸ hyphen)
      · intro good
        rw [rpartition_concat good.2, String.ofList_toList, String.ofList_toList]
    · rw [if_neg front]
      refine iff_of_false (fun same => nsName.nonempty (Prod.mk.inj same).1.symm) ?_
      exact fun good => front good.1

/-! ## What comes back -/

/-- An entry of `tool_calls` that calls this function. -/
def CallsFunction (tc : Json) (f : String) : Prop :=
  ∃ call fn : Fields, tc = .obj call ∧ call.get "function" = some (.obj fn)
    ∧ fn.get "name" = some (.str f)

/-- The namespace and the name of a call item. -/
def calledTool (strOf : Json → String) : Json → String × String
  | .obj item => (strOr strOf (Fields.get item "namespace"), strOr strOf (Fields.get item "name"))
  | _ => ("", "")

/-- The tool that a call of the upstream is restored to. -/
def restored (aenv : AnswerEnv) (tc : Json) : Option (String × String) :=
  (callItem aenv tc).map (calledTool aenv.strOf)

/-- The tools `declared` are kept apart: a call of the function that a tool was flattened to is
restored to this tool and no other, and goes upstream in a later turn under the same name. -/
structure Reversible (env : RequestEnv) (aenv : AnswerEnv) (declared : List (String × String)) :
    Prop where
  restores : ∀ tool ∈ declared, ∀ tc, CallsFunction tc (flatName tool) →
    restored aenv tc = some tool
  apart : ∀ tool ∈ declared, ∀ tool' ∈ declared, ∀ tc tc', CallsFunction tc (flatName tool) →
    CallsFunction tc' (flatName tool') → restored aenv tc = restored aenv tc' → tool = tool'
  again : ∀ tool ∈ declared, ∀ tc item, CallsFunction tc (flatName tool) →
    callItem aenv tc = some item → ∀ conv, ∃ call,
      convertItem env conv item
          = some { conv with current := some (conv.current.getD [] ++ [call]) }
        ∧ CallsFunction call (flatName tool)

theorem callItem_of_calls (aenv : AnswerEnv) {tc : Json} {f : String}
    (calls : CallsFunction tc f) :
    ∃ item : Fields, callItem aenv tc = some (.obj item)
      ∧ item.get "type" = some (.str "function_call")
      ∧ item.get "name" = some (.str (if (splitNamespaceName f).1 = "" then f
          else (splitNamespaceName f).2))
      ∧ item.get "namespace" = if (splitNamespaceName f).1 = "" then none
          else some (.str (splitNamespaceName f).1) := by
  obtain ⟨call, fn, rfl, function, named⟩ := calls
  have filled : objectOr (call.get "function") = some fn := by
    unfold objectOr nonempty
    rw [function]
    cases fn with
    | nil => cases named
    | cons _ _ => rfl
  have flat : strOr aenv.strOf (fn.get "name") = f := by
    rw [named]
    rfl
  unfold callItem
  dsimp only
  rw [filled, Option.map_some, flat]
  refine ⟨_, rfl, rfl, rfl, ?_⟩
  split
  case isTrue plain => simp [Fields.get, List.lookup]
  case isFalse nested => simp [Fields.get, List.lookup]

theorem restored_of_calls (aenv : AnswerEnv) {tc : Json} {f : String}
    (calls : CallsFunction tc f) : restored aenv tc = some (splitNamespaceName f) := by
  obtain ⟨item, is, -, name, nameSpace⟩ := callItem_of_calls aenv calls
  rw [restored, is, Option.map_some, calledTool, name, nameSpace]
  by_cases plain : (splitNamespaceName f).1 = ""
  · rw [if_pos plain, if_pos plain, splitNamespaceName_of_plain plain]
    rfl
  · rw [if_neg plain, if_neg plain]
    rfl

theorem convertItem_restored (aenv : AnswerEnv) (nsName : ns = "" ∨ IsName ns)
    (isName : IsName name) (restorable : Restorable (ns, name)) {tc item : Json}
    (calls : CallsFunction tc (flatName (ns, name))) (is : callItem aenv tc = some item)
    (conv : Conversation) :
    ∃ call, convertItem env conv item
        = some { conv with current := some (conv.current.getD [] ++ [call]) }
      ∧ CallsFunction call (flatName (ns, name)) := by
  obtain ⟨item', is', type, named, nameSpace⟩ := callItem_of_calls aenv calls
  obtain rfl : item = .obj item' := Option.some.inj (is.symm.trans is')
  rw [(splitNamespaceName_flatName nsName isName).mpr restorable] at named nameSpace
  dsimp only at named nameSpace
  have plain : item'.get "name" = some (.str name) := by
    rw [named]
    split
    case isTrue none => rw [none]; rfl
    case isFalse _ => rfl
  have again : upstreamCallName item' name = flatName (ns, name) := by
    unfold upstreamCallName flatName
    rw [nameSpace]
    rcases nsName with rfl | nsName
    · rfl
    · rw [if_neg nsName.nonempty, if_neg nsName.nonempty, nsName.properName]
      dsimp only
      rw [nsName.strip]
  have typed : itemTypeOf item' = some (.str "function_call") := by
    unfold itemTypeOf trueField
    rw [type]
    rfl
  refine ⟨convertCall env item' name, ?_, _, _, rfl, rfl, ?_⟩
  · unfold convertItem
    dsimp only
    rw [typed, if_neg (by decide), if_pos rfl, plain, isName.properName]
  · rw [again]
    rfl

/-! ## Requests -/

theorem isName_of_subtools {subs : List Json} {names : List String}
    (declared : Subtools subs names) : ∀ name ∈ names, IsName name := by
  unfold Subtools at declared
  induction declared with
  | nil => exact fun name mem => absurd mem List.not_mem_nil
  | cons first rest ih =>
      obtain ⟨tool, -, fn⟩ := first
      intro name mem
      rcases List.mem_cons.mp mem with rfl | mem
      · exact fn.isName
      · exact ih name mem

theorem names_of_declares {tool : Json} {declared : List (String × String)}
    (declares : Declares tool declared) :
    ∀ named ∈ declared, (named.1 = "" ∨ IsName named.1) ∧ IsName named.2 := by
  intro named mem
  cases declares with
  | plain fn =>
      obtain rfl := List.mem_singleton.mp mem
      exact ⟨.inl rfl, fn.isName⟩
  | nested _ _ isName _ subtools =>
      obtain ⟨name, mem', rfl⟩ := List.mem_map.mp mem
      exact ⟨.inr isName, isName_of_subtools subtools name mem'⟩

theorem names_of_parts {tools : List Json} {declared : List (List (String × String))}
    (declares : List.Forall₂ Declares tools declared) :
    ∀ part ∈ declared, ∀ tool ∈ part, (tool.1 = "" ∨ IsName tool.1) ∧ IsName tool.2 := by
  induction declares with
  | nil => exact fun part mem => absurd mem List.not_mem_nil
  | cons first rest ih =>
      intro part mem
      rcases List.mem_cons.mp mem with rfl | mem
      · exact names_of_declares first
      · exact ih part mem

theorem reversible_iff (aenv : AnswerEnv) {declared : List (String × String)}
    (names : ∀ tool ∈ declared, (tool.1 = "" ∨ IsName tool.1) ∧ IsName tool.2) :
    Reversible env aenv declared ↔ ∀ tool ∈ declared, Restorable tool := by
  have names_split : ∀ tool ∈ declared, splitNamespaceName (flatName tool) = tool ↔
      Restorable tool := fun tool mem =>
    splitNamespaceName_flatName (names tool mem).1 (names tool mem).2
  have restores : ∀ tool ∈ declared, Restorable tool → ∀ tc, CallsFunction tc (flatName tool) →
      restored aenv tc = some tool := by
    intro tool mem good tc calls
    rw [restored_of_calls aenv calls, (names_split tool mem).mpr good]
  constructor
  · intro reversible tool mem
    have calls : CallsFunction (.obj [("function", .obj [("name", .str (flatName tool))])])
        (flatName tool) := ⟨_, _, rfl, rfl, rfl⟩
    have back := reversible.restores tool mem _ calls
    rw [restored_of_calls aenv calls] at back
    exact (names_split tool mem).mp (Option.some.inj back)
  · intro good
    refine ⟨fun tool mem => restores tool mem (good tool mem), ?_, ?_⟩
    · intro tool mem tool' mem' tc tc' calls calls' same
      rw [restores tool mem (good tool mem) tc calls,
        restores tool' mem' (good tool' mem') tc' calls'] at same
      exact Option.some.inj same
    · intro tool mem tc item calls is conv
      exact convertItem_restored env aenv (names tool mem).1 (names tool mem).2 (good tool mem)
        calls is conv

theorem get_foldl_without {key : String} {keys : List String} (other : key ∉ keys)
    (fields : Fields) : (keys.foldl Fields.without fields).get key = fields.get key := by
  induction keys generalizing fields with
  | nil => rfl
  | cons k keys ih =>
      rw [List.mem_cons, not_or] at other
      rw [List.foldl_cons, ih other.2, Fields.get_without_of_ne other.1]

theorem get_mapOutputLimit {key : String} (tokens : key ≠ "max_tokens")
    (limit : key ≠ "max_output_tokens") (result : Fields) :
    (mapOutputLimit result).get key = result.get key := by
  unfold mapOutputLimit
  split
  case h_1 value _ =>
    rw [Fields.get_without_of_ne limit]
    split
    case isTrue _ => exact Fields.get_put_of_ne tokens value result
    case isFalse _ => rfl
  case h_2 _ => rfl

theorem get_mapReasoning {key : String} (effort : key ≠ "reasoning_effort") (result : Fields) :
    (mapReasoning result).get key = result.get key := by
  unfold mapReasoning
  split
  case h_1 reasoning _ =>
    split
    case h_1 value _ => exact Fields.get_put_of_ne effort _ result
    case h_2 _ => rfl
  case h_2 _ => rfl

theorem get_mapText {key : String} (format : key ≠ "response_format") (text : key ≠ "text")
    (result : Fields) : (mapText result).get key = result.get key := by
  unfold mapText
  split
  case h_1 value _ =>
    rw [Fields.get_put_of_ne format, Fields.get_without_of_ne text]
  case h_2 _ => exact Fields.get_without_of_ne text result

/-- The fields that `mapFields` writes or takes away. -/
def mappedFields : List String :=
  responsesOnlyFields
    ++ ["max_output_tokens", "max_tokens", "reasoning_effort", "response_format", "text"]

theorem get_mapFields {key : String} (other : key ∉ mappedFields) (result : Fields) :
    (mapFields result).get key = result.get key := by
  simp only [mappedFields, List.mem_append, List.mem_cons, List.not_mem_nil, or_false, not_or]
    at other
  obtain ⟨kept, limit, tokens, effort, format, text⟩ := other
  unfold mapFields
  rw [get_foldl_without kept, get_mapText format text, get_mapReasoning effort,
    get_mapOutputLimit tokens limit]

/-- A request with an input that can be read. -/
def HasInput (body : Fields) : Prop :=
  ∃ input items, trueField body "input" = some input
    ∧ normalizeResponsesInput input = some items

theorem get_tools_convertRequest {body result : Fields} {tools out : List Json}
    (hasInput : HasInput body) (given : body.get "tools" = some (.arr tools))
    (loop : convertTools env tools = some out) (converted : convertRequest env body = some result) :
    result.get "tools" = some (.arr out) := by
  obtain ⟨input, items, asks, normal⟩ := hasInput
  unfold convertRequest at converted
  rw [asks] at converted
  dsimp only at converted
  rw [normal] at converted
  obtain ⟨conv, -, converted⟩ := Option.bind_eq_some_iff.mp converted
  rw [given] at converted
  dsimp only at converted
  rw [loop, Option.map_some, Option.bind_some] at converted
  obtain ⟨choice, -, rfl⟩ := Option.map_eq_some_iff.mp converted
  rw [get_mapFields (by decide)]
  cases choice with
  | none => exact Fields.get_put_self _ _ _
  | some choice =>
      dsimp only
      rw [Fields.get_put_of_ne (by decide)]
      exact Fields.get_put_self _ _ _

/-- **The functions of a chat request carry the flat names of the declared tools, and they come
back as these tools exactly when each is restorable.** -/
theorem flatTools_iff (env : RequestEnv) (aenv : AnswerEnv) {body result : Fields}
    {tools : List Json} {declared : List (List (String × String))} (hasInput : HasInput body)
    (given : body.get "tools" = some (.arr tools))
    (declares : List.Forall₂ Declares tools declared)
    (converted : convertRequest env body = some result) :
    ∃ out, result.get "tools" = some (.arr out)
      ∧ out.map (toolName env) = declared.flatten.map flatName
      ∧ (Reversible env aenv declared.flatten
        ↔ ∀ tool ∈ declared.flatten, Restorable tool) := by
  obtain ⟨out, loop, names⟩ := convertTools_of_declares env declares
  refine ⟨out, get_tools_convertRequest env hasInput given loop converted, names, ?_⟩
  refine reversible_iff env aenv fun tool mem => ?_
  obtain ⟨part, at_, mem⟩ := List.mem_flatten.mp mem
  exact names_of_parts declares part at_ tool mem

/-- A function tool without parameters. -/
def functionDeclaration (name : String) : Fields :=
  [("type", .str "function"), ("name", .str name)]

/-- A request that declares the function `run` and, in a namespace of files, one tool. -/
def fileRequest (tool : String) : Fields :=
  [("input", .str "Hi"), ("tools", .arr [.obj (functionDeclaration "run"),
    .obj [("type", .str "namespace"), ("name", .str "mcp__fs__"),
      ("tools", .arr [.obj (functionDeclaration tool)])]])]

/-- The conversions with a parser that knows no text, at time zero. -/
def plainRequestEnv : RequestEnv := ⟨fun _ => .rejected, fun _ => ""⟩

/-- The conversion back of a clock at zero. -/
def plainAnswerEnv : AnswerEnv := ⟨0, fun _ => ""⟩

theorem functionTool_declaration (isName : IsName name) :
    FunctionTool (functionDeclaration name) name :=
  ⟨rfl, .inl rfl, rfl, isName, rfl⟩

theorem declares_fileRequest {tool : String} (isName : IsName tool) :
    List.Forall₂ Declares [.obj (functionDeclaration "run"),
        .obj [("type", .str "namespace"), ("name", .str "mcp__fs__"),
          ("tools", .arr [.obj (functionDeclaration tool)])]]
      [[("", "run")], [("mcp__fs__", tool)]] :=
  .cons (.plain (functionTool_declaration ⟨by decide, by simp [isNameChar]⟩))
    (.cons (.nested rfl rfl ⟨by decide, by simp [isNameChar]⟩ rfl
      (.cons ⟨_, rfl, functionTool_declaration isName⟩ .nil)) .nil)

theorem readFile_reversible :
    ∃ out, ((convertRequest plainRequestEnv (fileRequest "read_file")).getD []).get "tools"
        = some (.arr out)
      ∧ out.map (toolName plainRequestEnv)
        = [[("", "run")], [("mcp__fs__", "read_file")]].flatten.map flatName
      ∧ (Reversible plainRequestEnv plainAnswerEnv
          [[("", "run")], [("mcp__fs__", "read_file")]].flatten
        ↔ ∀ tool ∈ [[("", "run")], [("mcp__fs__", "read_file")]].flatten, Restorable tool) :=
  flatTools_iff plainRequestEnv plainAnswerEnv
    (show HasInput (fileRequest "read_file") from ⟨_, _, rfl, rfl⟩) rfl
    (declares_fileRequest ⟨by decide, by simp [isNameChar]⟩) rfl

/-- A hyphen in the name of a tool: the call comes back with a part of the name in the
namespace. -/
theorem readFile_confused :
    (convertRequest plainRequestEnv (fileRequest "read-file")).bind (·.get "tools")
        = some (.arr [.obj [("type", .str "function"), ("function", .obj [("name", .str "run"),
            ("description", .str ""), ("parameters",
              .obj [("type", .str "object"), ("properties", .obj [])])])],
          .obj [("type", .str "function"), ("function", .obj
            [("name", .str "mcp__fs__-read-file"), ("description", .str ""), ("parameters",
              .obj [("type", .str "object"), ("properties", .obj [])])])]])
      ∧ ¬ Reversible plainRequestEnv plainAnswerEnv [("", "run"), ("mcp__fs__", "read-file")] := by
  refine ⟨by decide +kernel, fun reversible => ?_⟩
  have back := reversible.restores ("mcp__fs__", "read-file") (by decide)
    (.obj [("function", .obj [("name", .str (flatName ("mcp__fs__", "read-file")))])])
    ⟨_, _, rfl, rfl, rfl⟩
  exact absurd back (by decide +kernel)

end Zhongzhuan.Protocol
