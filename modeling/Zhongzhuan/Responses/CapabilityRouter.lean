import Zhongzhuan.Kit.Sort
import Zhongzhuan.Kit.Text

/-!
# The capability router

The model of `CapabilityRouter.route` in `responses_v3/capability.py`, with its forced modes, its
decision and its two errors, over a registry that may lack any of its methods.

Without a forced mode the router looks for a native key that declares everything; failing that it
takes the available key that misses the fewest capabilities, and asks only of that one whether
what it misses can be emulated.  `route_exact_iff` says for which candidates this is the same as
asking it of every key.

A set of capabilities is a `Finset`.  The order in which Python iterates over a set shows in the
reason of one decision and is a parameter; everywhere else the code sorts.
-/

namespace Zhongzhuan.Responses

open Kit

/-! ## The vocabulary -/

/-- `Capability`. -/
inductive Capability
  | statefulResponses | background | webSearch | fileSearch | computer | codeInterpreter
  | imageGeneration | remoteMcp | toolSearch
deriving DecidableEq, Repr

namespace Capability

def value : Capability → String
  | statefulResponses => "stateful_responses"
  | background => "background"
  | webSearch => "web_search"
  | fileSearch => "file_search"
  | computer => "computer"
  | codeInterpreter => "code_interpreter"
  | imageGeneration => "image_generation"
  | remoteMcp => "remote_mcp"
  | toolSearch => "tool_search"

/-- The members in the order of their values. -/
def byValue : List Capability :=
  [background, codeInterpreter, computer, fileSearch, imageGeneration, remoteMcp,
    statefulResponses, toolSearch, webSearch]

/-- `Capability(text)`; `none` is the `ValueError`. -/
def ofValue? (text : String) : Option Capability := byValue.find? fun cap => cap.value = text

/-- `sorted(caps, key=lambda c: c.value)`. -/
def sorted (caps : Finset Capability) : List Capability := byValue.filter (· ∈ caps)

end Capability

/-- `text.strip().lower()`, as far as a comparison with a text of ASCII letters can see: the
Kelvin sign is the only other character with a lower case among them. -/
def stripLower (text : String) : String :=
  String.ofList ((strip text.toList).map fun c => if c = '\u212a' then 'k' else c.toLower)

/-- One of the values of a list of capabilities. -/
inductive RawCapability
  | member (cap : Capability)
  /-- Any other value, as `str` shows it. -/
  | text (shown : String)
deriving DecidableEq, Repr

def RawCapability.read : RawCapability → Option Capability
  | .member cap => some cap
  | .text shown => Capability.ofValue? (stripLower shown)

/-- `coerce_capabilities`, and the loop of `KeyHealth.declared_capabilities`. -/
def coerceCapabilities (values : List RawCapability) : Finset Capability :=
  (values.filterMap RawCapability.read).toFinset

/-- `ExecutionMode`. -/
inductive ExecutionMode
  | native | emulate | translate
deriving DecidableEq, Repr

/-- `PATH_RESPONSES`. -/
def pathResponses : String := "/v1/responses"

/-- `PATH_CHAT_COMPLETIONS`. -/
def pathChatCompletions : String := "/v1/chat/completions"

/-- `PATH_MESSAGES`. -/
def pathMessages : String := "/v1/messages"

/-- `DEFAULT_EMULATED_CAPABILITIES`. -/
def defaultEmulatedCapabilities : Finset Capability := {.statefulResponses, .background}

/-- `UPSTREAM_FORWARDED_CAPABILITIES`. -/
def upstreamForwardedCapabilities : Finset Capability := {.webSearch}

/-- `REASON_NO_UPSTREAM`. -/
def reasonNoUpstream : String := "no upstream declares capability"

/-- `REASON_ROUTE_UNAVAILABLE`. -/
def reasonRouteUnavailable : String := "route unavailable"

/-! ## Keys and registries -/

/-- What the router reads of a `KeyHealth`. -/
structure RouteKey where
  name : String
  capabilities : List RawCapability
  upstreamMode : String
  upstreamProtocol : String
  /-- What `is_available()` answers. -/
  isAvailable : Bool
deriving DecidableEq, Repr

/-- `KeyHealth.declared_capabilities`. -/
def RouteKey.declaredCapabilities (key : RouteKey) : Finset Capability :=
  coerceCapabilities key.capabilities

/-- `KeyHealth.execution_mode`. -/
def RouteKey.executionMode (key : RouteKey) : ExecutionMode :=
  if stripLower key.upstreamMode ∈ ["native", "responses_native"] then .native
  else if stripLower key.upstreamMode = "emulate" then .emulate
  else .translate

/-- `RouteRegistry`, each of whose methods may be missing. -/
structure RouteRegistry where
  allKeys : Option (List RouteKey)
  declaredCapabilities : Option (RouteKey → Finset Capability)
  upstreamMode : Option (RouteKey → ExecutionMode)
  isAvailable : Option (RouteKey → Bool)

/-- `StaticRouteRegistry(keys)`. -/
def staticRouteRegistry (keys : List RouteKey) : RouteRegistry where
  allKeys := some keys
  declaredCapabilities := some RouteKey.declaredCapabilities
  upstreamMode := some RouteKey.executionMode
  isAvailable := some RouteKey.isAvailable

namespace RouteRegistry

variable (registry : RouteRegistry) (key : RouteKey)

/-- `_declared_of`. -/
def declaredOf : Finset Capability :=
  (registry.declaredCapabilities.getD RouteKey.declaredCapabilities) key

/-- `_mode_of`. -/
def modeOf : ExecutionMode := (registry.upstreamMode.getD RouteKey.executionMode) key

/-- `_available`. -/
def available : Bool := (registry.isAvailable.getD RouteKey.isAvailable) key

end RouteRegistry

/-- `_translate_path`. -/
def translatePath (key : RouteKey) : String :=
  if stripLower key.upstreamProtocol = "anthropic" then pathMessages else pathChatCompletions

/-! ## Requests, decisions, errors -/

/-- `HostedToolSpec`, as far as the router reads it. -/
structure HostedToolSpec where
  requiredCapability : Option Capability
  paramPath : String
deriving DecidableEq, Repr

/-- `SanitizedRequest`, as far as the router reads it. -/
structure RouteRequest where
  hostedTools : List HostedToolSpec
  requiredCapabilities : Finset Capability

/-- `CapabilityGap`. -/
structure CapabilityGap where
  capability : Capability
  reason : String
  paramPath : String
deriving DecidableEq, Repr

/-- `RouteDecision`. -/
structure RouteDecision where
  mode : ExecutionMode
  key : RouteKey
  upstreamPath : String
  granted : Finset Capability
  gaps : List CapabilityGap
  reason : String

/-- The two classes of errors the router gives. -/
inductive RouteErrorClass
  | unsupportedToolCapability | capabilityRouteUnavailable
deriving DecidableEq, Repr

/-- `CapabilityError`. -/
structure CapabilityError where
  errorClass : RouteErrorClass
  message : String
  param : String
  gaps : List CapabilityGap
deriving DecidableEq, Repr

/-- `_join`. -/
def joinCapabilities (caps : List Capability) : String :=
  ", ".intercalate (caps.map Capability.value)

/-- The loop of `_capability_param_paths`: the first tool with a capability names its path. -/
def capabilityParamPaths :
    ℕ → List HostedToolSpec → List (Capability × String) → List (Capability × String)
  | _, [], paths => paths
  | index, spec :: specs, paths =>
    capabilityParamPaths (index + 1) specs <|
      spec.requiredCapability.elim paths fun cap =>
        if cap ∈ paths.map Prod.fst then paths
        else paths ++ [(cap, if spec.paramPath = "" then s!"tools[{index}].type"
          else spec.paramPath)]

/-- `_gaps_for`. -/
def gapsFor (req : RouteRequest) (caps : Finset Capability) (reason : String) :
    List CapabilityGap :=
  (Capability.sorted caps).map fun cap =>
    ⟨cap, reason, ((capabilityParamPaths 0 req.hostedTools []).lookup cap).getD ""⟩

/-! ## The router -/

/-- `CapabilityRouter`. -/
structure CapabilityRouter where
  registry : RouteRegistry
  forcedMode : Option ExecutionMode
  emulated : Finset Capability
  forwarded : Finset Capability
  /-- The order in which Python iterates over a set of capabilities. -/
  setOrder : Finset Capability → List Capability

namespace CapabilityRouter

variable (router : CapabilityRouter)

/-- `required - self._forwarded`. -/
def effective (req : RouteRequest) : Finset Capability :=
  req.requiredCapabilities \ router.forwarded

/-- `_unmet`. -/
def unmet (required : Finset Capability) (key : RouteKey) : Finset Capability :=
  required \ router.registry.declaredOf key

/-- `_pick_native`. -/
def pickNative (required : Finset Capability) (available : List RouteKey) : Option RouteKey :=
  available.find? fun key =>
    router.registry.modeOf key = .native ∧ required ⊆ router.registry.declaredOf key

/-- The capabilities that nobody emulates, forwards or declares. -/
def undeclared (required : Finset Capability) (pool : List RouteKey) : Finset Capability :=
  required.filter fun cap =>
    cap ∉ router.emulated ∧ cap ∉ router.forwarded
      ∧ ¬ pool.any fun key => cap ∈ router.registry.declaredOf key

/-- `list(candidates) or list(_all_keys(self._registry))`. -/
def pool (candidates : List RouteKey) : List RouteKey :=
  if candidates = [] then router.registry.allKeys.getD [] else candidates

/-- `_failure`. -/
def failure (req : RouteRequest) (candidates : List RouteKey) : CapabilityError :=
  let required := req.requiredCapabilities
  let undeclared := router.undeclared required (router.pool candidates)
  if undeclared ≠ ∅ then
    let gaps := gapsFor req undeclared reasonNoUpstream
    { errorClass := .unsupportedToolCapability
      message := "no route can serve capability: "
        ++ joinCapabilities (Capability.sorted undeclared)
      param := (gaps.head?.map CapabilityGap.paramPath).getD ""
      gaps := gaps }
  else
    let named := joinCapabilities (Capability.sorted required)
    { errorClass := .capabilityRouteUnavailable
      message := "every route declaring the required capability is currently unavailable: "
        ++ if named = "" then "(none)" else named
      param := ""
      gaps := gapsFor req required reasonRouteUnavailable }

/-- `_forced_native`. -/
def forcedNative (req : RouteRequest) (candidates available : List RouteKey) :
    Except CapabilityError RouteDecision :=
  match (router.pickNative (router.effective req) available).orElse fun _ => available.head? with
  | none => .error (router.failure req candidates)
  | some key =>
    let declared := router.registry.declaredOf key
    .ok
      { mode := .native
        key := key
        upstreamPath := pathResponses
        granted := req.requiredCapabilities ∩ (declared ∪ router.emulated ∪ router.forwarded)
        gaps := gapsFor req ((router.effective req \ declared) \ router.emulated)
          reasonNoUpstream
        reason := "upstream_mode=responses_native (passthrough forced)" }

/-- `_forced_translate`. -/
def forcedTranslate (req : RouteRequest) (candidates available : List RouteKey) :
    Except CapabilityError RouteDecision :=
  match available with
  | [] => .error (router.failure req candidates)
  | key :: _ =>
    .ok
      { mode := .translate
        key := key
        upstreamPath := translatePath key
        granted := req.requiredCapabilities ∩ (router.forwarded ∪ router.emulated)
        gaps := []
        reason := "upstream_mode=translate (translation forced)" }

/-- `min(available, key=lambda k: len(self._unmet(required_effective, k)))`. -/
def best (required : Finset Capability) (available : List RouteKey) : Option RouteKey :=
  firstLeast (fun a b => decide ((router.unmet required a).card < (router.unmet required b).card))
    available

/-- The decision for a native key. -/
def nativeDecision (req : RouteRequest) (key : RouteKey) : RouteDecision where
  mode := .native
  key := key
  upstreamPath := pathResponses
  granted := req.requiredCapabilities
  gaps := []
  reason := "upstream declares every required capability"

/-- The decision where nothing has to be kept. -/
def translateDecision (req : RouteRequest) (key : RouteKey) : RouteDecision where
  mode := .translate
  key := key
  upstreamPath := translatePath key
  granted := req.requiredCapabilities
  gaps := []
  reason := "no locally-executed capability required; upstream forwards hosted tools"

/-- The decision where the bridge stands in for what the key misses. -/
def emulateDecision (req : RouteRequest) (key : RouteKey) : RouteDecision where
  mode := .emulate
  key := key
  upstreamPath := translatePath key
  granted := req.requiredCapabilities
  gaps := []
  reason := "bridge emulates: " ++
    let named := joinCapabilities (router.setOrder (router.unmet (router.effective req) key))
    if named = "" then "(nothing missing)" else named

/-- `route`. -/
def route (req : RouteRequest) (candidates : List RouteKey) :
    Except CapabilityError RouteDecision :=
  let required := router.effective req
  let available := candidates.filter router.registry.available
  if router.forcedMode = some .native then router.forcedNative req candidates available
  else if router.forcedMode = some .translate then
    router.forcedTranslate req candidates available
  else
    match router.pickNative required available with
    | some key => .ok (nativeDecision req key)
    | none =>
      match available with
      | [] => .error (router.failure req candidates)
      | key :: _ =>
        if required = ∅ then .ok (translateDecision req key)
        else
          match router.best required available with
          | some key =>
            if router.unmet required key ⊆ router.emulated then
              .ok (router.emulateDecision req key)
            else .error (router.failure req candidates)
          | none => .error (router.failure req candidates)

/-! ## Which keys would do -/

variable {router} {req : RouteRequest} {required : Finset Capability}
variable {candidates candidates' available : List RouteKey} {key : RouteKey}

variable (router) in
/-- The key is in native mode and declares all that is required. -/
def ServesNatively (required : Finset Capability) (key : RouteKey) : Prop :=
  router.registry.modeOf key = .native ∧ required ⊆ router.registry.declaredOf key

variable (router) in
/-- The key declares all that is required but for what is emulated. -/
def ServesEmulated (required : Finset Capability) (key : RouteKey) : Prop :=
  required \ router.emulated ⊆ router.registry.declaredOf key

instance : Decidable (router.ServesNatively required key) :=
  inferInstanceAs (Decidable (_ ∧ _))

instance : Decidable (router.ServesEmulated required key) :=
  inferInstanceAs (Decidable (required \ router.emulated ⊆ router.registry.declaredOf key))

variable (router) in
/-- The key is an available candidate. -/
def Offers (candidates : List RouteKey) (key : RouteKey) : Prop :=
  key ∈ candidates ∧ router.registry.available key = true

theorem mem_available : key ∈ candidates.filter router.registry.available
    ↔ router.Offers candidates key :=
  List.mem_filter

theorem unmet_subset_emulated :
    router.unmet required key ⊆ router.emulated ↔ router.ServesEmulated required key :=
  sdiff_le_comm

theorem ServesNatively.emulated (natively : router.ServesNatively required key) :
    router.ServesEmulated required key :=
  Finset.sdiff_subset.trans natively.2

variable (router) in
/-- The key misses no more of what is required than any available candidate. -/
def MissesFewest (required : Finset Capability) (candidates : List RouteKey) (key : RouteKey) :
    Prop :=
  router.Offers candidates key ∧ ∀ key', router.Offers candidates key' →
    (router.unmet required key).card ≤ (router.unmet required key').card

/-! ## The steps of the router -/

theorem pickNative_eq_some (picked : router.pickNative required available = some key) :
    key ∈ available ∧ router.ServesNatively required key :=
  ⟨List.mem_of_find?_eq_some picked, by simpa [ServesNatively] using List.find?_some picked⟩

theorem pickNative_eq_none :
    router.pickNative required available = none
      ↔ ∀ key ∈ available, ¬ router.ServesNatively required key := by
  simp [pickNative, ServesNatively]

theorem levels_unmet : Levels
    (fun a b => decide ((router.unmet required a).card < (router.unmet required b).card))
    available where
  asymm _ _ _ _ below := by
    simp only [decide_eq_true_eq, decide_eq_false_iff_not, not_lt] at below ⊢
    exact below.le
  level _ _ _ _ _ _ first second := by
    simp only [decide_eq_false_iff_not, not_lt] at first second ⊢
    exact second.trans first

theorem best_missesFewest
    (best : router.best required (candidates.filter router.registry.available) = some key) :
    router.MissesFewest required candidates key := by
  have first := firstLeast_isFirstLeast levels_unmet best
  refine ⟨mem_available.mp first.mem, fun key' offers => ?_⟩
  have notBelow := first.least levels_unmet key' (mem_available.mpr offers)
  simpa using notBelow

theorem best_of_front (fewest : router.MissesFewest required (key :: candidates) key) :
    router.best required ((key :: candidates).filter router.registry.available) = some key := by
  have offered : router.registry.available key = true := fewest.1.2
  rw [List.filter_cons_of_pos offered]
  refine (firstLeast_eq_some_iff levels_unmet).mpr ⟨[], _, rfl, by simp, fun key' mem => ?_⟩
  have offers := mem_available.mp mem
  simpa using fewest.2 key' ⟨List.mem_cons_of_mem key offers.1, offers.2⟩

theorem offers_perm (perm : candidates'.Perm candidates) :
    router.Offers candidates' key ↔ router.Offers candidates key :=
  and_congr_left' perm.mem_iff

theorem missesFewest_perm (perm : candidates'.Perm candidates) :
    router.MissesFewest required candidates' key ↔ router.MissesFewest required candidates key := by
  simp only [MissesFewest, offers_perm perm]

/-! ## What routing decides -/

variable {d : RouteDecision} {e : CapabilityError}

theorem route_eq_ok (unforced : router.forcedMode = none)
    (routed : router.route req candidates = .ok d) :
    router.Offers candidates d.key
      ∧ (d.mode = .native ∧ router.ServesNatively (router.effective req) d.key
        ∨ (∀ key, router.Offers candidates key → ¬ router.ServesNatively (router.effective req) key)
          ∧ d.mode ≠ .native ∧ router.ServesEmulated (router.effective req) d.key) := by
  simp only [route, unforced, reduceCtorEq, if_false] at routed
  cases picked : router.pickNative (router.effective req)
      (candidates.filter router.registry.available) with
  | some key =>
    rw [picked] at routed
    obtain rfl := Except.ok.inj routed
    obtain ⟨mem, serves⟩ := pickNative_eq_some picked
    exact ⟨mem_available.mp mem, .inl ⟨rfl, serves⟩⟩
  | none =>
    rw [picked] at routed
    have noNative : ∀ key, router.Offers candidates key →
        ¬ router.ServesNatively (router.effective req) key := fun key offers =>
      pickNative_eq_none.mp picked key (mem_available.mpr offers)
    cases offered : candidates.filter router.registry.available with
    | nil =>
      rw [offered] at routed
      cases routed
    | cons first rest =>
      have offers : router.Offers candidates first :=
        mem_available.mp (offered ▸ List.mem_cons_self)
      simp only [offered] at routed
      split at routed
      case isTrue nothing =>
        obtain rfl := Except.ok.inj routed
        refine ⟨offers, .inr ⟨noNative, nofun, ?_⟩⟩
        rw [nothing]
        exact Finset.sdiff_subset.trans (Finset.empty_subset _)
      case isFalse _ =>
        rw [← offered] at routed
        cases picked' : router.best (router.effective req)
            (candidates.filter router.registry.available) with
        | none =>
          rw [picked'] at routed
          cases routed
        | some key =>
          simp only [picked'] at routed
          split at routed
          case isTrue met =>
            obtain rfl := Except.ok.inj routed
            exact ⟨(best_missesFewest picked').1,
              .inr ⟨noNative, nofun, unmet_subset_emulated.mp met⟩⟩
          case isFalse _ => cases routed

/-- A failure without a forced mode: nothing is native enough, and either nothing is available or
a key that misses the fewest misses something that is not emulated. -/
theorem route_eq_error (unforced : router.forcedMode = none)
    (routed : router.route req candidates = .error e) :
    (∀ key, router.Offers candidates key → ¬ router.ServesNatively (router.effective req) key)
      ∧ ((∀ key, ¬ router.Offers candidates key)
        ∨ ∃ key, router.MissesFewest (router.effective req) candidates key
          ∧ ¬ router.ServesEmulated (router.effective req) key) := by
  simp only [route, unforced, reduceCtorEq, if_false] at routed
  cases picked : router.pickNative (router.effective req)
      (candidates.filter router.registry.available) with
  | some key =>
    rw [picked] at routed
    cases routed
  | none =>
    refine ⟨fun key offers => pickNative_eq_none.mp picked key (mem_available.mpr offers), ?_⟩
    rw [picked] at routed
    cases offered : candidates.filter router.registry.available with
    | nil =>
      left
      intro key offers
      have mem := mem_available.mpr offers
      rw [offered] at mem
      cases mem
    | cons first rest =>
      right
      simp only [offered] at routed
      split at routed
      case isTrue _ => cases routed
      case isFalse _ =>
        rw [← offered] at routed
        cases picked' : router.best (router.effective req)
            (candidates.filter router.registry.available) with
        | none => rw [best, offered, firstLeast] at picked'; cases picked'
        | some key =>
          simp only [picked'] at routed
          split at routed
          case isTrue _ => cases routed
          case isFalse unmet =>
            exact ⟨key, best_missesFewest picked', fun serves =>
              unmet (unmet_subset_emulated.mpr serves)⟩

theorem route_front_eq_error (unforced : router.forcedMode = none)
    (fewest : router.MissesFewest (router.effective req) (key :: candidates) key)
    (noNative : ∀ key', router.Offers (key :: candidates) key' →
      ¬ router.ServesNatively (router.effective req) key')
    (unserved : ¬ router.ServesEmulated (router.effective req) key) :
    ∃ e, router.route req (key :: candidates) = .error e := by
  have picked : router.pickNative (router.effective req)
      ((key :: candidates).filter router.registry.available) = none :=
    pickNative_eq_none.mpr fun key' mem => noNative key' (mem_available.mp mem)
  have front := best_of_front fewest
  have needed : router.effective req ≠ ∅ := by
    intro nothing
    apply unserved
    rw [nothing]
    exact Finset.sdiff_subset.trans (Finset.empty_subset _)
  have unmet : ¬ router.unmet (router.effective req) key ⊆ router.emulated := fun met =>
    unserved (unmet_subset_emulated.mp met)
  refine ⟨router.failure req (key :: candidates), ?_⟩
  simp only [route, unforced, reduceCtorEq, if_false]
  rw [picked]
  rw [List.filter_cons_of_pos fewest.1.2] at front ⊢
  simp only [if_neg needed, front, if_neg unmet]

variable (router) in
/-- Routing answers as the declarations of the available candidates say, whatever their order. -/
structure RoutesExactly (req : RouteRequest) (candidates : List RouteKey) : Prop where
  decides : (∃ d, router.route req candidates = .ok d)
    ↔ ∃ key, router.Offers candidates key
      ∧ (router.ServesNatively (router.effective req) key
        ∨ router.ServesEmulated (router.effective req) key)
  key : ∀ d, router.route req candidates = .ok d →
    router.Offers candidates d.key
      ∧ (router.ServesNatively (router.effective req) d.key
        ∨ router.ServesEmulated (router.effective req) d.key)
  native : ∀ d, router.route req candidates = .ok d →
    (∃ key, router.Offers candidates key ∧ router.ServesNatively (router.effective req) key) →
      d.mode = .native
  order : ∀ candidates' : List RouteKey, candidates'.Perm candidates →
    ((∃ e, router.route req candidates' = .error e)
      ↔ ∃ e, router.route req candidates = .error e)

variable (router) in
/-- Some available candidate is native enough, or none would do even with what is emulated, or all
those that miss the fewest would. -/
def WinnersServe (req : RouteRequest) (candidates : List RouteKey) : Prop :=
  (∃ key, router.Offers candidates key ∧ router.ServesNatively (router.effective req) key)
    ∨ (∀ key, router.Offers candidates key → ¬ router.ServesEmulated (router.effective req) key)
    ∨ ∀ key, router.MissesFewest (router.effective req) candidates key →
        router.ServesEmulated (router.effective req) key

variable (router) in
theorem ok_or_error (req : RouteRequest) (candidates : List RouteKey) :
    (∃ d, router.route req candidates = .ok d) ∨ ∃ e, router.route req candidates = .error e := by
  cases router.route req candidates with
  | ok d => exact .inl ⟨d, rfl⟩
  | error e => exact .inr ⟨e, rfl⟩

theorem offered_of_ok (unforced : router.forcedMode = none)
    (routed : ∃ d, router.route req candidates = .ok d) :
    ∃ key, router.Offers candidates key ∧ router.ServesEmulated (router.effective req) key := by
  obtain ⟨d, routed⟩ := routed
  obtain ⟨offers, ⟨-, natively⟩ | ⟨-, -, emulated⟩⟩ := route_eq_ok unforced routed
  · exact ⟨d.key, offers, natively.emulated⟩
  · exact ⟨d.key, offers, emulated⟩

theorem error_iff_of_winnersServe (unforced : router.forcedMode = none)
    (winners : router.WinnersServe req candidates) :
    (∃ e, router.route req candidates = .error e)
      ↔ ∀ key, router.Offers candidates key →
          ¬ router.ServesEmulated (router.effective req) key := by
  constructor
  · rintro ⟨e, routed⟩
    obtain ⟨noNative, failed⟩ := route_eq_error unforced routed
    rcases winners with ⟨key, offers, natively⟩ | unserved | served
    · exact absurd natively (noNative key offers)
    · exact unserved
    · rcases failed with nothing | ⟨key, fewest, not⟩
      · exact fun key offers => absurd offers (nothing key)
      · exact absurd (served key fewest) not
  · intro unserved
    refine (ok_or_error router req candidates).resolve_left fun routed => ?_
    obtain ⟨key, offers, serves⟩ := offered_of_ok unforced routed
    exact unserved key offers serves

theorem winnersServe_perm (perm : candidates'.Perm candidates) :
    router.WinnersServe req candidates' ↔ router.WinnersServe req candidates := by
  simp only [WinnersServe, offers_perm perm, missesFewest_perm perm]

/-- **Without a forced mode the router answers as the declarations of the candidates say, in every
order, just when the keys that miss the fewest would do wherever a key would.** -/
theorem route_exact_iff (unforced : router.forcedMode = none) :
    router.RoutesExactly req candidates ↔ router.WinnersServe req candidates := by
  constructor
  · intro exactly
    by_contra losing
    simp only [WinnersServe, not_or] at losing
    obtain ⟨noNative, someServes, someFails⟩ := losing
    push Not at noNative someServes someFails
    obtain ⟨served, offered, serves⟩ := someServes
    obtain ⟨key, fewest, unserved⟩ := someFails
    -- the key that will not do is put in front of the others
    have perm : (key :: candidates.erase key).Perm candidates :=
      (List.perm_cons_erase fewest.1.1).symm
    have fails := route_front_eq_error unforced ((missesFewest_perm perm).mpr fewest)
      (fun key' offers => noNative key' ((offers_perm perm).mp offers)) unserved
    obtain ⟨e, failed⟩ := (exactly.order _ perm).mp fails
    obtain ⟨d, routed⟩ := exactly.decides.mpr ⟨served, offered, .inr serves⟩
    rw [failed] at routed
    cases routed
  · intro winners
    have failsAlike := error_iff_of_winnersServe unforced winners
    constructor
    case decides =>
      constructor
      · intro routed
        obtain ⟨key, offers, serves⟩ := offered_of_ok unforced routed
        exact ⟨key, offers, .inr serves⟩
      · rintro ⟨key, offers, serves⟩
        refine (ok_or_error router req candidates).resolve_right fun failed => ?_
        refine failsAlike.mp failed key offers ?_
        exact serves.elim ServesNatively.emulated id
    case key =>
      intro d routed
      obtain ⟨offers, serves⟩ := route_eq_ok unforced routed
      exact ⟨offers, serves.imp And.right fun h => h.2.2⟩
    case native =>
      rintro d routed ⟨key, offers, natively⟩
      obtain ⟨-, ⟨mode, -⟩ | ⟨noNative, -⟩⟩ := route_eq_ok unforced routed
      · exact mode
      · exact absurd natively (noNative key offers)
    case order =>
      intro candidates' perm
      rw [error_iff_of_winnersServe unforced ((winnersServe_perm perm).mpr winners), failsAlike]
      simp only [offers_perm perm]

/-- A router as the default configuration makes it. -/
def ofKeys (keys : List RouteKey) : CapabilityRouter where
  registry := staticRouteRegistry keys
  forcedMode := none
  emulated := defaultEmulatedCapabilities
  forwarded := upstreamForwardedCapabilities
  setOrder := Capability.sorted

/-- An available key that is not native. -/
def plainRouteKey (name : String) (capabilities : List String) : RouteKey where
  name := name
  capabilities := capabilities.map .text
  upstreamMode := "bonded"
  upstreamProtocol := "openai"
  isAvailable := true

/-- A stateful background request that searches files. -/
def searchInBackground : RouteRequest where
  hostedTools := [⟨some .fileSearch, "tools[0].type"⟩]
  requiredCapabilities := {.statefulResponses, .background, .fileSearch}

/-- One key misses only the file search, which the bridge cannot emulate; the other declares just
that, and misses what the bridge can. -/
def searchKeys : List RouteKey :=
  [plainRouteKey "stateful" ["stateful_responses", "background"],
    plainRouteKey "searching" ["file_search"]]

/-- The router refuses what the second key would do. -/
theorem searchKeys_refused :
    ¬ (ofKeys searchKeys).RoutesExactly searchInBackground searchKeys := by
  intro exactly
  have offered :
      (ofKeys searchKeys).Offers searchKeys (plainRouteKey "searching" ["file_search"]) :=
    ⟨by simp [searchKeys], rfl⟩
  obtain ⟨d, routed⟩ := exactly.decides.mpr ⟨_, offered, .inr (by decide +kernel)⟩
  have found :
      ((ofKeys searchKeys).route searchInBackground searchKeys).toOption.isSome = true := by
    rw [routed]
    rfl
  exact absurd found (by decide +kernel)

/-- With the second key alone there is a route. -/
theorem searchingKey_routesExactly :
    (ofKeys searchKeys).RoutesExactly searchInBackground
      [plainRouteKey "searching" ["file_search"]] := by
  refine (route_exact_iff rfl).mpr (.inr (.inr fun key fewest => ?_))
  obtain rfl := List.mem_singleton.mp fewest.1.1
  decide +kernel

end CapabilityRouter

end Zhongzhuan.Responses
