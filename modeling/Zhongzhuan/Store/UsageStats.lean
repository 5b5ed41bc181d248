import Zhongzhuan.Kit.Grouping
import Zhongzhuan.Kit.Text
import Zhongzhuan.Store.RequestLogs

/-!
# The usage of the models

The model of the list `by_model` of `get_usage_stats` in `store/logs.py`.  The query groups the
successful logs of the period by the name as it was logged, group and member, and returns the
twenty groups with the most requests.  Only then is the name of the client split off, are
unconfigured names dropped and the groups of one client merged.

* `SELECT .. GROUP BY` is `selectGroups`.  The order of groups with as many requests is the
  database's (`CountOrder`); names are grouped as equal texts.
* `mem_usageByModel_iff` says what the list contains.
* `usageStats_exact_iff` says when it is what its readers take it for: nothing that counts was
  cut off by the limit of the query.

Costs are floats and are left out, as are the totals and the list by days, which are queries of
their own.
-/

namespace Zhongzhuan.Store

open Kit

/-! ## Counters -/

/-- The counters of an entry. -/
@[ext] structure Usage where
  requests : ℕ
  tokensIn : ℤ
  tokensOut : ℤ
deriving DecidableEq, Repr

namespace Usage

instance : Zero Usage := ⟨⟨0, 0, 0⟩⟩

instance : Add Usage :=
  ⟨fun a b => ⟨a.requests + b.requests, a.tokensIn + b.tokensIn, a.tokensOut + b.tokensOut⟩⟩

@[simp] theorem requests_zero : (0 : Usage).requests = 0 := rfl

@[simp] theorem requests_add (a b : Usage) : (a + b).requests = a.requests + b.requests := rfl

theorem add_assoc (a b c : Usage) : a + b + c = a + (b + c) :=
  Usage.ext (Nat.add_assoc _ _ _) (Int.add_assoc _ _ _) (Int.add_assoc _ _ _)

theorem zero_add (a : Usage) : 0 + a = a :=
  Usage.ext (Nat.zero_add _) (Int.zero_add _) (Int.zero_add _)

theorem add_zero (a : Usage) : a + 0 = a :=
  Usage.ext (Nat.add_zero _) (Int.add_zero _) (Int.add_zero _)

theorem add_comm (a b : Usage) : a + b = b + a :=
  Usage.ext (Nat.add_comm _ _) (Int.add_comm _ _) (Int.add_comm _ _)

instance : AddCommMonoid Usage where
  add_assoc := add_assoc
  zero_add := zero_add
  add_zero := add_zero
  add_comm := add_comm
  nsmul := nsmulRec

end Usage

/-- What a log counts for. -/
def LogRow.usage (row : LogRow) : Usage := ⟨1, row.tokensIn, row.tokensOut⟩

/-- `COUNT(*)`, `SUM(tokens_in)` and `SUM(tokens_out)`; the sum of no rows is read as zero. -/
def usageOf (rows : List LogRow) : Usage :=
  ⟨rows.length, (rows.map LogRow.tokensIn).sum, (rows.map LogRow.tokensOut).sum⟩

theorem usageOf_eq_sum (rows : List LogRow) : usageOf rows = (rows.map LogRow.usage).sum := by
  induction rows with
  | nil => rfl
  | cons row rows ih =>
      rw [List.map_cons, List.sum_cons, ← ih]
      exact Usage.ext (Nat.add_comm _ _) (List.sum_cons ..) (List.sum_cons ..)

/-! ## The query -/

/-- `ts>=? AND status>=200 AND status<300`. -/
def successful (since : ℤ) (row : LogRow) : Bool :=
  decide (since ≤ row.ts) && decide (200 ≤ row.status) && decide (row.status < 300)

/-- A row of the result. -/
structure UsageGroup where
  modelName : String
  usage : Usage
deriving DecidableEq, Repr

/-- `ORDER BY COUNT(*) DESC`. -/
structure CountOrder where
  sort : List UsageGroup → List UsageGroup
  perm : ∀ groups, (sort groups).Perm groups
  sorted : ∀ groups, (sort groups).Pairwise fun a b => b.usage.requests ≤ a.usage.requests

/-- `GROUP BY model_name`. -/
def groupsOf (rows : List LogRow) : List UsageGroup :=
  (rows.map LogRow.modelName).dedup.map fun name =>
    ⟨name, usageOf (rows.filter fun row => row.modelName = name)⟩

/-- The groups in the order of the query. -/
def orderedGroups (order : CountOrder) (rows : List LogRow) : List UsageGroup :=
  order.sort (groupsOf rows)

/-- The query of `get_usage_stats` for the models. -/
def selectGroups (order : CountOrder) (rows : List LogRow) : List UsageGroup :=
  (orderedGroups order rows).take 20

/-! ## Configured names -/

/-- A model, with the columns that are read. -/
structure ConfiguredModel where
  name : String
  aliases : String
deriving DecidableEq, Repr

/-- The parts of `a.split(",")` that are not blank, stripped. -/
def aliasNames (aliases : String) : List String :=
  ((aliases.toList.splitOnP (· = ',')).map fun part => stripText (String.ofList part)).filter
    fun name => name ≠ ""

/-- The name of a model and its aliases. -/
def ConfiguredModel.names (m : ConfiguredModel) : List String :=
  m.name :: if m.aliases = "" then [] else aliasNames m.aliases

/-- What `list_models` and `list_groups` return; `none` when they raise. -/
structure UsageConfig where
  models : Option (List ConfiguredModel)
  groups : Option (List String)
deriving DecidableEq, Repr

/-- `configured_names`, a set. -/
def UsageConfig.names (config : UsageConfig) : List String :=
  (config.models.getD []).flatMap ConfiguredModel.names
    ++ (config.groups.getD []).filter fun name => name ≠ ""

/-- A client is shown: it is configured, or nothing is. -/
def UsageConfig.shows (config : UsageConfig) (client : String) : Bool :=
  decide (config.names = []) || decide (client ∈ config.names)

/-! ## The list -/

/-- The name of the client: what stands before the first parenthesis. -/
def clientName (raw : String) : String :=
  let client := stripText (String.ofList (raw.toList.takeWhile (· ≠ '(')))
  if client = "" then "unknown" else client

/-- An entry of `by_model`. -/
structure UsageEntry where
  modelName : String
  requests : ℕ
  tokensIn : ℤ
  tokensOut : ℤ
deriving DecidableEq, Repr

/-- The counters of an entry. -/
def UsageEntry.usage (entry : UsageEntry) : Usage :=
  ⟨entry.requests, entry.tokensIn, entry.tokensOut⟩

/-- The entry of a bucket. -/
def bucketEntry (bucket : String × Usage) : UsageEntry :=
  ⟨bucket.1, bucket.2.requests, bucket.2.tokensIn, bucket.2.tokensOut⟩

@[simp] theorem usage_bucketEntry (bucket : String × Usage) :
    (bucketEntry bucket).usage = bucket.2 := rfl

@[simp] theorem modelName_bucketEntry (bucket : String × Usage) :
    (bucketEntry bucket).modelName = bucket.1 := rfl

/-- What the loop over the rows of the query adds up. -/
def shownGroups (config : UsageConfig) (groups : List UsageGroup) : List (String × Usage) :=
  (groups.filter fun group => config.shows (clientName group.modelName)).map fun group =>
    (clientName group.modelName, group.usage)

/-- `buckets`. -/
def bucketsOf (config : UsageConfig) (groups : List UsageGroup) : Dict String Usage :=
  (shownGroups config groups).foldl addTo .empty

/-- `by_model` of `get_usage_stats` on the successful rows of the period. -/
def usageByModel (order : CountOrder) (config : UsageConfig) (rows : List LogRow) :
    List UsageEntry :=
  (((bucketsOf config (selectGroups order rows)).entries.mergeSort
    fun a b => decide (b.2.requests ≤ a.2.requests)).take 20).map bucketEntry

/-- The rows that `get_usage_stats` looks at. -/
def usageRows (logs : RequestLogs) (now days : ℤ) : List LogRow :=
  logs.rows.filter (successful (now - days * 86400))

/-! ## What the list contains -/

/-- The total of some groups of a client. -/
def clientTotal (groups : List UsageGroup) (client : String) : Usage :=
  totalOf UsageGroup.usage (fun group => clientName group.modelName = client) groups

section

variable {order : CountOrder} {config : UsageConfig} {rows : List LogRow}
  {groups : List UsageGroup} {client : String}

theorem mem_keys_shownGroups :
    client ∈ (shownGroups config groups).map Prod.fst
      ↔ config.shows client = true ∧ ∃ group ∈ groups, clientName group.modelName = client := by
  unfold shownGroups
  simp only [List.map_map, List.mem_map, List.mem_filter, Function.comp_apply]
  constructor
  · rintro ⟨group, ⟨inside, shown⟩, same⟩
    exact ⟨same ▸ shown, group, inside, same⟩
  · rintro ⟨shown, group, inside, same⟩
    exact ⟨group, ⟨inside, same ▸ shown⟩, same⟩

theorem totalOf_shownGroups (shown : config.shows client = true) :
    totalOf Prod.snd (fun entry => entry.1 = client) (shownGroups config groups)
      = clientTotal groups client := by
  unfold shownGroups clientTotal
  rw [totalOf_map, totalOf_filter]
  refine totalOf_congr _ fun group _ => ?_
  by_cases same : clientName group.modelName = client
  · rw [same, shown, Bool.and_true]
  · rw [decide_eq_false same, Bool.false_and]

theorem get?_bucketsOf (config : UsageConfig) (groups : List UsageGroup) (client : String) :
    (bucketsOf config groups).get? client
      = if config.shows client = true ∧ ∃ group ∈ groups, clientName group.modelName = client then
          some (clientTotal groups client)
        else none := by
  unfold bucketsOf
  rw [get?_foldl_addTo]
  simp only [mem_keys_shownGroups]
  split
  case isTrue both =>
    rw [totalOf_shownGroups both.1, Dict.get?_empty, Option.getD_none]
    exact congrArg some (Usage.zero_add _)
  · rfl

theorem length_bucketsOf (config : UsageConfig) (groups : List UsageGroup) :
    (bucketsOf config groups).entries.length ≤ groups.length := by
  have added := length_foldl_addTo (Dict.empty : Dict String Usage) (shownGroups config groups)
  have shown : (shownGroups config groups).length ≤ groups.length := by
    rw [shownGroups, List.length_map]
    exact List.length_filter_le _ _
  change (bucketsOf config groups).entries.length ≤ 0 + _ at added
  omega

/-- **What the list contains**: the clients that are shown and have a group among those the
query returns, each with the total of these groups. -/
theorem mem_usageByModel_iff {entry : UsageEntry} :
    entry ∈ usageByModel order config rows
      ↔ config.shows entry.modelName = true
        ∧ (∃ group ∈ selectGroups order rows, clientName group.modelName = entry.modelName)
        ∧ entry.usage = clientTotal (selectGroups order rows) entry.modelName := by
  have few : (bucketsOf config (selectGroups order rows)).entries.length ≤ 20 :=
    (length_bucketsOf config _).trans (List.length_take_le _ _)
  have stored : entry ∈ usageByModel order config rows
      ↔ (entry.modelName, entry.usage) ∈ (bucketsOf config (selectGroups order rows)).entries := by
    unfold usageByModel
    rw [List.take_of_length_le (by rwa [List.length_mergeSort])]
    constructor
    · intro mem
      obtain ⟨bucket, inside, rfl⟩ := List.mem_map.mp mem
      exact List.mem_mergeSort.mp inside
    · intro mem
      exact List.mem_map.mpr ⟨_, List.mem_mergeSort.mpr mem, rfl⟩
  rw [stored, Dict.mem_entries, get?_bucketsOf]
  constructor
  · intro found
    split at found
    case isTrue both => exact ⟨both.1, both.2, (Option.some.inj found).symm⟩
    case isFalse => cases found
  · rintro ⟨shown, group, total⟩
    rw [if_pos ⟨shown, group⟩, total]

theorem bucketEntry_mem (shown : config.shows client = true)
    (left : ∃ group ∈ selectGroups order rows, clientName group.modelName = client) :
    bucketEntry (client, clientTotal (selectGroups order rows) client)
      ∈ usageByModel order config rows :=
  mem_usageByModel_iff.mpr ⟨shown, left, rfl⟩

end

/-! ## When the list is exact -/

/-- The exact counters of a client: those of the logs with its name. -/
def clientUsage (rows : List LogRow) (client : String) : Usage :=
  usageOf (rows.filter fun row => clientName row.modelName = client)

/-- A configured name with one of the twenty largest counts, whichever way equal counts are
ordered: fewer than twenty other names have as many requests. -/
def AmongLargest (config : UsageConfig) (rows : List LogRow) (name : String) : Prop :=
  (config.names.dedup.filter fun other =>
    other ≠ name ∧ (clientUsage rows name).requests ≤ (clientUsage rows other).requests).length
      < 20

/-- What the readers of the list take it for: the counters of an entry are those of its client,
and the configured clients with the most requests are there. -/
structure StatsExact (config : UsageConfig) (rows : List LogRow) (entries : List UsageEntry) :
    Prop where
  exact_counters : ∀ entry ∈ entries, entry.usage = clientUsage rows entry.modelName
  complete : ∀ name ∈ config.names, 0 < (clientUsage rows name).requests →
    AmongLargest config rows name → ∃ entry ∈ entries, entry.modelName = name

/-- The groups that the limit of the query cuts off. -/
def cutGroups (order : CountOrder) (rows : List LogRow) : List UsageGroup :=
  (orderedGroups order rows).drop 20

section

variable {order : CountOrder} {config : UsageConfig} {rows : List LogRow}

theorem clientTotal_groupsOf (rows : List LogRow) (client : String) :
    clientTotal (groupsOf rows) client = clientUsage rows client := by
  have names : ∀ row ∈ rows, row.modelName ∈ (rows.map LogRow.modelName).dedup := fun row mem =>
    List.mem_dedup.mpr (List.mem_map_of_mem mem)
  have whole := sum_groups LogRow.modelName LogRow.usage (fun name => clientName name = client)
    (rows.map LogRow.modelName).nodup_dedup names
  unfold clientTotal groupsOf clientUsage
  rw [usageOf_eq_sum, totalOf_map]
  unfold totalOf at whole ⊢
  rw [← whole]
  refine congrArg List.sum (List.map_congr_left fun name _ => ?_)
  exact usageOf_eq_sum _

theorem clientTotal_add (order : CountOrder) (rows : List LogRow) (client : String) :
    clientTotal (selectGroups order rows) client + clientTotal (cutGroups order rows) client
      = clientUsage rows client := by
  rw [← clientTotal_groupsOf]
  unfold clientTotal
  rw [← totalOf_append, selectGroups, cutGroups, List.take_append_drop]
  exact totalOf_perm _ _ (order.perm (groupsOf rows))

theorem requests_pos {group : UsageGroup} (mem : group ∈ groupsOf rows) :
    0 < group.usage.requests := by
  obtain ⟨name, inside, rfl⟩ := List.mem_map.mp mem
  obtain ⟨row, here, isName⟩ := List.mem_map.mp (List.mem_dedup.mp inside)
  refine List.length_pos_of_mem (List.mem_filter.mpr ⟨here, ?_⟩)
  exact decide_eq_true isName

theorem requests_clientTotal_pos {groups : List UsageGroup} (client : String)
    (positive : ∀ group ∈ groups, 0 < group.usage.requests) :
    0 < (clientTotal groups client).requests
      ↔ ∃ group ∈ groups, clientName group.modelName = client := by
  unfold clientTotal
  induction groups with
  | nil => simp [totalOf]
  | cons group groups ih =>
      have rest := ih fun other mem => positive other (List.mem_cons_of_mem group mem)
      have here := positive group List.mem_cons_self
      rw [totalOf_cons, List.exists_mem_cons_iff, ← rest]
      by_cases same : clientName group.modelName = client
      · rw [if_pos (decide_eq_true same)]
        refine iff_of_true ?_ (.inl same)
        exact Nat.add_pos_left here _
      · rw [if_neg (by simpa using same), Usage.zero_add, or_iff_right same]

theorem cut_positive (order : CountOrder) (rows : List LogRow) :
    ∀ group ∈ cutGroups order rows, 0 < group.usage.requests := fun _ mem =>
  requests_pos ((order.perm (groupsOf rows)).mem_iff.mp (List.mem_of_mem_drop mem))

theorem clientTotal_eq_iff (order : CountOrder) (rows : List LogRow) (client : String) :
    clientTotal (selectGroups order rows) client = clientUsage rows client
      ↔ ∀ group ∈ cutGroups order rows, clientName group.modelName ≠ client := by
  have whole := clientTotal_add order rows client
  have positive := requests_clientTotal_pos client (cut_positive order rows)
  constructor
  · intro same group mem isClient
    have some := positive.mpr ⟨group, mem, isClient⟩
    rw [← same] at whole
    have counts := congrArg Usage.requests whole
    rw [Usage.requests_add] at counts
    omega
  · intro none
    have nothing : clientTotal (cutGroups order rows) client = 0 := by
      unfold clientTotal totalOf
      rw [List.filter_eq_nil_iff.mpr fun group mem => by simpa using none group mem]
      rfl
    rw [← whole, nothing, Usage.add_zero]

end

/-- **When the usage of the models is exact.**  For every table of logs, configuration, period
and order of equal groups: no group that the limit cuts off counts for a client that is shown
and has another group left, and the configured clients with the most requests have one left. -/
theorem usageStats_exact_iff (order : CountOrder) (config : UsageConfig) (logs : RequestLogs)
    (now days : ℤ) :
    StatsExact config (usageRows logs now days)
        (usageByModel order config (usageRows logs now days))
      ↔ (∀ cut ∈ cutGroups order (usageRows logs now days),
          config.shows (clientName cut.modelName) = true →
          ∀ group ∈ selectGroups order (usageRows logs now days),
            clientName group.modelName ≠ clientName cut.modelName)
        ∧ ∀ name ∈ config.names, 0 < (clientUsage (usageRows logs now days) name).requests →
            AmongLargest config (usageRows logs now days) name →
            ∃ group ∈ selectGroups order (usageRows logs now days),
              clientName group.modelName = name := by
  generalize usageRows logs now days = rows
  constructor
  · rintro ⟨counters, complete⟩
    constructor
    · intro cut isCut shown group mem same
      have total := counters _ (bucketEntry_mem shown ⟨group, mem, same⟩)
      rw [usage_bucketEntry, modelName_bucketEntry] at total
      dsimp only at total
      have other := (clientTotal_eq_iff order rows (clientName cut.modelName)).mp total
      exact other cut isCut rfl
    · intro name configured busy largest
      obtain ⟨entry, inside, rfl⟩ := complete name configured busy largest
      exact (mem_usageByModel_iff.mp inside).2.1
  · rintro ⟨uncut, busyLeft⟩
    constructor
    · intro entry inside
      obtain ⟨shown, ⟨group, mem, same⟩, total⟩ := mem_usageByModel_iff.mp inside
      rw [total]
      refine (clientTotal_eq_iff order rows _).mpr fun cut isCut isClient => ?_
      exact uncut cut isCut (isClient ▸ shown) group mem (same.trans isClient.symm)
    · intro name configured busy largest
      obtain ⟨group, mem, same⟩ := busyLeft name configured busy largest
      have shown : config.shows name = true := by
        unfold UsageConfig.shows
        rw [decide_eq_true configured, Bool.or_true]
      exact ⟨_, bucketEntry_mem shown ⟨group, mem, same⟩, rfl⟩

/-! ## One group, served by many members -/

/-- Insertion sort, which keeps the order of groups with as many requests. -/
def stableOrder : CountOrder where
  sort := List.insertionSort fun a b => b.usage.requests ≤ a.usage.requests
  perm := List.perm_insertionSort _
  sorted groups := List.pairwise_insertionSort _ groups

/-- A request for the group `g` that a member served. -/
def servedBy (member : String) : LogEntry where
  ts := 1000
  clientIp := "10.0.0.1"
  modelName := "g"
  memberModel := member
  resolvedModelId := none
  keyId := some 1
  status := 200
  latencyMs := 10
  tokensIn := 5
  tokensOut := 7
  error := ""
  requestId := "r"
  inboundProtocol := "openai"
  outboundProtocol := "openai"
  translated := false

/-- One request for each of twenty-one members. -/
def manyMembers : RequestLogs :=
  ((List.range 21).map fun i => servedBy ("m" ++ toString i)).foldl RequestLogs.logRequest .empty

/-- The group is configured. -/
def groupConfigured : UsageConfig := ⟨some [], some ["g"]⟩

/-- The entry of the group counts twenty of its twenty-one requests. -/
theorem manyMembers_miscounted :
    ¬ StatsExact groupConfigured (usageRows manyMembers 1000 7)
      (usageByModel stableOrder groupConfigured (usageRows manyMembers 1000 7)) := by
  intro stats
  have left : ∃ group ∈ selectGroups stableOrder (usageRows manyMembers 1000 7),
      clientName group.modelName = "g" := by
    decide +kernel
  have counters := stats.exact_counters _
    (bucketEntry_mem (show groupConfigured.shows "g" = true by decide +kernel) left)
  have counted : (clientTotal (selectGroups stableOrder (usageRows manyMembers 1000 7))
      "g").requests = 20 := by
    decide +kernel
  have logged : (clientUsage (usageRows manyMembers 1000 7) "g").requests = 21 := by
    decide +kernel
  rw [usage_bucketEntry, modelName_bucketEntry] at counters
  dsimp only at counters
  rw [counters, logged] at counted
  exact absurd counted (by decide)

end Zhongzhuan.Store
