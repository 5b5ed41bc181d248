import Zhongzhuan.Kit.Runs
import Zhongzhuan.Protocol.TranslateRequest

/-!
# Merged messages

The messages that `translate_request_o2a` sends.  `_merge_consecutive_same_role` is `mergeRuns`, the
runs being messages under their role: what it puts out alternates, and nothing is lost, moved or
doubled (`translateRequestO2A_merged`).

Empty turns are taken out twice.  The first time, before the merge, leaves none for the second
(`filter_merged`), which else could put two messages of one role next to each other.
-/

namespace Zhongzhuan.Protocol

open Kit

namespace BlockMessage

/-- A message as blocks under a role. -/
def run (msg : BlockMessage) : Run String Json := ⟨msg.role, msg.blocks⟩

/-- Blocks under a role as a message. -/
def ofRun (run : Run String Json) : BlockMessage := ⟨run.key, run.items⟩

theorem ofRun_run (msg : BlockMessage) : ofRun msg.run = msg := rfl

end BlockMessage

theorem mergeStep_run (merged : List BlockMessage) (msg : BlockMessage) :
    (mergeStep merged msg).map BlockMessage.run
      = pushRun (merged.map BlockMessage.run) msg.run := by
  unfold mergeStep pushRun
  have last : ((merged.map BlockMessage.run).getLast?.map Run.key)
      = merged.getLast?.map BlockMessage.role := by
    rw [List.getLast?_map, Option.map_map]
    rfl
  rw [last]
  by_cases same : merged.getLast?.map BlockMessage.role = some msg.role
  · have same_key : merged.getLast?.map BlockMessage.role = some msg.run.key := same
    rw [if_pos same, if_pos same_key]
    obtain ⟨last, there, -⟩ := Option.map_eq_some_iff.mp same
    obtain ⟨front, rfl⟩ := List.getLast?_eq_some_iff.mp there
    rw [List.modifyLast_concat, List.map_append, List.map_append, List.map_singleton,
      List.map_singleton, List.modifyLast_concat]
    rfl
  · have other_key : ¬merged.getLast?.map BlockMessage.role = some msg.run.key := same
    rw [if_neg same, if_neg other_key, List.map_append]
    rfl

theorem foldl_mergeStep_run (messages merged : List BlockMessage) :
    (messages.foldl mergeStep merged).map BlockMessage.run
      = (messages.map BlockMessage.run).foldl pushRun (merged.map BlockMessage.run) := by
  induction messages generalizing merged with
  | nil => rfl
  | cons msg messages ih =>
    rw [List.foldl_cons, ih, mergeStep_run]
    rfl

theorem filter_merged {messages : List BlockMessage} (nonempty : ∀ m ∈ messages, m.blocks ≠ []) :
    mergeConsecutiveSameRole messages = messages.foldl mergeStep [] := by
  refine List.filter_eq_self.mpr fun msg mem => ?_
  have runs : ∀ r ∈ messages.map BlockMessage.run, r.items ≠ [] := by
    rw [List.forall_mem_map]
    exact nonempty
  have blocks : msg.run.items ≠ [] := by
    refine nonempty_mergeRuns runs _ ?_
    rw [mergeRuns, ← List.map_nil (f := BlockMessage.run), ← foldl_mergeStep_run]
    exact List.mem_map_of_mem mem
  rw [Bool.not_eq_eq_eq_not, Bool.not_true, List.isEmpty_eq_false_iff]
  exact blocks

theorem mergeConsecutiveSameRole_run {messages : List BlockMessage}
    (nonempty : ∀ m ∈ messages, m.blocks ≠ []) :
    (mergeConsecutiveSameRole messages).map BlockMessage.run
      = mergeRuns (messages.map BlockMessage.run) := by
  rw [filter_merged nonempty, foldl_mergeStep_run]
  rfl

/-- What comes out of the merge. -/
structure Merged (messages merged : List BlockMessage) : Prop where
  alternates : merged.IsChain fun msg next => msg.role ≠ next.role
  nonempty : ∀ m ∈ merged, m.blocks ≠ []
  roles : ∀ m ∈ merged, ∃ msg ∈ messages, msg.role = m.role
  blocks : (merged.flatMap fun m => m.blocks.map (m.role, ·))
    = messages.flatMap fun m => m.blocks.map (m.role, ·)

theorem tagged_run (messages : List BlockMessage) :
    tagged (messages.map BlockMessage.run)
      = messages.flatMap fun m => m.blocks.map (m.role, ·) := by
  unfold tagged
  rw [List.flatMap_map]
  rfl

theorem merged_mergeConsecutiveSameRole {messages : List BlockMessage}
    (nonempty : ∀ m ∈ messages, m.blocks ≠ []) :
    Merged messages (mergeConsecutiveSameRole messages) := by
  have eq := mergeConsecutiveSameRole_run nonempty
  have some_block : ∀ m ∈ mergeConsecutiveSameRole messages, m.blocks ≠ [] := by
    intro m mem empty
    have there := (List.mem_filter.mp mem).2
    rw [empty] at there
    cases there
  have blocks : (mergeConsecutiveSameRole messages).flatMap (fun m => m.blocks.map (m.role, ·))
      = messages.flatMap fun m => m.blocks.map (m.role, ·) := by
    rw [← tagged_run, ← tagged_run, eq, tagged_mergeRuns]
  refine ⟨?_, some_block, ?_, blocks⟩
  · have alternates := alternates_mergeRuns (messages.map BlockMessage.run)
    rw [← eq] at alternates
    have chain := (List.isChain_map BlockMessage.run).mp alternates
    exact chain
  · -- the role of a message stands at its first block
    intro m mem
    obtain ⟨block, here⟩ := List.exists_mem_of_ne_nil _ (some_block m mem)
    have there : (m.role, block) ∈ messages.flatMap fun m => m.blocks.map (m.role, ·) := by
      rw [← blocks]
      exact List.mem_flatMap.mpr ⟨m, mem, List.mem_map_of_mem here⟩
    obtain ⟨msg, from_msg, found⟩ := List.mem_flatMap.mp there
    obtain ⟨_, -, same⟩ := List.mem_map.mp found
    exact ⟨msg, from_msg, congrArg Prod.fst same⟩

/-! ## The messages of a request -/

section Request

variable (env : RequestEnv)

/-- The role that a message gets; a system message gets none. -/
def roleO2A (msg : Fields) : Option String :=
  if msg.get "role" = some (.str "system") then none
  else if msg.get "role" = some (.str "assistant") then some "assistant"
  else some "user"

/-- The blocks converted from a message that is no system message. -/
def blocksO2A (msg : Fields) : Option (List Json) :=
  let content := (msg.get "content").getD .null
  if msg.get "role" = some (.str "tool") then
    some [.obj [("type", .str "tool_result"),
      ("tool_use_id", (msg.get "tool_call_id").getD (.str "")),
      ("content", .str (contentToText env content))]]
  else if msg.get "role" = some (.str "assistant") then do
    let blocks ← convertContentO2A env content
    let calls ← (← itemsOr (msg.get "tool_calls")).mapM (convertToolCallO2A env)
    return blocks ++ calls.flatten
  else convertContentO2A env content

/-- The blocks of a message with their role; what is no object has none. -/
def taggedBlocksO2A : Json → Option (List (String × Json))
  | .obj msg =>
    match roleO2A msg with
    | none => some []
    | some role => (blocksO2A env msg).map (List.map (role, ·))
  | _ => some []

theorem convertMessageO2A_blocks {value : Json} {converted : List String × List BlockMessage}
    (h : convertMessageO2A env value = some converted) :
    taggedBlocksO2A env value = some (converted.2.flatMap fun m => m.blocks.map (m.role, ·))
      ∧ ∀ m ∈ converted.2, m.blocks ≠ [] ∧ (m.role = "user" ∨ m.role = "assistant") := by
  -- a turn without blocks is left out
  have turn : ∀ (role : String) (blocks : List Json), role = "user" ∨ role = "assistant" →
      converted = ([], if blocks = [] then [] else [⟨role, blocks⟩]) →
      blocks.map (role, ·) = (converted.2.flatMap fun m => m.blocks.map (m.role, ·))
        ∧ ∀ m ∈ converted.2, m.blocks ≠ [] ∧ (m.role = "user" ∨ m.role = "assistant") := by
    rintro role blocks known rfl
    by_cases empty : blocks = []
    · rw [if_pos empty, empty]
      exact ⟨rfl, List.forall_mem_nil _⟩
    · rw [if_neg empty]
      refine ⟨(List.flatMap_singleton ..).symm, List.forall_mem_singleton.mpr ⟨empty, known⟩⟩
  cases value with
  | obj msg =>
    simp only [convertMessageO2A] at h
    simp only [taggedBlocksO2A, roleO2A, blocksO2A]
    by_cases system : Fields.get msg "role" = some (.str "system")
    · rw [if_pos system] at h ⊢
      obtain rfl := Option.some.inj h
      exact ⟨rfl, List.forall_mem_nil _⟩
    · rw [if_neg system] at h ⊢
      by_cases tool : Fields.get msg "role" = some (.str "tool")
      · have other : ¬Fields.get msg "role" = some (.str "assistant") := by
          rw [tool]
          decide
        rw [if_pos tool] at h ⊢
        rw [if_neg other]
        obtain rfl := Option.some.inj h
        refine ⟨rfl, List.forall_mem_singleton.mpr ⟨List.cons_ne_nil _ _, .inl rfl⟩⟩
      · rw [if_neg tool] at h ⊢
        by_cases assistant : Fields.get msg "role" = some (.str "assistant")
        · rw [if_pos assistant] at h ⊢
          rw [if_pos assistant]
          obtain ⟨blocks, content, h⟩ := Option.bind_eq_some_iff.mp h
          obtain ⟨items, found, h⟩ := Option.bind_eq_some_iff.mp h
          obtain ⟨calls, converted_calls, h⟩ := Option.bind_eq_some_iff.mp h
          obtain ⟨same, rest⟩ := turn "assistant" (blocks ++ calls.flatten) (.inr rfl)
            (Option.some.inj h).symm
          refine ⟨?_, rest⟩
          rw [content, found, ← same]
          simp only [Option.bind_eq_bind, Option.bind_some, converted_calls]
          rfl
        · rw [if_neg assistant] at h ⊢
          rw [if_neg assistant]
          obtain ⟨blocks, there, eq⟩ := Option.map_eq_some_iff.mp h
          obtain ⟨same, rest⟩ := turn "user" blocks (.inl rfl) eq.symm
          refine ⟨?_, rest⟩
          rw [there, ← same]
          rfl
  | null | bool | int | float | str | arr =>
    obtain rfl := Option.some.inj h
    exact ⟨rfl, List.forall_mem_nil _⟩

theorem convertMessagesO2A_blocks {messages : List Json}
    {converted : List String × List BlockMessage}
    (h : convertMessagesO2A env messages = some converted) :
    (∃ blocks, messages.mapM (taggedBlocksO2A env) = some blocks
        ∧ (converted.2.flatMap fun m => m.blocks.map (m.role, ·)) = blocks.flatten)
      ∧ ∀ m ∈ converted.2, m.blocks ≠ [] ∧ (m.role = "user" ∨ m.role = "assistant") := by
  induction messages generalizing converted with
  | nil =>
    obtain rfl := Option.some.inj h
    exact ⟨⟨[], rfl, rfl⟩, List.forall_mem_nil _⟩
  | cons value messages ih =>
    rw [convertMessagesO2A] at h
    obtain ⟨first, here, h⟩ := Option.bind_eq_some_iff.mp h
    obtain ⟨later, there, h⟩ := Option.bind_eq_some_iff.mp h
    obtain rfl := Option.some.inj h
    obtain ⟨block, turns⟩ := convertMessageO2A_blocks env here
    obtain ⟨⟨blocks, found, same⟩, turns'⟩ := ih there
    refine ⟨⟨(first.2.flatMap fun m => m.blocks.map (m.role, ·)) :: blocks, ?_, ?_⟩,
      List.forall_mem_append.mpr ⟨turns, turns'⟩⟩
    · rw [List.mapM_cons, block, found]
      rfl
    · rw [List.flatMap_append, same, List.flatten_cons]

theorem get_append_of_none {front : Fields} {key : String} (none_there : front.get key = none)
    (back : Fields) : Fields.get (front ++ back) key = back.get key := by
  unfold Fields.get at none_there ⊢
  rw [List.lookup_append, none_there, Option.none_or]

theorem get_renamed_of_ne {key name : String} (other : key ≠ name) (value : Option Json) :
    Fields.get (renamed value name) key = none := by
  cases value with
  | none => rfl
  | some value =>
    change (match key == name with | true => some value | false => none) = none
    rw [beq_false_of_ne other]

theorem translateRequestO2A_parts {body out : Fields}
    (h : translateRequestO2A env body = some out) :
    ∃ messages converted, itemsOr (body.get "messages") = some messages
      ∧ convertMessagesO2A env messages = some converted
      ∧ out.get "messages"
        = some (.arr ((mergeConsecutiveSameRole converted.2).map BlockMessage.json))
      ∧ out.get "system"
        = if String.join converted.1 = "" then none else some (.str (String.join converted.1)) := by
  obtain ⟨messages, found, h⟩ := Option.bind_eq_some_iff.mp h
  obtain ⟨converted, done_messages, h⟩ := Option.bind_eq_some_iff.mp h
  obtain ⟨tools, -, h⟩ := Option.bind_eq_some_iff.mp h
  obtain ⟨choice, -, h⟩ := Option.bind_eq_some_iff.mp h
  refine ⟨messages, converted, found, done_messages, ?_, ?_⟩
  · obtain rfl := Option.some.inj h
    simp only [List.append_assoc]
    rw [get_append_of_none (get_renamed_of_ne (by decide) _)]
    by_cases empty : String.join converted.1 = ""
    · rw [if_pos empty]
      rfl
    · rw [if_neg empty]
      rfl
  · obtain rfl := Option.some.inj h
    simp only [List.append_assoc]
    rw [get_append_of_none (get_renamed_of_ne (by decide) _)]
    by_cases empty : String.join converted.1 = ""
    · rw [if_pos empty, if_pos empty, List.nil_append, get_append_of_none rfl]
      rw [get_append_of_none (get_renamed_of_ne (by decide) _),
        get_append_of_none (get_renamed_of_ne (by decide) _),
        get_append_of_none (get_renamed_of_ne (by decide) _),
        get_append_of_none (get_renamed_of_ne (by decide) _),
        get_append_of_none (get_renamed_of_ne (by decide) _),
        get_renamed_of_ne (by decide)]
    · rw [if_neg empty, if_neg empty]
      rfl

/-- **Nothing is lost, moved or doubled by the merge.** -/
theorem translateRequestO2A_merged {body out : Fields}
    (h : translateRequestO2A env body = some out) :
    ∃ (messages : List Json) (merged : List BlockMessage) (blocks : List (List (String × Json))),
      itemsOr (body.get "messages") = some messages
      ∧ out.get "messages" = some (.arr (merged.map BlockMessage.json))
      ∧ (merged.IsChain fun msg next => msg.role ≠ next.role)
      ∧ (∀ m ∈ merged, m.role = "user" ∨ m.role = "assistant")
      ∧ (∀ m ∈ merged, m.blocks ≠ [])
      ∧ messages.mapM (taggedBlocksO2A env) = some blocks
      ∧ (merged.flatMap fun m => m.blocks.map (m.role, ·)) = blocks.flatten
      ∧ merged.flatMap BlockMessage.blocks = blocks.flatMap (List.map Prod.snd) := by
  obtain ⟨messages, converted, found, conv, sent, -⟩ := translateRequestO2A_parts env h
  obtain ⟨⟨blocks, each, same⟩, turns⟩ := convertMessagesO2A_blocks env conv
  have merged := merged_mergeConsecutiveSameRole fun m mem => (turns m mem).1
  refine ⟨messages, _, blocks, found, sent, merged.alternates, ?_, merged.nonempty, each,
    merged.blocks.trans same, ?_⟩
  · intro m mem
    obtain ⟨msg, from_msg, role⟩ := merged.roles m mem
    rw [← role]
    exact (turns msg from_msg).2
  · have untagged := congrArg (List.map Prod.snd) (merged.blocks.trans same)
    rw [List.map_flatMap, List.map_flatten, ← List.flatMap_def] at untagged
    rw [← untagged]
    congr 1
    funext m
    rw [List.map_map]
    exact (List.map_id _).symm

end Request

/-- A conversation with empty turns, and with neighbours of one role. -/
def mergedConversation : Fields :=
  [("messages", .arr [
    .obj [("role", .str "system"), ("content", .str "s")],
    .obj [("role", .str "user"), ("content", .str "a")],
    .obj [("role", .str "tool"), ("tool_call_id", .str "t"), ("content", .str "r")],
    .obj [("role", .str "assistant"), ("content", .str "")],
    .obj [("role", .str "user"), ("content", .str "b")],
    .obj [("role", .str "assistant"), ("content", .str "c")]])]

theorem mergedConversation_sent : ∃ (out : Fields) (merged : List BlockMessage),
    translateRequestO2A ⟨fun _ => .rejected, fun _ => ""⟩ mergedConversation = some out
      ∧ out.get "messages" = some (.arr (merged.map BlockMessage.json))
      ∧ merged.IsChain fun msg next => msg.role ≠ next.role := by
  have accepted : (translateRequestO2A ⟨fun _ => .rejected, fun _ => ""⟩
      mergedConversation).isSome = true := by decide
  obtain ⟨out, translated⟩ := Option.isSome_iff_exists.mp accepted
  obtain ⟨_, merged, _, -, sent, alternates, -⟩ := translateRequestO2A_merged _ translated
  exact ⟨out, merged, translated, sent, alternates⟩

end Zhongzhuan.Protocol
