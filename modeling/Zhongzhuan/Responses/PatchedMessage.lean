import Zhongzhuan.Responses.ArgsPatch

/-!
# The message of patched `spawn_agent` arguments

`patch_spawn_agent_arguments` takes the first there is of the given message, the migrated fields
and the user's text: `wantedMessage`.  The two helpers do not agree on a message that is no
string: `_extract_nonempty_message` takes it for absent and `_migrate_nonstandard_fields` for
filled, so the text of the migrated fields is passed over.  `patch_as_promised_iff` says exactly
when the patch does what it is for.
-/

namespace Zhongzhuan.Responses

open Kit

/-! ## The whole function -/

/-- The arguments that `raw_args` has: an object is taken as it is, a string is parsed, and what
is no object counts as empty. -/
def parsedArguments (loads : String → Loaded) (rawArgs : Json) : Except String Fields :=
  match rawArgs with
  | .str text => if stripText text = "" then .ok [] else objectOf loads text
  | .obj fields => .ok fields
  | _ => .ok []

/-- The patch of parsed arguments. -/
def patchArguments (args : Fields) (lastUserText leaderText : String) : Option Fields :=
  if (nonblankField args "message").isSome then some args
  else
    match migrateNonstandardFields args with
    | some migrated =>
      some (injectRoleModel migrated
        [(nonblankField migrated "message").getD "", leaderText])
    | none =>
      let base := stripText lastUserText
      if base = "" then none
      else
        some (injectRoleModel
          (args.put "message" (.str (stripLeadingRoleTag base ++ antiRecurseSuffix)))
          [leaderText, base])

/-- `patch_spawn_agent_arguments`, on arguments of any type. -/
def patchRawArguments (loads : String → Loaded) (rawArgs : Json)
    (lastUserText leaderText : String) : Except String (Option Fields) :=
  (parsedArguments loads rawArgs).map fun args => patchArguments args lastUserText leaderText

/-! ## Blank texts -/

theorem exists_visible {text : List Char} (nonempty : strip text ≠ []) :
    ∃ c ∈ strip text, isSpace c = false := by
  have left : (text.dropWhile isSpace).reverse.dropWhile isSpace ≠ [] :=
    fun empty => nonempty (by rw [strip, empty]; rfl)
  refine ⟨((text.dropWhile isSpace).reverse.dropWhile isSpace).head left,
    List.mem_reverse.mpr (List.head_mem left), ?_⟩
  exact List.head_dropWhile_not isSpace left

theorem stripText_ne_of_visible {text : String} {c : Char} (mem : c ∈ text.toList)
    (visible : isSpace c = false) : stripText text ≠ "" := by
  intro blank
  have empty : strip text.toList = [] := by
    rw [← String.toList_ofList (l := strip text.toList)]
    exact congrArg String.toList blank
  have spaces := List.dropWhile_eq_nil_iff.mp (List.reverse_eq_nil_iff.mp empty)
  -- what the first pass leaves starts with something to see, so it leaves nothing
  have nothing : text.toList.dropWhile isSpace = [] := by
    by_contra left
    have first := List.head_dropWhile_not isSpace left
    rw [spaces _ (List.mem_reverse.mpr (List.head_mem left))] at first
    cases first
  rw [List.dropWhile_eq_nil_iff.mp nothing c mem] at visible
  cases visible

theorem stripText_stripText_ne {text : String} (nonblank : stripText text ≠ "") :
    stripText (stripText text) ≠ "" := by
  have nonempty : strip text.toList ≠ [] := fun empty => nonblank (by rw [stripText, empty])
  obtain ⟨c, mem, visible⟩ := exists_visible nonempty
  refine stripText_ne_of_visible ?_ visible
  rwa [stripText, String.toList_ofList]

/-! ## The message that is wanted -/

/-- The given message, if it is a string with more than white space in it. -/
def givenMessage (args : Fields) : Option String :=
  match args.get "message" with
  | some (.str text) => if stripText text = "" then none else some text
  | _ => none

/-- The text of the first migrated field that has one. -/
def migratedText (args : Fields) : Option String := migratedFields.findSome? (nonblankField args)

/-- The text made from the user's, if there is one. -/
def synthesizedText (lastUserText : String) : Option String :=
  if stripText lastUserText = "" then none
  else some (stripLeadingRoleTag (stripText lastUserText) ++ antiRecurseSuffix)

/-- The message that the arguments are to have. -/
def wantedMessage (args : Fields) (lastUserText : String) : Option String :=
  (givenMessage args).or ((migratedText args).or (synthesizedText lastUserText))

/-- A message that is no string, but something all the same: a number other than zero, `True`,
a list or an object with something in it. -/
def oddMessage (args : Fields) : Bool :=
  match args.get "message" with
  | some (.str _) => false
  | some v => v.truthy
  | none => false

section

variable {args : Fields} {lastUserText leaderText : String}

theorem isSome_nonblankField (args : Fields) :
    (nonblankField args "message").isSome = (givenMessage args).isSome := by
  unfold nonblankField givenMessage
  cases args.get "message" with
  | none => rfl
  | some v =>
      cases v with
      | str text =>
          dsimp only
          split <;> rfl
      | _ => rfl

theorem lacksMessage_eq (args : Fields) :
    lacksMessage args = ((givenMessage args).isNone && !oddMessage args) := by
  unfold lacksMessage givenMessage oddMessage
  cases args.get "message" with
  | none => rfl
  | some v =>
      cases v with
      | str text =>
          dsimp only
          split
          · simp [*]
          · simp [*]
      | _ => simp

theorem migrateNonstandardFields_eq (args : Fields) :
    migrateNonstandardFields args
      = if lacksMessage args then (migratedText args).map fun text =>
          args.put "message" (.str text)
        else none := by
  unfold migrateNonstandardFields migratedText
  by_cases lacks : lacksMessage args = true
  · simp only [lacks, if_true]
    induction migratedFields with
    | nil => rfl
    | cons key keys ih =>
        rw [List.findSome?_cons, List.findSome?_cons]
        cases nonblankField args key with
        | none => exact ih
        | some text => rfl
  · simp only [lacks, Bool.false_eq_true, if_false]
    refine List.findSome?_eq_none_iff.mpr fun key _ => ?_
    cases nonblankField args key <;> rfl

theorem get_injectRoleModel (args : Fields) (texts : List String) :
    (injectRoleModel args texts).get "message" = args.get "message" := by
  induction texts with
  | nil => rfl
  | cons text texts ih =>
      rw [injectRoleModel]
      split
      · exact ih
      · rw [Fields.get_put_of_ne (by decide), Fields.get_put_of_ne (by decide)]

theorem nonblank_of_migratedText {text : String} (migrated : migratedText args = some text) :
    stripText text ≠ "" := by
  obtain ⟨key, -, found⟩ := List.exists_of_findSome?_eq_some migrated
  unfold nonblankField at found
  split at found
  · split at found
    · cases found
    · rename_i nonblank
      rw [← Option.some.inj found]
      exact stripText_stripText_ne nonblank
  · cases found

theorem nonblank_of_synthesizedText {text : String}
    (made : synthesizedText lastUserText = some text) : stripText text ≠ "" := by
  unfold synthesizedText at made
  split at made
  · cases made
  · rw [← Option.some.inj made]
    refine stripText_ne_of_visible (c := '(') ?_ (by decide)
    rw [String.toList_append]
    exact List.mem_append_right _ (by decide)

/-- **What the patch makes of the arguments**: they stay, a migrated text becomes the message,
or the user's text does, each with the roles that were found. -/
theorem patchArguments_eq (args : Fields) (lastUserText leaderText : String) :
    patchArguments args lastUserText leaderText
      = if (givenMessage args).isSome then some args
        else
          match if oddMessage args then none else migratedText args with
          | some text =>
            some (injectRoleModel (args.put "message" (.str text))
              [(nonblankField (args.put "message" (.str text)) "message").getD "", leaderText])
          | none =>
            (synthesizedText lastUserText).map fun text =>
              injectRoleModel (args.put "message" (.str text))
                [leaderText, stripText lastUserText] := by
  unfold patchArguments
  rw [isSome_nonblankField, migrateNonstandardFields_eq, lacksMessage_eq]
  cases givenMessage args with
  | some text => rfl
  | none =>
      simp only [Option.isSome_none, Option.isNone_none, Bool.true_and, Bool.false_eq_true,
        if_false]
      cases oddMessage args with
      | true =>
          simp only [Bool.not_true, Bool.false_eq_true, if_false, if_true, synthesizedText]
          split <;> rfl
      | false =>
          simp only [Bool.not_false, Bool.false_eq_true, if_false, if_true, synthesizedText]
          cases migratedText args with
          | some text => rfl
          | none =>
              simp only [Option.map_none]
              split <;> rfl

/-- The message that the arguments get. -/
def chosenMessage (args : Fields) (lastUserText : String) : Option String :=
  (givenMessage args).or
    ((if oddMessage args then none else migratedText args).or (synthesizedText lastUserText))

theorem put_message {text : String} (nonblank : stripText text ≠ "") (texts : List String) :
    (injectRoleModel (args.put "message" (.str text)) texts).get "message" = some (.str text)
      ∧ stripText text ≠ "" := by
  rw [get_injectRoleModel, Fields.get_put_self]
  exact ⟨rfl, nonblank⟩

/-- **The patch chooses**: it refuses when there is nothing to choose, and otherwise the message
is what it has chosen. -/
theorem patchArguments_chosen (args : Fields) (lastUserText leaderText : String) :
    (patchArguments args lastUserText leaderText = none ∧ chosenMessage args lastUserText = none)
      ∨ ∃ patched text, patchArguments args lastUserText leaderText = some patched
          ∧ chosenMessage args lastUserText = some text
          ∧ patched.get "message" = some (.str text) ∧ stripText text ≠ "" := by
  rw [patchArguments_eq, chosenMessage]
  cases given : givenMessage args with
  | some text =>
      refine .inr ⟨args, text, rfl, rfl, ?_⟩
      unfold givenMessage at given
      split at given
      · rename_i found
        split at given
        · cases given
        · rw [← Option.some.inj given]
          exact ⟨found, ‹_›⟩
      · cases given
  | none =>
      simp only [Option.isSome_none, Bool.false_eq_true, if_false, Option.none_or]
      rcases moved : (if oddMessage args then none else migratedText args) with _ | text
      · rw [Option.none_or]
        cases made : synthesizedText lastUserText with
        | none => exact .inl ⟨rfl, rfl⟩
        | some text =>
            exact .inr ⟨_, text, rfl, rfl, put_message (nonblank_of_synthesizedText made) _⟩
      · rw [Option.some_or]
        have migrated : migratedText args = some text := by
          split at moved
          · cases moved
          · exact moved
        exact .inr ⟨_, text, rfl, rfl, put_message (nonblank_of_migratedText migrated) _⟩

theorem patchArguments_of_message {text : String} (found : args.get "message" = some (.str text))
    (nonblank : stripText text ≠ "") (lastUserText leaderText : String) :
    patchArguments args lastUserText leaderText = some args := by
  have given : givenMessage args = some text := by simp [givenMessage, found, nonblank]
  rw [patchArguments_eq, given]
  rfl

theorem chosenMessage_eq_iff (args : Fields) (lastUserText : String) :
    chosenMessage args lastUserText = wantedMessage args lastUserText
      ↔ (oddMessage args = true →
          migratedText args = none ∨ migratedText args = synthesizedText lastUserText) := by
  unfold chosenMessage wantedMessage
  cases odd : oddMessage args with
  | false => simp
  | true =>
      have none : givenMessage args = none := by
        unfold oddMessage at odd
        unfold givenMessage
        cases found : args.get "message" with
        | none => rfl
        | some v =>
            rw [found] at odd
            cases v with
            | str text => cases odd
            | _ => rfl
      rw [none]
      cases migratedText args with
      | none => simp
      | some text =>
          simp only [if_true, Option.none_or, Option.some_or, true_imp_iff, reduceCtorEq,
            false_or]
          exact eq_comm

end

/-- **What is promised of the patch** of parsed arguments. -/
structure PatchedAsPromised (loads : String → Loaded) (args : Fields)
    (lastUserText leaderText : String) : Prop where
  refused : patchArguments args lastUserText leaderText = none
    ↔ wantedMessage args lastUserText = none
  message : ∀ patched, patchArguments args lastUserText leaderText = some patched →
    ∃ text, patched.get "message" = some (.str text) ∧ stripText text ≠ ""
      ∧ wantedMessage args lastUserText = some text
  stable : ∀ patched, patchArguments args lastUserText leaderText = some patched →
    ∀ lastUserText' leaderText',
      patchRawArguments loads (.obj patched) lastUserText' leaderText' = .ok (some patched)

theorem patchedAsPromised_iff (loads : String → Loaded) (args : Fields)
    (lastUserText leaderText : String) :
    PatchedAsPromised loads args lastUserText leaderText
      ↔ chosenMessage args lastUserText = wantedMessage args lastUserText := by
  rcases patchArguments_chosen args lastUserText leaderText
    with ⟨refused, none⟩ | ⟨patched, text, result, chosen, message, nonblank⟩
  · rw [none]
    constructor
    · exact fun promised => (promised.refused.mp refused).symm
    · intro same
      refine ⟨⟨fun _ => same.symm, fun _ => refused⟩, fun patched result => ?_,
        fun patched result => ?_⟩
      · rw [refused] at result
        cases result
      · rw [refused] at result
        cases result
  · rw [chosen]
    constructor
    · intro promised
      obtain ⟨text', message', -, wanted⟩ := promised.message patched result
      rw [message] at message'
      rw [wanted, Json.str.inj (Option.some.inj message')]
    · intro same
      refine ⟨⟨fun refused => ?_, fun none => ?_⟩, fun other again => ?_, fun other again => ?_⟩
      · rw [result] at refused
        cases refused
      · rw [none] at same
        cases same
      · obtain rfl : patched = other := Option.some.inj (result.symm.trans again)
        exact ⟨text, message, nonblank, same.symm⟩
      · obtain rfl : patched = other := Option.some.inj (result.symm.trans again)
        intro lastUserText' leaderText'
        exact congrArg Except.ok (patchArguments_of_message message nonblank _ _)

/-- **The patch does what it is for** if and only if the arguments can be parsed, and no odd
message hides a migrated field (other than one that has the very text made from the user's). -/
theorem patch_as_promised_iff (loads : String → Loaded) (rawArgs : Json)
    (lastUserText leaderText : String) :
    (∃ args, parsedArguments loads rawArgs = .ok args
        ∧ patchRawArguments loads rawArgs lastUserText leaderText
            = .ok (patchArguments args lastUserText leaderText)
        ∧ PatchedAsPromised loads args lastUserText leaderText)
      ↔ ∃ args, parsedArguments loads rawArgs = .ok args
        ∧ (oddMessage args = true →
            migratedText args = none ∨ migratedText args = synthesizedText lastUserText) := by
  refine exists_congr fun args => and_congr_right fun parsed => ?_
  rw [patchedAsPromised_iff, chosenMessage_eq_iff, patchRawArguments, parsed]
  exact and_iff_right rfl

/-- A message `5` beside a task: the call is refused for want of a text. -/
theorem hidden_task_refused :
    patchRawArguments (fun _ => .rejected)
        (.obj [("message", .int 5), ("task", .str "do it")]) "" "" = .ok none
      ∧ ¬ ∃ args, parsedArguments (fun _ => .rejected)
            (.obj [("message", .int 5), ("task", .str "do it")]) = .ok args
          ∧ PatchedAsPromised (fun _ => .rejected) args "" "" := by
  refine ⟨by decide, ?_⟩
  rintro ⟨args, parsed, promised⟩
  obtain rfl := Except.ok.inj parsed
  exact absurd ((patchedAsPromised_iff _ _ _ _).mp promised) (by decide)

end Zhongzhuan.Responses
