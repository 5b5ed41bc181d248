import Zhongzhuan.Kit.Sort
import Zhongzhuan.Protocol.MergedMessages

/-!
# An Anthropic request to OpenAI and back

What `translate_request_o2a` makes of what `translate_request_a2o` makes of a conversation.

* `TripMessage` is a message with its blocks, `Shown` says that a JSON value is it, with its fields
  in any order.
* `openAI` are the OpenAI messages for one, `turns` what comes back of them; `merge_turns` puts the
  tool results and the rest of a message together again.
* `translateRequest_trip`: the same system text and the same messages come back.

An image with a media type that is empty comes back as `image/png`, and one at a URL that begins
with `data:` as its data.
-/

namespace Zhongzhuan.Protocol

open Kit

/-! ## Conversations -/

/-- Where the data of an image is. -/
inductive ImageOrigin
  | base64 (mediaType data : String)
  | url (address : String)
deriving DecidableEq

/-- A text or an image. -/
inductive PlainBlock
  | text (content : String)
  | image (origin : ImageOrigin)
deriving DecidableEq

structure ToolResultBlock where
  toolUseId : Json
  content : String
deriving DecidableEq

structure ToolUseBlock where
  id : Json
  name : Json
  input : Fields
deriving DecidableEq

/-- A message: tool results come before the other blocks of a user, tool uses after those of an
assistant. -/
inductive TripMessage
  | user (results : List ToolResultBlock) (plain : List PlainBlock)
  | assistant (plain : List PlainBlock) (uses : List ToolUseBlock)
deriving DecidableEq

/-- Two dictionaries are equal. -/
def Alike (fields same : Fields) : Prop := ∀ key, fields.get key = same.get key

namespace ImageOrigin

def fields : ImageOrigin → Fields
  | .base64 mediaType data =>
    [("type", .str "base64"), ("media_type", .str mediaType), ("data", .str data)]
  | .url address => [("type", .str "url"), ("url", .str address)]

/-- A media type has no comma and no semicolon. -/
def Fits : ImageOrigin → Prop
  | .base64 mediaType _ => ',' ∉ mediaType.toList ∧ ';' ∉ mediaType.toList
  | .url _ => True

/-- A media type is not empty, and a URL is no data URL. -/
def Kept : ImageOrigin → Prop
  | .base64 mediaType _ => mediaType ≠ ""
  | .url address => startsWith address "data:" = false

instance (origin : ImageOrigin) : Decidable origin.Fits :=
  match origin with
  | .base64 mediaType _ =>
    inferInstanceAs (Decidable (',' ∉ mediaType.toList ∧ ';' ∉ mediaType.toList))
  | .url _ => inferInstanceAs (Decidable True)

instance (origin : ImageOrigin) : Decidable origin.Kept :=
  match origin with
  | .base64 mediaType _ => inferInstanceAs (Decidable (mediaType ≠ ""))
  | .url address => inferInstanceAs (Decidable (startsWith address "data:" = false))

end ImageOrigin

namespace PlainBlock

def json : PlainBlock → Json
  | .text content => textBlock content
  | .image origin => .obj [("type", .str "image"), ("source", .obj origin.fields)]

/-- A value is this block. -/
def Shown (value : Json) : PlainBlock → Prop
  | .text content =>
    ∃ fields, value = .obj fields ∧ Alike fields [("type", .str "text"), ("text", .str content)]
  | .image origin =>
    ∃ fields source, value = .obj fields
      ∧ Alike fields [("type", .str "image"), ("source", .obj source)]
      ∧ Alike source origin.fields

def Fits : PlainBlock → Prop
  | .text content => content ≠ ""
  | .image origin => origin.Fits

def Kept : PlainBlock → Prop
  | .text _ => True
  | .image origin => origin.Kept

instance (b : PlainBlock) : Decidable b.Fits :=
  match b with
  | .text content => inferInstanceAs (Decidable (content ≠ ""))
  | .image origin => inferInstanceAs (Decidable origin.Fits)

instance (b : PlainBlock) : Decidable b.Kept :=
  match b with
  | .text _ => inferInstanceAs (Decidable True)
  | .image origin => inferInstanceAs (Decidable origin.Kept)

def isImage : PlainBlock → Bool
  | .text _ => false
  | .image _ => true

/-- The text of a block, if it is one. -/
def text? : PlainBlock → Option String
  | .text content => some content
  | .image _ => none

end PlainBlock

namespace ToolResultBlock

def fields (block : ToolResultBlock) : Fields :=
  [("type", .str "tool_result"), ("tool_use_id", block.toolUseId),
    ("content", .str block.content)]

def Shown (value : Json) (block : ToolResultBlock) : Prop :=
  ∃ fields, value = .obj fields ∧ Alike fields block.fields

end ToolResultBlock

namespace ToolUseBlock

def fields (block : ToolUseBlock) : Fields :=
  [("type", .str "tool_use"), ("id", block.id), ("name", block.name), ("input", .obj block.input)]

def Shown (value : Json) (block : ToolUseBlock) : Prop :=
  ∃ fields, value = .obj fields ∧ Alike fields block.fields

end ToolUseBlock

namespace TripMessage

def role : TripMessage → String
  | .user .. => "user"
  | .assistant .. => "assistant"

def plain : TripMessage → List PlainBlock
  | .user _ plain => plain
  | .assistant plain _ => plain

def uses : TripMessage → List ToolUseBlock
  | .user .. => []
  | .assistant _ uses => uses

/-- The blocks of a message. -/
def blocks : TripMessage → List Json
  | .user results plain => results.map (fun b => .obj b.fields) ++ plain.map PlainBlock.json
  | .assistant plain uses => plain.map PlainBlock.json ++ uses.map fun b => .obj b.fields

def json (msg : TripMessage) : Json := (⟨msg.role, msg.blocks⟩ : BlockMessage).json

/-- Values are the blocks of a message. -/
def ShownBlocks (values : List Json) : TripMessage → Prop
  | .user results plain => ∃ front back, values = front ++ back
      ∧ List.Forall₂ ToolResultBlock.Shown front results
      ∧ List.Forall₂ PlainBlock.Shown back plain
  | .assistant plain uses => ∃ front back, values = front ++ back
      ∧ List.Forall₂ PlainBlock.Shown front plain
      ∧ List.Forall₂ ToolUseBlock.Shown back uses

/-- A value is this message. -/
def Shown (value : Json) (msg : TripMessage) : Prop :=
  ∃ fields values, value = .obj fields
    ∧ Alike fields [("role", .str msg.role), ("content", .arr values)]
    ∧ msg.ShownBlocks values

/-- A message that is not empty, with one text at most unless it has an image. -/
structure Fits (msg : TripMessage) : Prop where
  some_blocks : msg.blocks ≠ []
  blocks : ∀ b ∈ msg.plain, b.Fits
  texts : msg.plain.length ≤ 1 ∨ ∃ b ∈ msg.plain, b.isImage = true

end TripMessage

/-- A conversation whose roles alternate. -/
structure FitsTrip (conv : List TripMessage) : Prop where
  messages : ∀ msg ∈ conv, msg.Fits
  alternates : conv.IsChain fun msg next => msg.role ≠ next.role

/-! ## What OpenAI is sent -/

namespace PlainBlock

/-- The URL of an image. -/
def urlOf : ImageOrigin → String
  | .base64 mediaType data => "data:" ++ mediaType ++ ";base64," ++ data
  | .url address => address

/-- The part of a content. -/
def part : PlainBlock → Json
  | .text content => .obj [("type", .str "text"), ("text", .str content)]
  | .image origin =>
    .obj [("type", .str "image_url"), ("image_url", .obj [("url", .str (urlOf origin))])]

end PlainBlock

/-- The content for texts and images. -/
def plainContent (plain : List PlainBlock) : Json :=
  if plain.any PlainBlock.isImage then .arr (plain.map PlainBlock.part)
  else if plain = [] then .null
  else .str (String.join (plain.filterMap PlainBlock.text?))

/-- The message for a tool result. -/
def ToolResultBlock.message (block : ToolResultBlock) : Json :=
  .obj [("role", .str "tool"), ("tool_call_id", block.toolUseId), ("content", .str block.content)]

/-- The tool call for a tool use. -/
def ToolUseBlock.call (block : ToolUseBlock) : Json :=
  .obj [("id", block.id), ("type", .str "function"), ("function", .obj [("name", block.name),
    ("arguments", .str (dumps (.obj block.input)))])]

namespace TripMessage

/-- The OpenAI messages for a message. -/
def openAI : TripMessage → List Json
  | .user results plain => results.map ToolResultBlock.message
      ++ if plain = [] then [] else [.obj [("role", .str "user"), ("content", plainContent plain)]]
  | .assistant plain uses =>
    if plain = [] ∧ uses = [] then []
    else [.obj ([("role", .str "assistant"), ("content", plainContent plain)]
      ++ if uses = [] then [] else [("tool_calls", .arr (uses.map ToolUseBlock.call))])]

/-- What comes back of them. -/
def turns : TripMessage → List BlockMessage
  | .user results plain => results.map (fun b => ⟨"user", [.obj b.fields]⟩)
      ++ if plain = [] then [] else [⟨"user", plain.map PlainBlock.json⟩]
  | .assistant plain uses =>
    if plain = [] ∧ uses = [] then []
    else [⟨"assistant", plain.map PlainBlock.json ++ uses.map fun b => .obj b.fields⟩]

end TripMessage

/-! ## Blocks of a message -/

section ToOpenAI

variable (env : RequestEnv) {c : ConvertedBlocks} {role value : Json} {values : List Json}

namespace ConvertedBlocks

/-- The lists with texts and images added. -/
def addPlain (c : ConvertedBlocks) (plain : List PlainBlock) : ConvertedBlocks where
  textParts := c.textParts ++ plain.filterMap PlainBlock.text?
  parts := c.parts ++ plain.map PlainBlock.part
  hasImage := c.hasImage || plain.any PlainBlock.isImage
  toolCalls := c.toolCalls

theorem imageUrl_alike {source : Fields} {origin : ImageOrigin}
    (alike : Alike source origin.fields) :
    imageUrl env source = .str (PlainBlock.urlOf origin) := by
  unfold imageUrl
  rw [alike "type", alike "media_type", alike "data", alike "url"]
  cases origin with
  | base64 mediaType data => exact if_pos rfl
  | url address =>
    have other : (ImageOrigin.url address).fields.get "type" ≠ some (.str "base64") := by
      change some (Json.str "url") ≠ _
      decide
    rw [if_neg other]
    rfl

theorem fieldsOr_of_alike {source : Fields} {origin : ImageOrigin}
    (alike : Alike source origin.fields) : fieldsOr (some (.obj source)) = some source := by
  have type : source.get "type" ≠ none := by
    rw [alike "type"]
    cases origin with
    | base64 => exact Option.some_ne_none _
    | url => exact Option.some_ne_none _
  cases source with
  | nil => exact absurd rfl type
  | cons field fields => rfl

theorem step_plain {b : PlainBlock} (shown : b.Shown value) :
    c.step env role value = some (c.addPlain [b]) := by
  cases b with
  | text content =>
    obtain ⟨fields, rfl, alike⟩ := shown
    have type : Fields.get fields "type" = some (.str "text") := alike "type"
    have there : Fields.get fields "text" = some (.str content) := alike "text"
    simp only [step]
    rw [type, there, if_pos rfl, addPlain, List.any_cons, PlainBlock.isImage, List.any_nil,
      Bool.or_false, Bool.or_false]
    rfl
  | image origin =>
    obtain ⟨fields, source, rfl, alike, there⟩ := shown
    have found : fieldsOr (Fields.get fields "source") = some source := by
      rw [alike "source"]
      exact fieldsOr_of_alike there
    have type : Fields.get fields "type" = some (.str "image") := alike "type"
    simp only [step]
    rw [type, if_neg (by decide), if_pos rfl, found, Option.map_some, addImage,
      imageUrl_alike env there, addPlain, List.any_cons, PlainBlock.isImage, Bool.true_or,
      Bool.or_true]
    simp [PlainBlock.text?, PlainBlock.part]

theorem addPlain_addPlain (b : PlainBlock) (plain : List PlainBlock) :
    (c.addPlain [b]).addPlain plain = c.addPlain (b :: plain) := by
  unfold addPlain
  dsimp only
  rw [List.append_assoc, ← List.filterMap_append, List.append_assoc, ← List.map_append,
    Bool.or_assoc, ← List.any_append]
  rfl

theorem addPlain_nil : c.addPlain [] = c := by
  unfold addPlain
  simp

theorem fold_plain {plain : List PlainBlock}
    (shown : List.Forall₂ (fun value b => PlainBlock.Shown value b) values plain) :
    values.foldlM (fun c block => c.step env role block) c = some (c.addPlain plain) := by
  induction shown generalizing c with
  | nil => exact congrArg some addPlain_nil.symm
  | cons first _ ih =>
    rw [List.foldlM_cons, step_plain env first]
    exact (ih (c := c.addPlain _)).trans (congrArg some (addPlain_addPlain ..))

theorem fold_results {results : List ToolResultBlock}
    (shown : List.Forall₂ (fun value b => ToolResultBlock.Shown value b) values results) :
    values.foldlM (fun c block => c.step env (.str "user") block) c = some c := by
  induction shown with
  | nil => rfl
  | cons first _ ih =>
    obtain ⟨fields, rfl, alike⟩ := first
    have type : Fields.get fields "type" = some (.str "tool_result") := alike "type"
    have same : c.step env (.str "user") (.obj fields) = some c := by
      simp only [step]
      rw [type, if_neg (by decide), if_neg (by decide), if_neg (by decide), if_pos (by decide)]
    rw [List.foldlM_cons, same]
    exact ih

/-- The lists with tool calls added. -/
def addUses (c : ConvertedBlocks) (uses : List ToolUseBlock) : ConvertedBlocks :=
  { c with toolCalls := c.toolCalls ++ uses.map ToolUseBlock.call }

theorem input_alike {fields : Fields} {use : ToolUseBlock} (alike : Alike fields use.fields) :
    (trueField fields "input").getD (.obj []) = .obj use.input := by
  rw [trueField, alike "input"]
  change ((some (.obj use.input)).filter Json.truthy).getD (.obj []) = _
  cases input : use.input with
  | nil => rfl
  | cons field rest => rfl

theorem fold_uses {uses : List ToolUseBlock}
    (shown : List.Forall₂ (fun value b => ToolUseBlock.Shown value b) values uses) :
    values.foldlM (fun c block => c.step env (.str "assistant") block) c
      = some (c.addUses uses) := by
  induction shown generalizing c with
  | nil =>
    rw [addUses, List.map_nil, List.append_nil]
    rfl
  | @cons value use values uses first _ ih =>
    obtain ⟨fields, rfl, alike⟩ := first
    have type : Fields.get fields "type" = some (.str "tool_use") := alike "type"
    have added : c.step env (.str "assistant") (.obj fields) = some (c.addUses [use]) := by
      simp only [step]
      rw [type, if_neg (by decide), if_neg (by decide), if_pos ⟨rfl, trivial⟩, addToolUse,
        alike "id", alike "name", input_alike alike]
      rfl
    rw [List.foldlM_cons, added]
    refine (ih (c := c.addUses [use])).trans ?_
    rw [addUses, addUses, addUses, List.append_assoc, ← List.map_append]
    rfl

theorem content_addPlain (plain : List PlainBlock) :
    (({} : ConvertedBlocks).addPlain plain).content = plainContent plain := by
  unfold content plainContent addPlain
  simp only [Bool.false_or, List.nil_append]
  cases image : plain.any PlainBlock.isImage with
  | true =>
    have some_block : plain ≠ [] := by
      rintro rfl
      cases image
    rw [if_pos rfl, if_pos rfl, if_neg (mt List.map_eq_nil_iff.mp some_block)]
  | false =>
    rw [if_neg Bool.false_ne_true, if_neg Bool.false_ne_true]
    cases plain with
    | nil => rfl
    | cons b plain =>
      cases b with
      | text content => rfl
      | image origin => cases image

end ConvertedBlocks

/-! ## Messages to OpenAI -/

theorem plainContent_eq_null {plain : List PlainBlock} :
    plainContent plain = .null ↔ plain = [] := by
  unfold plainContent
  constructor
  · intro same
    split at same
    · cases same
    · split at same
      · next none => exact none
      · cases same
  · rintro rfl
    rfl

theorem toolResults_results {results : List ToolResultBlock}
    (shown : List.Forall₂ (fun value b => ToolResultBlock.Shown value b) values results) :
    convertToolResultsA2O env values = results.map ToolResultBlock.message := by
  induction shown with
  | nil => rfl
  | @cons value block values results first _ ih =>
    obtain ⟨fields, rfl, alike⟩ := first
    have content : toolResultContent env fields = block.content := by
      have there : Fields.get fields "content" = some (.str block.content) := alike "content"
      have good : trueField fields "is_error" = none := by
        rw [trueField, alike "is_error"]
        rfl
      rw [toolResultContent, there, good]
    have type : Fields.get fields "type" = some (.str "tool_result") := alike "type"
    have id : Fields.get fields "tool_use_id" = some block.toolUseId := alike "tool_use_id"
    rw [convertToolResultsA2O, List.filterMap_cons_some, List.map_cons]
    · exact congrArg _ ih
    · dsimp only
      rw [type, if_pos rfl, id, content]
      rfl

/-- A block of another type. -/
def NoResult (value : Json) : Prop :=
  ∃ fields : Fields, value = .obj fields ∧ fields.get "type" ≠ some (.str "tool_result")

theorem toolResults_none (others : ∀ value ∈ values, NoResult value) :
    convertToolResultsA2O env values = [] := by
  refine List.filterMap_eq_nil_iff.mpr fun value mem => ?_
  obtain ⟨fields, rfl, type⟩ := others value mem
  exact if_neg type

theorem noResult_plain {plain : List PlainBlock}
    (shown : List.Forall₂ (fun value b => PlainBlock.Shown value b) values plain) :
    ∀ value ∈ values, NoResult value := by
  intro value mem
  obtain ⟨b, -, shown⟩ := (exists_partner shown).1 value mem
  cases b with
  | text content =>
    obtain ⟨fields, rfl, alike⟩ := shown
    refine ⟨fields, rfl, ?_⟩
    rw [alike "type"]
    change some (Json.str "text") ≠ _
    decide
  | image origin =>
    obtain ⟨fields, source, rfl, alike, -⟩ := shown
    refine ⟨fields, rfl, ?_⟩
    rw [alike "type"]
    change some (Json.str "image") ≠ _
    decide

theorem noResult_uses {uses : List ToolUseBlock}
    (shown : List.Forall₂ (fun value b => ToolUseBlock.Shown value b) values uses) :
    ∀ value ∈ values, NoResult value := by
  intro value mem
  obtain ⟨use, -, fields, rfl, alike⟩ := (exists_partner shown).1 value mem
  refine ⟨fields, rfl, ?_⟩
  rw [alike "type"]
  change some (Json.str "tool_use") ≠ _
  decide

theorem convertMessageA2O_eq {msg : TripMessage} (shown : msg.Shown value) :
    convertMessageA2O env value = some msg.openAI := by
  obtain ⟨fields, values, rfl, alike, blocks⟩ := shown
  have content : Fields.get fields "content" = some (.arr values) := alike "content"
  cases msg with
  | user results plain =>
    have named : Fields.get fields "role" = some (.str "user") := alike "role"
    obtain ⟨front, back, rfl, shownResults, shownPlain⟩ := blocks
    have converted : convertContentBlocksA2O env (.str "user") (front ++ back)
        = some (({} : ConvertedBlocks).addPlain plain) := by
      rw [convertContentBlocksA2O, List.foldlM_append,
        ConvertedBlocks.fold_results env shownResults]
      exact ConvertedBlocks.fold_plain env shownPlain
    have results' : convertToolResultsA2O env (front ++ back)
        = results.map ToolResultBlock.message := by
      rw [convertToolResultsA2O, List.filterMap_append]
      change convertToolResultsA2O env front ++ convertToolResultsA2O env back = _
      rw [toolResults_results env shownResults, toolResults_none env (noResult_plain shownPlain),
        List.append_nil]
    have other : Json.str "user" ≠ .str "assistant" := by decide
    simp only [convertMessageA2O]
    rw [content, named, Option.getD_some]
    dsimp only
    rw [converted, Option.map_some, results', ConvertedBlocks.content_addPlain, if_neg other]
    simp only [plainContent_eq_null, TripMessage.openAI]
  | assistant plain uses =>
    have named : Fields.get fields "role" = some (.str "assistant") := alike "role"
    obtain ⟨front, back, rfl, shownPlain, shownUses⟩ := blocks
    have converted : convertContentBlocksA2O env (.str "assistant") (front ++ back)
        = some ((({} : ConvertedBlocks).addPlain plain).addUses uses) := by
      rw [convertContentBlocksA2O, List.foldlM_append,
        ConvertedBlocks.fold_plain env shownPlain]
      exact ConvertedBlocks.fold_uses env shownUses
    have none_there : convertToolResultsA2O env (front ++ back) = [] := by
      refine toolResults_none env fun value mem => ?_
      rcases List.mem_append.mp mem with here | here
      · exact noResult_plain shownPlain value here
      · exact noResult_uses shownUses value here
    have content' : ((({} : ConvertedBlocks).addPlain plain).addUses uses).content
        = plainContent plain := ConvertedBlocks.content_addPlain plain
    have calls : ((({} : ConvertedBlocks).addPlain plain).addUses uses).toolCalls
        = uses.map ToolUseBlock.call := rfl
    simp only [convertMessageA2O]
    rw [content, named, Option.getD_some]
    dsimp only
    rw [converted, Option.map_some, none_there, content', calls, List.nil_append]
    simp only [plainContent_eq_null, List.map_eq_nil_iff, TripMessage.openAI, if_true]

end ToOpenAI

/-! ## Messages from OpenAI -/

section FromOpenAI

variable (env : RequestEnv)

theorem imageSource_urlOf {origin : ImageOrigin} (fits : origin.Fits) (kept : origin.Kept) :
    imageSource (PlainBlock.urlOf origin) = .obj origin.fields := by
  cases origin with
  | url address =>
    have plain : startsWith address "data:" = false := kept
    rw [PlainBlock.urlOf, imageSource, plain, if_neg Bool.false_ne_true]
    rfl
  | base64 mediaType data =>
    obtain ⟨noComma, noSemicolon⟩ : ',' ∉ mediaType.toList ∧ ';' ∉ mediaType.toList := fits
    have some_type : mediaType.toList ≠ [] := by
      intro empty
      exact kept (String.toList_eq_nil_iff.mp empty)
    have url : ("data:" ++ mediaType ++ ";base64," ++ data).toList
        = ("data:".toList ++ mediaType.toList ++ ";base64".toList) ++ ',' :: data.toList := by
      simp
    have before : ∀ x ∈ "data:".toList ++ mediaType.toList ++ ";base64".toList,
        decide (x ≠ ',') = true := by
      intro x mem
      rw [decide_eq_true_eq]
      rintro rfl
      simp only [List.mem_append] at mem
      rcases mem with (mem | mem) | mem
      · exact absurd mem (by decide)
      · exact noComma mem
      · exact absurd mem (by decide)
    have stop : ∀ x ∈ (',' :: data.toList).head?, decide (x ≠ ',') = false := by
      rintro x ⟨⟩
      decide
    obtain ⟨header, rest⟩ := span_append before stop
    have inside : ∀ x ∈ mediaType.toList, decide (x ≠ ';') = true := by
      intro x mem
      rw [decide_eq_true_eq]
      rintro rfl
      exact noSemicolon mem
    have stop' : ∀ x ∈ (';' :: "base64".toList).head?, decide (x ≠ ';') = false := by
      rintro x ⟨⟩
      decide
    obtain ⟨mime, -⟩ := span_append inside stop'
    have type : mediaTypeOf ("data:" ++ mediaType ++ ";base64," ++ data).toList = mediaType := by
      rw [mediaTypeOf, url, header, List.append_assoc]
      change (if (mediaType.toList ++ ';' :: "base64".toList).takeWhile (· ≠ ';') = [] then _
        else String.ofList ((mediaType.toList ++ ';' :: "base64".toList).takeWhile (· ≠ ';'))) = _
      rw [mime, if_neg some_type, String.ofList_toList]
    have starts : startsWith ("data:" ++ mediaType ++ ";base64," ++ data) "data:" = true := by
      rw [startsWith, List.isPrefixOf_iff_prefix, String.append_assoc, String.append_assoc,
        String.toList_append]
      exact List.prefix_append _ _
    rw [PlainBlock.urlOf, imageSource, starts, if_pos rfl, type, url, rest, List.drop_one,
      List.tail_cons, String.ofList_toList]
    rfl

theorem convertPartO2A_part {b : PlainBlock} (fits : b.Fits) (kept : b.Kept) :
    convertPartO2A env b.part = some [b.json] := by
  cases b with
  | text content =>
    have there : trueField [("type", .str "text"), ("text", .str content)] "text"
        = some (.str content) := by
      change (some (Json.str content)).filter Json.truthy = _
      exact Option.filter_some_pos (decide_eq_true fits)
    simp only [PlainBlock.part, convertPartO2A]
    rw [if_pos (show Fields.get _ "type" = some (.str "text") from rfl), there]
    rfl
  | image origin =>
    simp only [PlainBlock.part, convertPartO2A]
    have type : Fields.get [("type", .str "image_url"),
        ("image_url", .obj [("url", .str (PlainBlock.urlOf origin))])] "type"
          = some (.str "image_url") := rfl
    rw [type, if_neg (by decide), if_pos rfl]
    change some [Json.obj [("type", .str "image"),
      ("source", imageSource (PlainBlock.urlOf origin))]] = _
    rw [imageSource_urlOf fits kept]
    rfl

theorem convertContentO2A_plain {plain : List PlainBlock} (fits : ∀ b ∈ plain, b.Fits)
    (kept : ∀ b ∈ plain, b.Kept) (texts : plain.length ≤ 1 ∨ ∃ b ∈ plain, b.isImage = true) :
    convertContentO2A env (plainContent plain) = some (plain.map PlainBlock.json) := by
  have parts : ∀ bs : List PlainBlock, (∀ b ∈ bs, b.Fits) → (∀ b ∈ bs, b.Kept) →
      (bs.map PlainBlock.part).mapM (convertPartO2A env) = some (bs.map fun b => [b.json]) := by
    intro bs
    induction bs with
    | nil => exact fun _ _ => rfl
    | cons b bs ih =>
      intro fits kept
      rw [List.forall_mem_cons] at fits kept
      rw [List.map_cons, List.mapM_cons, convertPartO2A_part env fits.1 kept.1,
        ih fits.2 kept.2]
      rfl
  unfold plainContent
  cases image : plain.any PlainBlock.isImage with
  | true =>
    rw [if_pos rfl, convertContentO2A, parts plain fits kept, Option.map_some]
    rw [← List.flatMap_def, ← List.map_eq_flatMap]
  | false =>
    rw [if_neg Bool.false_ne_true]
    have few : plain.length ≤ 1 := by
      refine texts.resolve_right ?_
      rintro ⟨b, mem, there⟩
      rw [List.any_eq_false] at image
      exact image b mem there
    cases plain with
    | nil => rfl
    | cons b rest =>
      obtain rfl : rest = [] := List.eq_nil_of_length_eq_zero (by simpa using few)
      cases b with
      | image origin => cases image
      | text content =>
        have some_text : content ≠ "" := fits _ List.mem_cons_self
        have joined : String.join ([PlainBlock.text content].filterMap PlainBlock.text?)
            = content := by
          simp [PlainBlock.text?, String.join]
        rw [if_neg (List.cons_ne_nil _ _), joined, convertContentO2A, if_neg some_text]
        rfl

/-- What `json.loads` makes of the texts of the inputs. -/
def Inverts (env : RequestEnv) (uses : List ToolUseBlock) : Prop :=
  ∀ use ∈ uses, env.loads (dumps (.obj use.input)) = .value (.obj use.input)

theorem convertToolCallO2A_call {use : ToolUseBlock}
    (inverts : env.loads (dumps (.obj use.input)) = .value (.obj use.input)) :
    convertToolCallO2A env use.call = some [.obj use.fields] := by
  have some_text : dumps (.obj use.input) ≠ "" := by
    intro empty
    have chars := congrArg String.toList empty
    rw [dumps, String.append_assoc, String.toList_append] at chars
    exact List.cons_ne_nil _ _ chars
  have there : trueField [("name", use.name), ("arguments", .str (dumps (.obj use.input)))]
      "arguments" = some (.str (dumps (.obj use.input))) := by
    change (some (Json.str (dumps (.obj use.input)))).filter Json.truthy = _
    exact Option.filter_some_pos (decide_eq_true some_text)
  have fn : fieldsOr (Fields.get [("id", use.id), ("type", .str "function"), ("function",
      .obj [("name", use.name), ("arguments", .str (dumps (.obj use.input)))])] "function")
        = some [("name", use.name), ("arguments", .str (dumps (.obj use.input)))] := rfl
  simp only [ToolUseBlock.call, convertToolCallO2A, fn, Option.bind_eq_bind, Option.bind_some,
    there, Option.getD_some, inverts]
  rfl

theorem convertToolCalls_calls {uses : List ToolUseBlock} (inverts : Inverts env uses) :
    (uses.map ToolUseBlock.call).mapM (convertToolCallO2A env)
      = some (uses.map fun use => [.obj use.fields]) := by
  induction uses with
  | nil => rfl
  | cons use uses ih =>
    obtain ⟨first, rest⟩ := List.forall_mem_cons.mp inverts
    rw [List.map_cons, List.mapM_cons, convertToolCallO2A_call env first, ih rest]
    rfl

theorem convertMessagesO2A_append (messages more : List Json) :
    convertMessagesO2A env (messages ++ more)
      = (convertMessagesO2A env messages).bind fun first =>
          (convertMessagesO2A env more).map fun rest => (first.1 ++ rest.1, first.2 ++ rest.2) := by
  induction messages with
  | nil =>
    rw [List.nil_append]
    exact (Option.map_id' ..).symm
  | cons msg messages ih =>
    rw [List.cons_append, convertMessagesO2A, convertMessagesO2A, ih]
    cases convertMessageO2A env msg with
    | none => rfl
    | some first =>
      cases convertMessagesO2A env messages with
      | none => rfl
      | some mid =>
        cases convertMessagesO2A env more with
        | none => rfl
        | some rest => simp [List.append_assoc]

theorem convertMessagesO2A_results (results : List ToolResultBlock) :
    convertMessagesO2A env (results.map ToolResultBlock.message)
      = some ([], results.map fun b => ⟨"user", [.obj b.fields]⟩) := by
  induction results with
  | nil => rfl
  | cons block results ih =>
    have role : Fields.get [("role", .str "tool"), ("tool_call_id", block.toolUseId),
        ("content", .str block.content)] "role" = some (.str "tool") := rfl
    have first : convertMessageO2A env block.message
        = some ([], [⟨"user", [.obj block.fields]⟩]) := by
      simp only [ToolResultBlock.message, convertMessageO2A]
      rw [role, if_neg (by decide), if_pos rfl]
      rfl
    rw [List.map_cons, convertMessagesO2A, first, ih]
    rfl

theorem convertMessageO2A_user {plain : List PlainBlock} (fits : ∀ b ∈ plain, b.Fits)
    (kept : ∀ b ∈ plain, b.Kept) (texts : plain.length ≤ 1 ∨ ∃ b ∈ plain, b.isImage = true)
    (some_block : plain ≠ []) :
    convertMessageO2A env (.obj [("role", .str "user"), ("content", plainContent plain)])
      = some ([], [⟨"user", plain.map PlainBlock.json⟩]) := by
  have role : Fields.get [("role", .str "user"), ("content", plainContent plain)] "role"
      = some (.str "user") := rfl
  have content : (Fields.get [("role", .str "user"), ("content", plainContent plain)]
      "content").getD .null = plainContent plain := rfl
  simp only [convertMessageO2A]
  rw [role, if_neg (by decide), if_neg (by decide), if_neg (by decide), content,
    convertContentO2A_plain env fits kept texts, Option.map_some,
    if_neg (mt List.map_eq_nil_iff.mp some_block)]

theorem convertMessageO2A_assistant {plain : List PlainBlock} {uses : List ToolUseBlock}
    (fits : ∀ b ∈ plain, b.Fits) (kept : ∀ b ∈ plain, b.Kept)
    (texts : plain.length ≤ 1 ∨ ∃ b ∈ plain, b.isImage = true) (inverts : Inverts env uses)
    (some_block : ¬(plain = [] ∧ uses = [])) :
    convertMessageO2A env (.obj ([("role", .str "assistant"), ("content", plainContent plain)]
        ++ if uses = [] then [] else [("tool_calls", .arr (uses.map ToolUseBlock.call))]))
      = some ([],
        [⟨"assistant", plain.map PlainBlock.json ++ uses.map fun b => .obj b.fields⟩]) := by
  have calls : (itemsOr (Fields.get ([("role", .str "assistant"), ("content", plainContent plain)]
      ++ if uses = [] then [] else [("tool_calls", .arr (uses.map ToolUseBlock.call))])
        "tool_calls")) = some (uses.map ToolUseBlock.call) := by
    cases uses with
    | nil => rfl
    | cons use uses => rfl
  have role : Fields.get ([("role", .str "assistant"), ("content", plainContent plain)]
      ++ if uses = [] then [] else [("tool_calls", .arr (uses.map ToolUseBlock.call))]) "role"
        = some (.str "assistant") := rfl
  have content : (Fields.get ([("role", .str "assistant"), ("content", plainContent plain)]
      ++ if uses = [] then [] else [("tool_calls", .arr (uses.map ToolUseBlock.call))])
        "content").getD .null = plainContent plain := rfl
  have singles : (uses.map fun use => [Json.obj use.fields]).flatten
      = uses.map fun use => .obj use.fields := by
    rw [← List.flatMap_def, ← List.map_eq_flatMap]
  have blocks : plain.map PlainBlock.json ++ uses.map (fun use => Json.obj use.fields) ≠ [] := by
    intro empty
    obtain ⟨noPlain, noUse⟩ := List.append_eq_nil_iff.mp empty
    exact some_block ⟨List.map_eq_nil_iff.mp noPlain, List.map_eq_nil_iff.mp noUse⟩
  simp only [convertMessageO2A]
  rw [role, if_neg (by decide), if_neg (by decide), if_pos rfl, content,
    convertContentO2A_plain env fits kept texts, calls]
  simp only [Option.bind_eq_bind, Option.bind_some, convertToolCalls_calls env inverts, singles,
    if_neg blocks, Option.pure_def]

theorem convertMessagesO2A_openAI {msg : TripMessage} (fits : msg.Fits)
    (kept : ∀ b ∈ msg.plain, b.Kept) (inverts : Inverts env msg.uses) :
    convertMessagesO2A env msg.openAI = some ([], msg.turns) := by
  cases msg with
  | user results plain =>
    have blocks : ∀ b ∈ plain, b.Fits := fits.blocks
    have kept : ∀ b ∈ plain, b.Kept := kept
    have texts : plain.length ≤ 1 ∨ ∃ b ∈ plain, b.isImage = true := fits.texts
    rw [TripMessage.openAI, TripMessage.turns, convertMessagesO2A_append,
      convertMessagesO2A_results]
    by_cases none_left : plain = []
    · rw [if_pos none_left, if_pos none_left]
      rfl
    · rw [if_neg none_left, if_neg none_left, convertMessagesO2A,
        convertMessageO2A_user env blocks kept texts none_left]
      rfl
  | assistant plain uses =>
    have blocks : ∀ b ∈ plain, b.Fits := fits.blocks
    have kept : ∀ b ∈ plain, b.Kept := kept
    have texts : plain.length ≤ 1 ∨ ∃ b ∈ plain, b.isImage = true := fits.texts
    have inverts : Inverts env uses := inverts
    rw [TripMessage.openAI, TripMessage.turns]
    by_cases none_left : plain = [] ∧ uses = []
    · rw [if_pos none_left, if_pos none_left]
      rfl
    · rw [if_neg none_left, if_neg none_left, convertMessagesO2A,
        convertMessageO2A_assistant env blocks kept texts inverts none_left]
      rfl

theorem convertMessagesO2A_conversation {conv : List TripMessage} (fits : ∀ msg ∈ conv, msg.Fits)
    (kept : ∀ msg ∈ conv, ∀ b ∈ msg.plain, b.Kept) (inverts : ∀ msg ∈ conv, Inverts env msg.uses) :
    convertMessagesO2A env (conv.flatMap TripMessage.openAI)
      = some ([], conv.flatMap TripMessage.turns) := by
  induction conv with
  | nil => rfl
  | cons msg conv ih =>
    rw [List.forall_mem_cons] at fits kept inverts
    rw [List.flatMap_cons, convertMessagesO2A_append,
      convertMessagesO2A_openAI env fits.1 kept.1 inverts.1, ih fits.2 kept.2 inverts.2]
    rfl

end FromOpenAI

/-! ## Turns merged -/

namespace TripMessage

/-- A message with its blocks. -/
def whole (msg : TripMessage) : BlockMessage := ⟨msg.role, msg.blocks⟩

theorem turns_blocks (msg : TripMessage) :
    (msg.turns.flatMap fun m => m.blocks.map (m.role, ·)) = msg.blocks.map (msg.role, ·) := by
  cases msg with
  | user results plain =>
    have singles : ((results.map fun b => (⟨"user", [.obj b.fields]⟩ : BlockMessage)).flatMap
        fun m => m.blocks.map (m.role, ·)) = results.map fun b => ("user", Json.obj b.fields) := by
      rw [List.flatMap_map, List.map_eq_flatMap]
      rfl
    rw [turns, List.flatMap_append, singles, blocks, role, List.map_append, List.map_map]
    congr 1
    by_cases none_left : plain = []
    · rw [if_pos none_left, none_left]
      rfl
    · rw [if_neg none_left, List.flatMap_singleton]
  | assistant plain uses =>
    rw [turns, blocks, role]
    by_cases none_left : plain = [] ∧ uses = []
    · rw [if_pos none_left, none_left.1, none_left.2]
      rfl
    · rw [if_neg none_left, List.flatMap_singleton]

theorem turns_nonempty (msg : TripMessage) : ∀ m ∈ msg.turns, m.blocks ≠ [] := by
  cases msg with
  | user results plain =>
    refine List.forall_mem_append.mpr ⟨?_, ?_⟩
    · rw [List.forall_mem_map]
      exact fun _ _ => List.cons_ne_nil _ _
    · by_cases none_left : plain = []
      · rw [if_pos none_left]
        exact List.forall_mem_nil _
      · rw [if_neg none_left]
        exact List.forall_mem_singleton.mpr (mt List.map_eq_nil_iff.mp none_left)
  | assistant plain uses =>
    rw [turns]
    by_cases none_left : plain = [] ∧ uses = []
    · rw [if_pos none_left]
      exact List.forall_mem_nil _
    · rw [if_neg none_left]
      refine List.forall_mem_singleton.mpr fun empty => none_left ?_
      obtain ⟨noPlain, noUse⟩ := List.append_eq_nil_iff.mp empty
      exact ⟨List.map_eq_nil_iff.mp noPlain, List.map_eq_nil_iff.mp noUse⟩

end TripMessage

theorem merge_turns {conv : List TripMessage} (fits : FitsTrip conv) :
    mergeConsecutiveSameRole (conv.flatMap TripMessage.turns) = conv.map TripMessage.whole := by
  have nonempty : ∀ m ∈ conv.flatMap TripMessage.turns, m.blocks ≠ [] := by
    intro m mem
    obtain ⟨msg, -, here⟩ := List.mem_flatMap.mp mem
    exact msg.turns_nonempty m here
  have merged := merged_mergeConsecutiveSameRole nonempty
  have blocks : tagged ((mergeConsecutiveSameRole (conv.flatMap TripMessage.turns)).map
        BlockMessage.run) = tagged ((conv.map TripMessage.whole).map BlockMessage.run) := by
    rw [tagged_run, tagged_run, merged.blocks, List.flatMap_assoc, List.flatMap_map]
    congr 1
    funext msg
    exact msg.turns_blocks
  have same := eq_of_tagged ?_ ?_ ?_ ?_ blocks
  · exact List.map_injective_iff.mpr (Function.LeftInverse.injective BlockMessage.ofRun_run) same
  · exact (List.isChain_map BlockMessage.run).mpr merged.alternates
  · rw [List.map_map]
    exact (List.isChain_map _).mpr fits.alternates
  · rw [List.forall_mem_map]
    exact merged.nonempty
  · rw [List.map_map, List.forall_mem_map]
    exact fun msg mem => (fits.messages msg mem).some_blocks

/-! ## Requests -/

section Requests

variable (env : RequestEnv) {β : Type}

/-- A request for a conversation. -/
structure AnthropicRequest (body : Fields) (conv : List TripMessage) : Prop where
  messages : ∃ values, body.get "messages" = some (.arr values)
    ∧ List.Forall₂ (fun value msg => TripMessage.Shown value msg) values conv
  tools : ∀ tools, body.get "tools" = some tools → ∃ items, tools = .arr items

theorem itemsOr_arr (items : List Json) : itemsOr (some (.arr items)) = some items := by
  cases items with
  | nil => rfl
  | cons item items => rfl

theorem convertMessagesA2O_conversation {conv : List TripMessage} {values : List Json}
    (shown : List.Forall₂ (fun value msg => TripMessage.Shown value msg) values conv) :
    convertMessagesA2O env values = some (conv.flatMap TripMessage.openAI) := by
  have each : values.mapM (convertMessageA2O env) = some (conv.map TripMessage.openAI) := by
    induction shown with
    | nil => rfl
    | cons first _ ih =>
      rw [List.mapM_cons, convertMessageA2O_eq env first, ih]
      rfl
  rw [convertMessagesA2O, each, Option.map_some, List.flatMap_def]

theorem convertMessagesO2A_system (body : Fields) :
    ∃ texts, convertMessagesO2A env (systemMessageA2O env body) = some (texts, [])
      ∧ ∀ text, text ≠ "" → body.get "system" = some (.str text) → texts = [text] := by
  unfold systemMessageA2O
  split
  · next missing =>
    refine ⟨[], rfl, fun text _ there => ?_⟩
    rw [missing] at there
    cases there
  · next missing =>
    refine ⟨[], rfl, fun text _ there => ?_⟩
    rw [missing] at there
    cases there
  · next system _ found =>
    by_cases empty : systemToText env system = ""
    · rw [if_pos empty]
      refine ⟨[], rfl, fun text some_text there => absurd empty ?_⟩
      rw [found] at there
      obtain rfl := Option.some.inj there
      exact some_text
    · rw [if_neg empty]
      refine ⟨[systemToText env system], rfl, fun text _ there => ?_⟩
      rw [found] at there
      obtain rfl := Option.some.inj there
      rfl

theorem get_renamed_self (value : Option Json) (key : String) :
    Fields.get (renamed value key) key = value := by
  cases value with
  | none => rfl
  | some value => exact List.lookup_cons_self

theorem get_append_of_missing {back : Fields} {key : String} (missing : back.get key = none)
    (front : Fields) : Fields.get (front ++ back) key = front.get key := by
  unfold Fields.get at missing ⊢
  rw [List.lookup_append, missing, Option.or_none]

theorem convertToolChoiceO2A_converted {choice converted : Json}
    (h : convertToolChoiceA2O choice = some converted) :
    ∃ back, convertToolChoiceO2A converted = some back := by
  cases choice with
  | str choice =>
    obtain rfl := Option.some.inj h
    exact ⟨_, rfl⟩
  | obj choice =>
    simp only [convertToolChoiceA2O] at h
    split_ifs at h with auto any tool none_chosen
    · obtain rfl := Option.some.inj h
      exact ⟨_, rfl⟩
    · obtain rfl := Option.some.inj h
      exact ⟨_, rfl⟩
    · obtain rfl := Option.some.inj h
      exact ⟨_, rfl⟩
    · obtain rfl := Option.some.inj h
      exact ⟨_, rfl⟩
  | null | bool | int | float | arr => cases h

theorem mapM_isSome {value : Option Json} {f : Json → Option β}
    (good : ∀ v, value = some v → ∃ w, f v = some w) : ∃ w, value.mapM f = some w := by
  cases value with
  | none => exact ⟨none, rfl⟩
  | some v =>
    obtain ⟨w, there⟩ := good v rfl
    refine ⟨some w, ?_⟩
    rw [Option.mapM_some, there]
    rfl

theorem translateRequestA2O_request (maxTokensDefault : ℤ) {body : Fields}
    {conv : List TripMessage} (request : AnthropicRequest body conv) :
    ∃ mid, translateRequestA2O env maxTokensDefault body = some mid
      ∧ mid.get "messages"
        = some (.arr (systemMessageA2O env body ++ conv.flatMap TripMessage.openAI))
      ∧ (∀ tools, mid.get "tools" = some tools → ∃ items, tools = .arr items)
      ∧ ∀ choice, mid.get "tool_choice" = some choice →
        ∃ given, convertToolChoiceA2O given = some choice := by
  obtain ⟨values, there, shown⟩ := request.messages
  have messages := convertMessagesA2O_conversation env shown
  have accepted : ∀ tools, trueField body "tools" = some tools →
      ∃ items, convertToolsA2O tools = some items := by
    intro tools given
    obtain ⟨found, -⟩ := Option.filter_eq_some_iff.mp given
    obtain ⟨items, rfl⟩ := request.tools tools found
    rw [convertToolsA2O, itemsOr_arr]
    exact ⟨_, rfl⟩
  obtain ⟨tools, converted⟩ := mapM_isSome accepted
  obtain ⟨mid, sent⟩ : ∃ mid, translateRequestA2O env maxTokensDefault body = some mid := by
    rw [translateRequestA2O, there, itemsOr_arr]
    simp only [Option.bind_eq_bind, Option.bind_some, messages, converted]
    exact ⟨_, rfl⟩
  refine ⟨mid, sent, ?_⟩
  rw [translateRequestA2O, there, itemsOr_arr] at sent
  simp only [Option.bind_eq_bind, Option.bind_some, messages, converted] at sent
  obtain rfl := Option.some.inj sent
  refine ⟨?_, ?_, ?_⟩
  · simp only [List.append_assoc]
    rw [get_append_of_none (get_renamed_of_ne (by decide) _)]
    rfl
  · simp only [List.append_assoc]
    intro value given
    rw [get_append_of_none (get_renamed_of_ne (by decide) _), get_append_of_none rfl,
      get_append_of_none (get_renamed_of_ne (by decide) _),
      get_append_of_none (get_renamed_of_ne (by decide) _),
      get_append_of_none (get_renamed_of_ne (by decide) _),
      get_append_of_none (get_renamed_of_ne (by decide) _),
      get_append_of_missing, get_renamed_self] at given
    · obtain ⟨items, -, same⟩ := Option.map_eq_some_iff.mp given
      exact ⟨items, same.symm⟩
    · rw [get_append_of_none (get_renamed_of_ne (by decide) _), get_renamed_of_ne (by decide)]
  · simp only [List.append_assoc]
    intro value given
    rw [get_append_of_none (get_renamed_of_ne (by decide) _), get_append_of_none rfl,
      get_append_of_none (get_renamed_of_ne (by decide) _),
      get_append_of_none (get_renamed_of_ne (by decide) _),
      get_append_of_none (get_renamed_of_ne (by decide) _),
      get_append_of_none (get_renamed_of_ne (by decide) _),
      get_append_of_none (get_renamed_of_ne (by decide) _),
      get_append_of_missing (get_renamed_of_ne (by decide) _), get_renamed_self] at given
    obtain ⟨choice, -, same⟩ := Option.bind_eq_some_iff.mp given
    exact ⟨choice, same⟩

theorem translateRequestO2A_isSome {mid : Fields} {messages : List Json}
    {converted : List String × List BlockMessage}
    (there : mid.get "messages" = some (.arr messages))
    (conv : convertMessagesO2A env messages = some converted)
    (tools : ∀ tools, mid.get "tools" = some tools → ∃ items, tools = .arr items)
    (choice : ∀ choice, mid.get "tool_choice" = some choice →
      ∃ given, convertToolChoiceA2O given = some choice) :
    ∃ out, translateRequestO2A env mid = some out := by
  have accepted : ∀ v, trueField mid "tools" = some v →
      ∃ items, convertToolsO2A v = some items := by
    intro v given
    obtain ⟨found, -⟩ := Option.filter_eq_some_iff.mp given
    obtain ⟨items, rfl⟩ := tools v found
    rw [convertToolsO2A, itemsOr_arr]
    exact ⟨_, rfl⟩
  have chosen : ∀ v, givenField mid "tool_choice" = some v →
      ∃ back, convertToolChoiceO2A v = some back := by
    intro v given
    obtain ⟨found, -⟩ := Option.filter_eq_some_iff.mp given
    obtain ⟨_, from_given⟩ := choice v found
    exact convertToolChoiceO2A_converted from_given
  obtain ⟨_, tools_eq⟩ := mapM_isSome accepted
  obtain ⟨_, choice_eq⟩ := mapM_isSome chosen
  rw [translateRequestO2A, there, itemsOr_arr]
  simp only [Option.bind_eq_bind, Option.bind_some, conv, tools_eq, choice_eq]
  exact ⟨_, rfl⟩

/-- **There and back.** -/
theorem translateRequest_trip (maxTokensDefault : ℤ) {body : Fields} {conv : List TripMessage}
    (request : AnthropicRequest body conv) (fits : FitsTrip conv)
    (kept : ∀ msg ∈ conv, ∀ b ∈ msg.plain, b.Kept) (inverts : ∀ msg ∈ conv, Inverts env msg.uses) :
    ∃ mid out, translateRequestA2O env maxTokensDefault body = some mid
      ∧ translateRequestO2A env mid = some out
      ∧ out.get "messages" = some (.arr (conv.map TripMessage.json))
      ∧ ∀ text, text ≠ "" → body.get "system" = some (.str text) →
        out.get "system" = some (.str text) := by
  obtain ⟨mid, sent, there, tools, choice⟩ :=
    translateRequestA2O_request env maxTokensDefault request
  obtain ⟨texts, system, kept_text⟩ := convertMessagesO2A_system env body
  have conv_back : convertMessagesO2A env
      (systemMessageA2O env body ++ conv.flatMap TripMessage.openAI)
        = some (texts, conv.flatMap TripMessage.turns) := by
    rw [convertMessagesO2A_append, system,
      convertMessagesO2A_conversation env fits.messages kept inverts, Option.bind_some,
      Option.map_some, List.append_nil, List.nil_append]
  obtain ⟨out, back⟩ := translateRequestO2A_isSome env there conv_back tools choice
  obtain ⟨messages, converted, found, eq, out_messages, out_system⟩ :=
    translateRequestO2A_parts env back
  rw [there, itemsOr_arr] at found
  obtain rfl := Option.some.inj found
  rw [conv_back] at eq
  obtain rfl := Option.some.inj eq
  refine ⟨mid, out, sent, back, ?_, fun text some_text given => ?_⟩
  · rw [out_messages, merge_turns fits, List.map_map]
    rfl
  · obtain rfl := kept_text text some_text given
    have joined : String.join [text] = text := by simp [String.join]
    rw [out_system, joined, if_neg some_text]

end Requests

/-! ## A conversation as it is written -/

theorem PlainBlock.shown_json (b : PlainBlock) : b.Shown b.json := by
  cases b with
  | text content => exact ⟨_, rfl, fun _ => rfl⟩
  | image origin => exact ⟨_, _, rfl, fun _ => rfl, fun _ => rfl⟩

theorem forall₂_map_self {α : Type} {R : Json → α → Prop} {f : α → Json} (shown : ∀ a, R (f a) a)
    (as : List α) : List.Forall₂ R (as.map f) as := by
  induction as with
  | nil => exact .nil
  | cons a as ih => exact .cons (shown a) ih

theorem TripMessage.shown_json (msg : TripMessage) : msg.Shown msg.json := by
  refine ⟨_, msg.blocks, rfl, fun _ => rfl, ?_⟩
  have results : ∀ b : ToolResultBlock, b.Shown (.obj b.fields) := fun b => ⟨_, rfl, fun _ => rfl⟩
  have uses : ∀ b : ToolUseBlock, b.Shown (.obj b.fields) := fun b => ⟨_, rfl, fun _ => rfl⟩
  cases msg with
  | user rs plain =>
    exact ⟨_, _, rfl, forall₂_map_self results rs, forall₂_map_self PlainBlock.shown_json plain⟩
  | assistant plain us =>
    exact ⟨_, _, rfl, forall₂_map_self PlainBlock.shown_json plain, forall₂_map_self uses us⟩

/-- The request that has a conversation only. -/
def conversationRequest (conv : List TripMessage) : Fields :=
  [("messages", .arr (conv.map TripMessage.json))]

theorem conversationRequest_request (conv : List TripMessage) :
    AnthropicRequest (conversationRequest conv) conv := by
  refine ⟨⟨_, rfl, forall₂_map_self TripMessage.shown_json conv⟩, ?_⟩
  intro tools there
  cases there

/-- The environment where `json.loads` knows one text. -/
def oneInputEnv : RequestEnv where
  loads text := if text = "\x7b\"k\": 1\x7d" then .value (.obj [("k", .int 1)]) else .rejected
  strOf _ := ""

/-- A conversation with a tool call between two users. -/
def toolConversation : List TripMessage :=
  [.user [] [.text "a", .image (.base64 "image/gif" "x")],
    .assistant [.text "b"] [⟨.str "t", .str "f", [("k", .int 1)]⟩],
    .user [⟨.str "t", "r"⟩] [.text "c"]]

theorem toolConversation_fits : FitsTrip toolConversation where
  messages := by
    intro msg mem
    simp only [toolConversation, List.mem_cons, List.not_mem_nil, or_false] at mem
    rcases mem with rfl | rfl | rfl
    · exact ⟨by decide, by decide, .inr ⟨_, List.mem_cons_of_mem _ List.mem_cons_self, rfl⟩⟩
    · exact ⟨by decide, by decide, .inl (by decide)⟩
    · exact ⟨by decide, by decide, .inl (by decide)⟩
  alternates := by decide

theorem toolConversation_trip : ∃ mid out,
    translateRequestA2O oneInputEnv 4096 (conversationRequest toolConversation) = some mid
      ∧ translateRequestO2A oneInputEnv mid = some out
      ∧ out.get "messages" = some (.arr (toolConversation.map TripMessage.json)) := by
  have inverts : ∀ msg ∈ toolConversation, Inverts oneInputEnv msg.uses := by
    intro msg mem
    simp only [toolConversation, List.mem_cons, List.not_mem_nil, or_false] at mem
    rcases mem with rfl | rfl | rfl
    · exact List.forall_mem_nil _
    · refine List.forall_mem_singleton.mpr ?_
      decide
    · exact List.forall_mem_nil _
  obtain ⟨mid, out, sent, back, same, -⟩ := translateRequest_trip oneInputEnv 4096
    (conversationRequest_request toolConversation) toolConversation_fits (by decide) inverts
  exact ⟨mid, out, sent, back, same⟩

/-- A conversation with one image. -/
def imageConversation (origin : ImageOrigin) : List TripMessage := [.user [] [.image origin]]

theorem imageConversation_fits {origin : ImageOrigin} (fits : origin.Fits) :
    FitsTrip (imageConversation origin) where
  messages := List.forall_mem_singleton.mpr
    ⟨List.cons_ne_nil _ _, List.forall_mem_singleton.mpr fits, .inl le_rfl⟩
  alternates := List.isChain_singleton _

/-- The messages that come back. -/
def tripMessages (conv : List TripMessage) : Option Json :=
  ((translateRequestA2O oneInputEnv 4096 (conversationRequest conv)).bind
    (translateRequestO2A oneInputEnv)).bind (·.get "messages")

/-- An image without a media type and one with a data URL come back as others. -/
theorem image_changed :
    (FitsTrip (imageConversation (.base64 "" "x"))
      ∧ tripMessages (imageConversation (.base64 "" "x"))
        = some (.arr ((imageConversation (.base64 "image/png" "x")).map TripMessage.json))
      ∧ tripMessages (imageConversation (.base64 "" "x"))
        ≠ some (.arr ((imageConversation (.base64 "" "x")).map TripMessage.json)))
    ∧ FitsTrip (imageConversation (.url "data:a,x"))
      ∧ tripMessages (imageConversation (.url "data:a,x"))
        = some (.arr ((imageConversation (.base64 "a" "x")).map TripMessage.json))
      ∧ tripMessages (imageConversation (.url "data:a,x"))
        ≠ some (.arr ((imageConversation (.url "data:a,x")).map TripMessage.json)) := by
  refine ⟨⟨imageConversation_fits (by decide), by decide, by decide⟩,
    imageConversation_fits trivial, by decide, by decide⟩

end Zhongzhuan.Protocol
