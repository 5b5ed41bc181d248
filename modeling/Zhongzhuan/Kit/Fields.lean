import Zhongzhuan.Kit.Json

/-!
# Writing fields of an object

How `d[key] = v` and `d.pop(key)` compose, and the length of an object's text when one field
is written: an object whose fields are no longer, one by one, has no longer a text
(`Fields.Narrower`), and `put` keeps that.
-/

namespace Zhongzhuan.Kit

namespace Fields

theorem put_put (key : String) (v w : Json) (fields : Fields) :
    put key w (put key v fields) = put key w fields := by
  induction fields with
  | nil => simp [put]
  | cons field rest ih =>
      obtain ⟨k, u⟩ := field
      by_cases same : k = key
      · simp [put, same]
      · simp only [put, if_neg same, ih]

theorem put_comm {key other : String} (ne : key ≠ other) (v w : Json) {fields : Fields}
    (present : (fields.get key).isSome) :
    put key v (put other w fields) = put other w (put key v fields) := by
  unfold get at present
  induction fields with
  | nil => simp at present
  | cons field rest ih =>
      obtain ⟨k, u⟩ := field
      by_cases same : k = key
      · subst same
        simp [put, ne]
      · have miss : (key == k) = false := by simpa using Ne.symm same
        rw [List.lookup_cons, miss] at present
        by_cases atOther : k = other
        · simp [put, atOther, Ne.symm ne]
        · simp only [put, if_neg same, if_neg atOther, ih present]

theorem without_cons_self (key : String) (v : Json) (fields : Fields) :
    without ((key, v) :: fields) key = without fields key :=
  List.filter_cons_of_neg (by simp)

theorem without_cons_of_ne {key other : String} (ne : other ≠ key) (v : Json)
    (fields : Fields) :
    without ((other, v) :: fields) key = (other, v) :: without fields key :=
  List.filter_cons_of_pos (by simpa using ne)

theorem get_without_of_ne {key other : String} (ne : other ≠ key) (fields : Fields) :
    (without fields key).get other = fields.get other := by
  unfold get
  induction fields with
  | nil => rfl
  | cons field rest ih =>
      obtain ⟨k, u⟩ := field
      by_cases same : k = key
      · have miss : (other == k) = false := by simpa [same] using ne
        rw [same, without_cons_self, ih, List.lookup_cons, ← same, miss]
      · rw [without_cons_of_ne same, List.lookup_cons, List.lookup_cons, ih]

theorem without_put_self (key : String) (v : Json) (fields : Fields) :
    without (put key v fields) key = without fields key := by
  induction fields with
  | nil => exact without_cons_self key v []
  | cons field rest ih =>
      obtain ⟨k, u⟩ := field
      by_cases same : k = key
      · rw [put, if_pos same, same, without_cons_self, without_cons_self]
      · rw [put, if_neg same, without_cons_of_ne same, without_cons_of_ne same, ih]

theorem without_put_of_ne {key other : String} (ne : other ≠ key) (v : Json)
    (fields : Fields) :
    without (put other v fields) key = put other v (without fields key) := by
  induction fields with
  | nil => exact without_cons_of_ne ne v []
  | cons field rest ih =>
      obtain ⟨k, u⟩ := field
      by_cases same : k = other
      · rw [put, if_pos same, same, without_cons_of_ne ne, without_cons_of_ne ne, put,
          if_pos rfl]
      · rw [put, if_neg same]
        by_cases dropped : k = key
        · rw [dropped, without_cons_self, without_cons_self, ih]
        · rw [without_cons_of_ne dropped, without_cons_of_ne dropped, put, if_neg same, ih]

/-! ## Lengths of texts -/

/-- The same keys in the same order, with values whose texts are no longer. -/
def Narrower (fields wide : Fields) : Prop :=
  List.Forall₂ (fun f w => f.1 = w.1 ∧ (dumps f.2).length ≤ (dumps w.2).length) fields wide

theorem Narrower.refl (fields : Fields) : Narrower fields fields := by
  apply List.forall₂_same.mpr
  intro field _
  exact ⟨rfl, le_rfl⟩

theorem Narrower.put {key : String} {v w : Json} {fields wide : Fields}
    (value : (dumps v).length ≤ (dumps w).length) (narrower : Narrower fields wide) :
    Narrower (put key v fields) (put key w wide) := by
  induction narrower with
  | nil => exact .cons ⟨rfl, value⟩ .nil
  | @cons field other rest others head tail ih =>
      obtain ⟨k, u⟩ := field
      obtain ⟨k', u'⟩ := other
      obtain ⟨rfl, shorter⟩ : k = k' ∧ (dumps u).length ≤ (dumps u').length := head
      by_cases same : k = key
      · simp only [Fields.put, if_pos same]
        exact .cons ⟨rfl, value⟩ tail
      · simp only [Fields.put, if_neg same]
        exact .cons ⟨rfl, shorter⟩ ih

theorem Narrower.dumpsFields {fields wide : Fields} (narrower : Narrower fields wide) :
    (dumpsFields fields).length ≤ (dumpsFields wide).length := by
  induction narrower with
  | nil => exact le_rfl
  | @cons field other rest others head tail ih =>
      obtain ⟨k, u⟩ := field
      obtain ⟨k', u'⟩ := other
      obtain ⟨rfl, shorter⟩ : k = k' ∧ (dumps u).length ≤ (dumps u').length := head
      cases tail with
      | nil =>
          simp only [Kit.dumpsFields, String.length_append]
          omega
      | cons _ _ =>
          simp only [Kit.dumpsFields, String.length_append] at ih ⊢
          omega

theorem Narrower.dumps {fields wide : Fields} (narrower : Narrower fields wide) :
    (dumps (.obj fields)).length ≤ (dumps (.obj wide)).length := by
  simp only [Kit.dumps, String.length_append]
  have := narrower.dumpsFields
  omega

end Fields

theorem length_repr_mono {n m : ℕ} (le : n ≤ m) : n.repr.length ≤ m.repr.length := by
  apply (Nat.length_repr_le_iff Nat.length_repr_pos).mpr
  exact lt_of_le_of_lt le ((Nat.length_repr_le_iff Nat.length_repr_pos).mp le_rfl)

theorem length_dumps_nat_mono {n m : ℕ} (le : n ≤ m) :
    (dumps (.int n)).length ≤ (dumps (.int m)).length := length_repr_mono le

end Zhongzhuan.Kit
