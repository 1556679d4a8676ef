import RegexTree.Proofs.DraftRoundTrip

/-!
# Stated values and their normal form

A stated value is an item that is no object, with objects around it. A node takes the first object for nothing but the place of its
value, and every further one for a level (`toNodeValue_eq`). So a text by itself and a text in one object are the same value, and the
normal form is the one with the object (`stated_value_normal`).
-/

namespace RegexTree

namespace DraftValue

/-- The objects around what a value states. -/
def nesting : DraftValue → Nat
  | object inner => inner.nesting + 1
  | _ => 0

/-- The item inside all objects of a stated value. -/
def item : DraftValue → DraftValue
  | object inner => inner.item
  | d => d

/-- So many objects around a stated value. -/
def around : Nat → DraftValue → DraftValue
  | 0, d => d
  | n + 1, d => object (around n d)

/-- How a node writes the value that it states. -/
def normal (d : DraftValue) : Except Cause DraftValue := d.toNodeValue.map ofNodeValue

end DraftValue

namespace NormalValueAux

open DraftValue

/-- A stated value is its item with its objects around it. -/
theorem around_item (d : DraftValue) : around d.nesting d.item = d := by
  induction d with
  | object inner ih => exact congrArg object ih
  | _ => rfl

/-- The item is no object. -/
theorem item_ne_object (d inner : DraftValue) : d.item ≠ object inner := by
  induction d with
  | object _ ih => exact ih
  | _ => exact DraftValue.noConfusion

/-- Each object is a level of the value inside it. -/
theorem toValue_around (n : Nat) (d : DraftValue) : (around n d).toValue = d.toValue.map (Value.wrap n) := by
  induction n with
  | zero => cases hd : d.toValue <;> simp [around, hd, Except.map, Value.wrap]
  | succ n ih =>
    rw [around, toValue, ih]
    cases d.toValue <;> rfl

/-- Each object is a level of the value of a node, except for the first. -/
theorem toNodeValue_eq (d : DraftValue) : d.toNodeValue = d.item.toValue.map (Value.wrap (d.nesting - 1)) := by
  cases d with
  | object inner =>
    calc inner.toValue = (around inner.nesting inner.item).toValue := by rw [around_item]
      _ = inner.item.toValue.map (Value.wrap inner.nesting) := toValue_around inner.nesting inner.item
  | _ => rfl

/-- A value without a text has none in any number of objects. -/
theorem toNodeValue_error {d : DraftValue} {cause : Cause} (h : d.item.toValue = .error cause) : d.toNodeValue = .error cause := by
  rw [toNodeValue_eq, h]
  rfl

/-- A value with a text has the text, and a level for each object but the first. -/
theorem toNodeValue_ok {d : DraftValue} {t : String} (h : d.item.toValue = .ok (.literal t)) :
    ∃ v, d.toNodeValue = .ok v ∧ v.resolve = t ∧ v.nesting = d.nesting - 1 := by
  refine ⟨Value.wrap (d.nesting - 1) (.literal t), ?_, ?_, ?_⟩
  · rw [toNodeValue_eq, h]
    rfl
  · rw [Value.resolve_wrap, Value.resolve]
  · rw [Value.nesting_wrap, Value.nesting, Nat.zero_add]

/-- An item has a text or is refused. -/
theorem toValue_item_cases (d : DraftValue) :
    (∃ t, d.item.toValue = .ok (.literal t)) ∨ ∃ cause, d.item.toValue = .error cause := by
  cases hi : d.item with
  | null => exact Or.inl ⟨"", rfl⟩
  | text t => exact Or.inl ⟨t, rfl⟩
  | number n => exact Or.inr ⟨_, rfl⟩
  | flag b => exact Or.inr ⟨_, rfl⟩
  | object inner => exact absurd hi (item_ne_object d inner)

/-- The value of a node has a level less than the node states objects. -/
theorem nesting_of_toNodeValue {d : DraftValue} {v : Value} (h : d.toNodeValue = .ok v) : v.nesting = d.nesting - 1 := by
  rcases toValue_item_cases d with ⟨t, ht⟩ | ⟨cause, hc⟩
  · obtain ⟨w, hw, -, hn⟩ := toNodeValue_ok ht
    rwa [← Except.ok.inj (hw.symm.trans h)]
  · cases (toNodeValue_error hc).symm.trans h

/-- A value is refused where its item is a number or a flag, and nowhere else. -/
theorem exists_error_iff (d : DraftValue) :
    (∃ cause, d.toNodeValue = .error cause) ↔ (∃ n, d.item = number n) ∨ ∃ b, d.item = flag b := by
  constructor
  · rintro ⟨cause, hc⟩
    cases hi : d.item with
    | number n => exact Or.inl ⟨n, rfl⟩
    | flag b => exact Or.inr ⟨b, rfl⟩
    | null | text t =>
      obtain ⟨v, hv, -⟩ := toNodeValue_ok (d := d) (by rw [hi]; rfl)
      cases hc.symm.trans hv
    | object inner => exact absurd hi (item_ne_object d inner)
  · rintro (⟨n, hi⟩ | ⟨b, hi⟩)
    · exact ⟨_, toNodeValue_error (by rw [hi]; rfl)⟩
    · exact ⟨_, toNodeValue_error (by rw [hi]; rfl)⟩

/-! ## Writing a value again -/

/-- Each level of a value is written as an object. -/
theorem ofValue_wrap (n : Nat) (v : Value) : ofValue (Value.wrap n v) = around n (ofValue v) := by
  induction n with
  | zero => rfl
  | succ n ih => exact congrArg object ih

/-- A value with a text is written as the text in its objects, and in one object at least. -/
theorem normal_eq {d : DraftValue} {t : String} (h : d.item.toValue = .ok (.literal t)) :
    d.normal = .ok (around (max 1 d.nesting) (text t)) := by
  have hn : max 1 d.nesting = d.nesting - 1 + 1 := by omega
  rw [normal, toNodeValue_eq, h, hn]
  exact congrArg (fun e => Except.ok (object e)) (ofValue_wrap (d.nesting - 1) (.literal t))

/-- A text gets an object where it has none. -/
theorem normal_of_text {d : DraftValue} {t : String} (h : d.item = text t) :
    d.normal = .ok (if d.nesting = 0 then object d else d) := by
  have hd := around_item d
  rw [normal_eq (t := t) (by rw [h]; rfl)]
  rw [h] at hd
  by_cases hn : d.nesting = 0
  · rw [hn] at hd ⊢
    rw [if_pos rfl, ← hd]
    rfl
  · rw [if_neg hn, Nat.max_eq_right (by omega), hd]

/-- What a node writes is in normal form. -/
theorem normal_ofNodeValue (v : Value) : (ofNodeValue v).normal = .ok (ofNodeValue v) := by
  rw [normal, Draft.toNodeValue_ofNodeValue]
  rfl

/-- The normal form of a normal form is itself. -/
theorem normal_bind_normal (d : DraftValue) : (d.normal >>= normal) = d.normal := by
  rw [normal]
  cases d.toNodeValue with
  | error cause => rfl
  | ok v => exact normal_ofNodeValue v

end NormalValueAux

namespace DraftValue

open NormalValueAux

/-- What a node states as its value is any number of objects around an item that is none. It is refused, as malformed, if and only if
the item is a number or a flag. Otherwise the value has the text of the item, which is the empty text where nothing is stated, and a
level for each object but the first, so that an item means the same by itself and in one object. Written again, the value is in its
normal form: a text by itself gets an object, an item that is missing becomes the empty text, and nothing else is changed. A normal
form is its own normal form, and every value is read back from what a node writes for it. -/
theorem stated_value_normal (d : DraftValue) :
    (around d.nesting d.item = d ∧ ∀ inner, d.item ≠ object inner) ∧
      ((∃ cause, d.toNodeValue = .error cause) ↔ (∃ n, d.item = number n) ∨ ∃ b, d.item = flag b) ∧
      (match d.item with
        | number n => d.toNodeValue = .error (.malformed (.numberAsValue n))
        | flag b => d.toNodeValue = .error (.malformed (.flagAsValue b))
        | text t => (∃ v, d.toNodeValue = .ok v ∧ v.resolve = t ∧ v.nesting = d.nesting - 1) ∧
            d.normal = .ok (if d.nesting = 0 then object d else d)
        | null => (∃ v, d.toNodeValue = .ok v ∧ v.resolve = "" ∧ v.nesting = d.nesting - 1) ∧
            d.normal = .ok (around (max 1 d.nesting) (text ""))
        | object _ => False) ∧
      (object d.item).toNodeValue = d.item.toNodeValue ∧
      (d.normal >>= normal) = d.normal ∧ ∀ v : Value, (ofNodeValue v).toNodeValue = .ok v := by
  have hobject := item_ne_object d
  refine ⟨⟨around_item d, hobject⟩, exists_error_iff d, ?_, ?_, normal_bind_normal d, Draft.toNodeValue_ofNodeValue⟩
  · cases hi : d.item with
    | number n | flag b => exact toNodeValue_error (by rw [hi]; rfl)
    | null => exact ⟨toNodeValue_ok (by rw [hi]; rfl), normal_eq (by rw [hi]; rfl)⟩
    | text t => exact ⟨toNodeValue_ok (by rw [hi]; rfl), normal_of_text hi⟩
    | object inner => exact hobject inner hi
  · cases hi : d.item with
    | object inner => exact absurd hi (hobject inner)
    | _ => rfl

end DraftValue

end RegexTree
