import RegexTree.Shape
import RegexTree.Proofs.Written

/-!
# Drafts of trees, read from a format

A format that presents what was written (`Shape.Presents`) gives back each part of the document of a tree: the fields of a
record under their names, a quantifier and the properties of a group where a level is left for their record, and the value of
a node where the levels that are left hold its objects. So `Draft.read` makes of the document of a tree the draft of the tree,
if the levels that are left hold all of its records and lists, and else nothing. `Pattern.containersAt` counts the levels as a
tree shows them.
-/

namespace RegexTree

open Document

namespace Reading

variable {α β : Type}

/-- After a failure nothing is read. -/
theorem failure_bind (f : α → Reading β) : (failure >>= f) = failure := rfl

/-- Only a failure comes of a reading that fails at its end. -/
theorem bind_failure (x : Reading α) : (x >>= fun _ => (failure : Reading β)) = failure := by
  funext s
  simp only [bind, StateT.bind, failure, StateT.failure]
  cases x s <;> rfl

end Reading

/-- The datum that a written value is read as. -/
def Value.toDatum : Value → Datum
  | .literal t => .text t
  | .nested inner => .map [(.text "Value", inner.toDatum)]

/-- The datum of a value states the value. -/
theorem Value.toDraftValue?_toDatum (v : Value) : v.toDatum.toDraftValue? = some (.ofValue v) := by
  induction v with
  | literal t => rfl
  | nested inner ih =>
    simp only [toDatum, Datum.toDraftValue?, Datum.fieldOfEntries?, Datum.namesValue?, ih]
    rfl

/-- A way to capture is found by its name. -/
theorem Capture.ofName?_name (c : Capture) : Capture.ofName? c.name = some c := by
  cases c <;> decide

/-- A style is found by its name. -/
theorem NameStyle.ofName?_name (s : NameStyle) : NameStyle.ofName? s.name = some s := by
  cases s <;> decide

namespace Shape

open Reading

variable {α : Type} {s : Shape α} {part : α}

/-- A record that is not blank is read if a level is left for it. -/
theorem record_eq {names : List String} {fields : List (String × α)} (hr : s.resolve part = pure part)
    (hb : s.isBlank part = false) (hf : s.fields names part = pure fields) (levels : Nat) :
    s.record names levels part = if 0 < levels then pure fields else failure := by
  by_cases hl : 0 < levels
  · simp only [record, hr, hb, hf, hl, guard, pure_bind, Bool.false_eq_true, if_false, if_true]
  · simp only [record, hr, hb, hl, guard, pure_bind, failure_bind, Bool.false_eq_true, if_false]

/-- A list that is not blank is read if a level is left for it. -/
theorem list_eq {items : List α} (hr : s.resolve part = pure part) (hb : s.isBlank part = false)
    (hi : s.items part = pure items) (levels : Nat) : s.list levels part = if 0 < levels then pure items else failure := by
  by_cases hl : 0 < levels
  · simp only [list, hr, hb, hi, hl, guard, pure_bind, Bool.false_eq_true, if_false, if_true]
  · simp only [list, hr, hb, hl, guard, pure_bind, failure_bind, Bool.false_eq_true, if_false]

end Shape

/-- What `of` makes of a document is read as it was written: records, lists and values where levels are left for them. -/
structure Shape.Presents {α : Type} (s : Shape α) (of : Document → α) : Prop where
  record : ∀ names levels fields, s.record names levels (of (.record fields)) =
    if 0 < levels then pure (fields.map fun f => (f.1, of f.2)) else failure
  list : ∀ levels items, s.list levels (of (.list items)) = if 0 < levels then pure (items.map of) else failure
  given : ∀ d : Document, d.IsGiven → s.given (of d) = pure (some (of d))
  text : ∀ t, s.text (of (.text t)) = pure t
  count : ∀ n, s.count (of (.count n)) = pure n
  flag : ∀ b, s.flag (of (.flag b)) = pure b
  choice : ∀ levels t, s.choice levels (of (.text t)) = pure t
  datum : ∀ levels v, s.datum levels (of (DraftValue.ofValue v).toDocument) =
    if v.nesting ≤ levels then pure v.toDatum else failure

namespace Shape.Presents

open Reading

variable {α β : Type} {s : Shape α} {of : Document → α}

/-! ## Fields of records -/

/-- The fields that a reader finds in a record. -/
def parts (of : Document → α) (keyed : List (String × Option Document)) : List (String × α) :=
  (fieldsOf keyed).map fun f => (f.1, of f.2)

/-- Among fields none of which has the name none is found. -/
theorem filter_parts_of_notMem {name : String} {keyed : List (String × Option Document)} (h : name ∉ keyed.map (·.1)) :
    (parts of keyed).filter (fun f => f.1 == name) = [] := by
  rw [List.filter_eq_nil_iff]
  intro f hf
  simp only [parts, fieldsOf, List.mem_map, List.mem_flatMap] at hf
  obtain ⟨g, ⟨k, hk, hg⟩, rfl⟩ := hf
  obtain ⟨key, o⟩ := k
  cases o with
  | none => cases hg
  | some d =>
    rw [List.mem_singleton.1 hg, beq_iff_eq]
    rintro rfl
    exact h (List.mem_map_of_mem hk)

/-- Among fields with different keys the one of a name is found if it is set. -/
theorem filter_parts (name : String) {keyed : List (String × Option Document)} (h : (keyed.map (·.1)).Nodup) :
    (parts of keyed).filter (fun f => f.1 == name) = (((keyed.lookup name).join.map fun d => (name, of d))).toList := by
  induction keyed with
  | nil => rfl
  | cons k keyed ih =>
    obtain ⟨key, o⟩ := k
    rw [List.map_cons, List.nodup_cons] at h
    have hc : parts of ((key, o) :: keyed) = (field key o).map (fun f => (f.1, of f.2)) ++ parts of keyed := by
      simp only [parts, fieldsOf, List.flatMap_cons, List.map_append]
    rw [hc, List.filter_append]
    by_cases hk : name = key
    · subst hk
      rw [filter_parts_of_notMem h.1]
      cases o <;> simp [field]
    · rw [ih h.2]
      have hb : (name == key) = false := by simp [hk]
      have hb' : (key == name) = false := by simp [Ne.symm hk]
      simp only [List.lookup_cons, hb]
      cases o <;> simp [field, hb']

/-- Of fields with different keys, the one of a name is found if it is set. -/
theorem single_field (name : String) {keyed : List (String × Option Document)} (h : (keyed.map (·.1)).Nodup) :
    single (parts of keyed) name = pure ((keyed.lookup name).join.map of) := by
  rw [single, filter_parts name h]
  cases (keyed.lookup name).join <;> rfl

/-- A field that is not set is read as none. -/
theorem optional_none {fields : List (String × α)} {name : String} {read : α → Reading β}
    (hs : single fields name = pure none) : s.optional fields name read = pure none := by
  simp only [optional, hs, pure_bind]

section

variable (hp : s.Presents of)
include hp

/-- A field that is set is read as what it holds is read. -/
theorem optional_eq {fields : List (String × α)} {name : String} {read : α → Reading β} {d : Document}
    (hs : single fields name = pure (some (of d))) (hg : d.IsGiven) :
    s.optional fields name read = read (of d) >>= fun b => pure (some b) := by
  simp only [optional, hs, pure_bind, hp.given d hg]

/-- A field that is set is read where what it holds is read. -/
theorem optional_some {fields : List (String × α)} {name : String} {read : α → Reading β} {d : Document} {b : β}
    (hs : single fields name = pure (some (of d))) (hg : d.IsGiven) (hr : read (of d) = pure b) :
    s.optional fields name read = pure (some b) := by
  rw [hp.optional_eq hs hg, hr, pure_bind]

/-- A field that is set is not read where what it holds is not. -/
theorem optional_failure {fields : List (String × α)} {name : String} {read : α → Reading β} {d : Document}
    (hs : single fields name = pure (some (of d))) (hg : d.IsGiven) (hr : read (of d) = failure) :
    s.optional fields name read = failure := by
  rw [hp.optional_eq hs hg, hr, failure_bind]

/-- An optional field of a record is read where what it may hold is read. -/
theorem optional_field {γ : Type} {keyed : List (String × Option Document)} (h : (keyed.map (·.1)).Nodup) {name : String}
    {o : Option γ} {toDoc : γ → Document} {read : α → Reading γ} (ho : keyed.lookup name = some (o.map toDoc))
    (hg : ∀ a, (toDoc a).IsGiven) (hr : ∀ a, read (of (toDoc a)) = pure a) :
    s.optional (parts of keyed) name read = pure o := by
  have hs : single (parts of keyed) name = pure ((keyed.lookup name).join.map of) := single_field name h
  rw [ho, Option.join_some] at hs
  cases o with
  | none => exact optional_none hs
  | some a => exact hp.optional_some hs (hg a) (hr a)

/-- A field of alternatives is read as the alternative of its name. -/
theorem alternative_field {keyed : List (String × Option Document)} (h : (keyed.map (·.1)).Nodup) (name : String)
    {value : String} {ofName? : String → Option β} {found : β} (hk : keyed.lookup name = some (some (.text value)))
    (hf : ofName? value = some found) (levels : Nat) (absent : β) :
    s.alternative (parts of keyed) name levels ofName? absent = pure found := by
  rw [alternative, single_field name h, hk]
  simp only [Option.join_some, Option.map_some, pure_bind, hp.choice, hf]

/-! ## Quantifiers and properties -/

/-- A quantifier is read if there is a level left for it. -/
theorem quantifier_toDocument (levels : Nat) (q : Quantifier) :
    s.quantifier levels (of q.toDocument) = if 0 < levels then pure q else failure := by
  have hf : ((quantifierFields q).map (·.1)).Nodup := by simp [quantifierFields]
  have hc : ∀ name (o : Option UInt32), (quantifierFields q).lookup name = some (o.map Document.count) →
      s.optional (parts of (quantifierFields q)) name s.count = pure o :=
    fun name o ho => hp.optional_field hf ho (fun n => ⟨n.toNat, rfl⟩) hp.count
  have hb : ∀ name (o : Option Bool), (quantifierFields q).lookup name = some (o.map Document.flag) →
      s.optional (parts of (quantifierFields q)) name s.flag = pure o :=
    fun name o ho => hp.optional_field hf ho (fun _ => trivial) hp.flag
  rw [quantifier, toDocument_quantifier, hp.record, ← parts]
  by_cases hl : 0 < levels
  · simp only [hl, if_true, pure_bind, hc "Min" q.min rfl, hc "Max" q.max rfl, hc "Exactly" q.exactly rfl,
      hb "Lazy" q.lazy rfl, hb "Greedy" q.greedy rfl]
  · simp only [hl, if_false, failure_bind]

/-- The properties of a group are read if there is a level left for them. -/
theorem properties_toDocument (levels : Nat) (p : Properties) :
    s.properties levels (of p.toDocument) = if 0 < levels then pure p else failure := by
  have hf : ((propertiesFields p).map (·.1)).Nodup := by simp [propertiesFields]
  have hn : s.optional (parts of (propertiesFields p)) "Name" s.text = pure p.name :=
    hp.optional_field hf rfl (fun _ => trivial) hp.text
  rw [properties, toDocument_properties, hp.record, ← parts]
  by_cases hl : 0 < levels
  · simp only [hl, if_true, pure_bind, hn, hp.alternative_field hf "GroupType" rfl (Capture.ofName?_name p.capture),
      hp.alternative_field hf "NamedGroupStyle" rfl (NameStyle.ofName?_name p.style)]
  · simp only [hl, if_false, failure_bind]

/-! ## Nodes -/

/-- A value is read if the levels that are left hold its objects. -/
theorem value_ofValue (levels : Nat) (v : Value) :
    s.value levels (of (DraftValue.ofValue v).toDocument) = if v.nesting ≤ levels then pure (.ofValue v) else failure := by
  rw [value, hp.datum]
  by_cases hl : v.nesting ≤ levels
  · simp only [hl, if_true, pure_bind, Value.toDraftValue?_toDatum]
    cases v <;> rfl
  · simp only [hl, if_false, failure_bind]

/-- The value of a node is read if the levels that are left hold its objects. -/
theorem value_toDocument (levels : Nat) (v : Value) :
    s.value levels (of (DraftValue.ofNodeValue v).toDocument) =
      if v.nesting < levels then pure (.ofNodeValue v) else failure :=
  hp.value_ofValue levels (.nested v)

/-- A value object is read if the levels that are left hold it and the objects inside it. -/
theorem readValueObject_toDocument (levels : Nat) (v : Value) :
    Draft.readValueObject s levels (of (DraftValue.ofNodeValue v).toDocument) =
      if v.nesting < levels then pure (some (.ofValue v)) else failure := by
  have hg : (DraftValue.ofValue v).toDocument.IsGiven := by cases v <;> trivial
  rw [DraftValue.ofNodeValue, DraftValue.toDocument, Draft.readValueObject, hp.record]
  by_cases hl : 0 < levels
  · have hs : single [("Value", of (DraftValue.ofValue v).toDocument)] "Value" = pure (some (of (DraftValue.ofValue v).toDocument)) :=
      rfl
    have hn : v.nesting ≤ levels - 1 ↔ v.nesting < levels := by omega
    simp only [hl, if_true, pure_bind, List.map_cons, List.map_nil, hp.optional_eq hs hg, hp.value_ofValue, hn]
    by_cases hv : v.nesting < levels
    · simp only [hv, if_true, pure_bind]
    · simp only [hv, if_false, failure_bind]
  · have hv : ¬v.nesting < levels := by omega
    simp only [hl, hv, if_false, failure_bind]

/-- The notes that the fields of a record state are read, the quantifier if there is a level left for it. -/
theorem notes_fields {keyed : List (String × Option Document)} (h : (keyed.map (·.1)).Nodup) (notes : Notes)
    (hid : keyed.lookup "Id" = some (notes.id.map Document.text))
    (hm : keyed.lookup "Message" = some (notes.message.map Document.text))
    (hq : keyed.lookup "Quantifiers" = some (notes.quantifier.map Quantifier.toDocument)) :
    s.optional (parts of keyed) "Id" s.text = pure notes.id ∧ s.optional (parts of keyed) "Message" s.text = pure notes.message ∧
      ∀ levels, 0 < levels → s.optional (parts of keyed) "Quantifiers" (s.quantifier levels) = pure notes.quantifier := by
  refine ⟨hp.optional_field h hid (fun _ => trivial) hp.text, hp.optional_field h hm (fun _ => trivial) hp.text,
    fun levels hl => hp.optional_field h hq (fun _ => trivial) fun q => ?_⟩
  rw [hp.quantifier_toDocument, if_pos hl]

/-- The draft of a leaf is read if the levels that are left hold its value. -/
theorem read_leaf (levels : Nat) (notes : Notes) (kind : LeafKind) (value : Value) :
    Draft.read s (levels + 1) (of (Pattern.leaf notes kind value).toDraft.toDocument) =
      if value.nesting < levels then pure (Pattern.leaf notes kind value).toDraft else failure := by
  have hf : ((leafFields notes kind value).map (·.1)).Nodup := by simp [leafFields]
  obtain ⟨hid, hm, hq⟩ := hp.notes_fields hf notes rfl rfl rfl
  have ht : s.optional (parts of (leafFields notes kind value)) "Type" s.text = pure (some kind.toNodeType.name) :=
    hp.optional_some (single_field "Type" hf) trivial (hp.text _)
  have hs : single (parts of (leafFields notes kind value)) "Value" = pure (some (of (DraftValue.ofNodeValue value).toDocument)) :=
    single_field "Value" hf
  rw [toDocument_leaf, Draft.read, hp.record, if_pos (Nat.succ_pos levels), ← parts]
  simp only [pure_bind, hid, ht]
  by_cases hl : value.nesting < levels
  · have hv : s.optional (parts of (leafFields notes kind value)) "Value" (s.value levels) = pure (some (.ofNodeValue value)) :=
      hp.optional_some hs trivial (by rw [hp.value_toDocument, if_pos hl])
    rw [hv, hq levels (by omega), hm, if_pos hl]
    simp only [pure_bind, optional_none (single_field "Properties" hf), optional_none (single_field "Patterns" hf)]
    rfl
  · rw [hp.optional_failure hs trivial (by rw [hp.value_toDocument, if_neg hl]), failure_bind, if_neg hl]

/-- The draft of a group is read if there is a level left for its properties and the drafts of its children are read. -/
theorem read_group (levels : Nat) (notes : Notes) (properties : Properties) (children : List Pattern) {c : Prop} [Decidable c]
    (hc : 0 < levels → Draft.readList s levels (of (.list (Draft.toDocuments (Pattern.toDrafts children)))) =
      if c then pure (Pattern.toDrafts children) else failure) :
    Draft.read s (levels + 1) (of (Pattern.group notes properties children).toDraft.toDocument) =
      if 0 < levels ∧ c then pure (Pattern.group notes properties children).toDraft else failure := by
  have hf : ((groupFields notes properties children).map (·.1)).Nodup := by simp [groupFields]
  obtain ⟨hid, hm, hq⟩ := hp.notes_fields hf notes rfl rfl rfl
  have ht : s.optional (parts of (groupFields notes properties children)) "Type" s.text = pure (some NodeType.group.name) :=
    hp.optional_some (single_field "Type" hf) trivial (hp.text _)
  have hps : single (parts of (groupFields notes properties children)) "Properties" = pure (some (of properties.toDocument)) :=
    single_field "Properties" hf
  have hs : single (parts of (groupFields notes properties children)) "Patterns" =
      pure (some (of (.list (Draft.toDocuments (Pattern.toDrafts children))))) := single_field "Patterns" hf
  rw [toDocument_group, Draft.read, hp.record, if_pos (Nat.succ_pos levels), ← parts]
  simp only [pure_bind, hid, ht, hm, optional_none (single_field "Value" hf)]
  by_cases hl : 0 < levels
  · rw [hq levels hl, hp.optional_some hps trivial (by rw [hp.properties_toDocument, if_pos hl])]
    simp only [pure_bind]
    by_cases hcs : c
    · rw [hp.optional_some hs trivial (by rw [hc hl, if_pos hcs]), if_pos ⟨hl, hcs⟩]
      rfl
    · rw [hp.optional_failure hs trivial (by rw [hc hl, if_neg hcs]), failure_bind, if_neg (fun h => hcs h.2)]
  · rw [hp.optional_failure hps trivial (by rw [hp.properties_toDocument, if_neg hl])]
    simp only [failure_bind]
    rw [bind_failure, if_neg (fun h => hl h.1)]

/-- Without a level nothing is read. -/
theorem read_zero (p : Pattern) : Draft.read s 0 (of p.toDraft.toDocument) = failure := by
  cases p with
  | leaf notes kind value => rw [toDocument_leaf, Draft.read, hp.record, if_neg (Nat.lt_irrefl 0), failure_bind]
  | group notes properties children => rw [toDocument_group, Draft.read, hp.record, if_neg (Nat.lt_irrefl 0), failure_bind]

/-- A list of drafts is read if there is a level left for it and each of them is read. -/
theorem readList_toDocuments {levels : Nat} (hl : 0 < levels) (ds : List Draft) :
    Draft.readList s levels (of (.list (Draft.toDocuments ds))) =
      ((Draft.toDocuments ds).map of).mapM (Draft.read s (levels - 1)) := by
  obtain ⟨levels, rfl⟩ : ∃ l, levels = l + 1 := ⟨levels - 1, by omega⟩
  rw [Draft.readList, hp.list, if_pos hl, pure_bind, Nat.add_sub_cancel]

end

end Shape.Presents

/-! ## Trees -/

namespace Pattern

mutual
/-- The most records and lists around a part of a tree whose root stands at `depth`: two for each level of the tree, and for a
leaf one for each level of its value. -/
def containersAt (depth : Nat) : Pattern → Nat
  | leaf _ _ value => 2 * depth + value.nesting
  | group _ _ children => max (2 * depth) (containersAtAll (depth + 1) children)

/-- The most records and lists around a part of the trees of a list. -/
def containersAtAll (depth : Nat) : List Pattern → Nat
  | [] => 0
  | p :: ps => max (containersAt depth p) (containersAtAll depth ps)
end

/-- The most records and lists around a part of a tree. -/
def containers (p : Pattern) : Nat := p.containersAt 1

end Pattern

namespace Shape.Presents

open Reading

variable {α : Type} {s : Shape α} {of : Document → α}

mutual
/-- The draft of a tree is read if the levels that are left hold all of its records and lists. -/
theorem read_toDocument (hp : s.Presents of) (bound depth levels : Nat) (h : levels + 2 * depth = bound + 2) : (p : Pattern) →
    Draft.read s levels (of p.toDraft.toDocument) = if p.containersAt depth ≤ bound then pure p.toDraft else failure
  | .leaf notes kind value => by
    cases levels with
    | zero => rw [hp.read_zero, if_neg (by simp only [Pattern.containersAt]; omega)]
    | succ levels =>
      have hc : value.nesting < levels ↔ (Pattern.leaf notes kind value).containersAt depth ≤ bound := by
        simp only [Pattern.containersAt]
        omega
      rw [hp.read_leaf]
      simp only [hc]
  | .group notes properties children => by
    -- A child stands one level deeper and has two levels less: one went to the record of the group, one to its list.
    cases levels with
    | zero => rw [hp.read_zero, if_neg (by simp only [Pattern.containersAt]; omega)]
    | succ levels =>
      have hc : 0 < levels ∧ Pattern.containersAtAll (depth + 1) children ≤ bound ↔
          (Pattern.group notes properties children).containersAt depth ≤ bound := by
        simp only [Pattern.containersAt]
        omega
      rw [hp.read_group levels notes properties children fun hl => by
        rw [hp.readList_toDocuments hl, mapM_read_toDocuments hp bound (depth + 1) (levels - 1) (by omega) children]]
      simp only [hc]

/-- The drafts of a list of trees are read if the levels that are left hold all of their records and lists. -/
theorem mapM_read_toDocuments (hp : s.Presents of) (bound depth levels : Nat) (h : levels + 2 * depth = bound + 2) :
    (ps : List Pattern) → ((Draft.toDocuments (Pattern.toDrafts ps)).map of).mapM (Draft.read s levels) =
      if Pattern.containersAtAll depth ps ≤ bound then pure (Pattern.toDrafts ps) else failure
  | [] => rfl
  | p :: ps => by
    have hc : p.containersAt depth ≤ bound ∧ Pattern.containersAtAll depth ps ≤ bound ↔
        Pattern.containersAtAll depth (p :: ps) ≤ bound := by
      simp only [Pattern.containersAtAll]
      omega
    simp only [Pattern.toDrafts, Draft.toDocuments, List.map_cons, List.mapM_cons, read_toDocument hp bound depth levels h p,
      mapM_read_toDocuments hp bound depth levels h ps, ← hc]
    by_cases hd : p.containersAt depth ≤ bound
    · by_cases hds : Pattern.containersAtAll depth ps ≤ bound
      · simp only [hd, hds, and_self, if_true, pure_bind]
      · simp only [hd, hds, and_false, if_true, if_false, pure_bind, failure_bind]
    · simp only [hd, false_and, if_false, failure_bind]
end

end Shape.Presents

end RegexTree
