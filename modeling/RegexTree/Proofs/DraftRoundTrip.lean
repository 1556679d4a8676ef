import RegexTree.Draft
import RegexTree.Proofs.Resolved

/-!
# From a tree to its draft and back

Checking the draft of a resolved tree gives the tree with identifiers filled in, the same identifiers in the same order as
`Pattern.assignIds` draws them. The draft keeps every part of a node; the value of a leaf gets one object more, which the node
of the draft takes off again.
-/

namespace RegexTree

variable {σ : Type}

namespace Pattern

mutual
/-- Every node has an identifier. -/
def Identified : Pattern → Prop
  | leaf notes _ _ => notes.id.isSome
  | group notes _ children => notes.id.isSome ∧ IdentifiedAll children

/-- Every node of every tree of a list has an identifier. -/
def IdentifiedAll : List Pattern → Prop
  | [] => True
  | p :: ps => Identified p ∧ IdentifiedAll ps
end

/-- A node that has an identifier draws none. -/
theorem fill_of_isSome (ids : IdSource σ) {notes : Notes} (h : notes.id.isSome) (s : σ) :
    ∃ id, ids.fill notes.id s = (id, s) ∧ ({ notes with id := some id } : Notes) = notes := by
  obtain ⟨id, hid⟩ := Option.isSome_iff_exists.1 h
  refine ⟨id, by rw [hid]; rfl, ?_⟩
  rw [← hid]

mutual
/-- A tree whose nodes all have identifiers stays as it is, and the source too. -/
theorem assignIds_of_identified (ids : IdSource σ) (s : σ) : (p : Pattern) → p.Identified → p.assignIds ids s = (p, s)
  | leaf notes kind value, h => by
    obtain ⟨id, hf, hn⟩ := fill_of_isSome ids h s
    simp only [assignIds, hf, hn]
  | group notes properties children, h => by
    obtain ⟨id, hf, hn⟩ := fill_of_isSome ids h.1 s
    simp only [assignIds, assignIdsAll_of_identified ids s children h.2, hf, hn]

/-- A list of trees whose nodes all have identifiers stays as it is, and the source too. -/
theorem assignIdsAll_of_identified (ids : IdSource σ) (s : σ) :
    (ps : List Pattern) → IdentifiedAll ps → assignIdsAll ids ps s = (ps, s)
  | [], _ => rfl
  | p :: ps, h => by
    simp only [assignIdsAll, assignIds_of_identified ids s p h.1, assignIdsAll_of_identified ids s ps h.2]
end

end Pattern

namespace Draft

/-- The value inside the objects of a written value is the value. -/
theorem toValue_ofValue (v : Value) : (DraftValue.ofValue v).toValue = .ok v := by
  induction v with
  | literal text => rfl
  | nested inner ih => simp only [DraftValue.ofValue, DraftValue.toValue, ih, Except.map]

/-- A node reads the value it states, whose first object only holds it. -/
theorem toNodeValue_ofNodeValue (v : Value) : (DraftValue.ofNodeValue v).toNodeValue = .ok v :=
  toValue_ofValue v

/-- The draft of a resolved leaf passes the checks of a leaf. -/
theorem leafValue_toDraft {notes : Notes} {kind : LeafKind} {value : Value}
    (h : (Pattern.leaf notes kind value).Resolved) : (Pattern.leaf notes kind value).toDraft.leafValue kind = .ok value := by
  obtain ⟨token, -, ht⟩ := LeafKind.token_of_isSome h
  simp only [leafValue, Pattern.toDraft, toNodeValue_ofNodeValue, bind, Except.bind, ht]
  rfl

mutual
/-- Checking the draft of a resolved tree gives each node the identifier that `Pattern.assignIds` gives it. -/
theorem toPattern_toDraft (ids : IdSource σ) (path : List Nat) (s : σ) : (p : Pattern) → p.Resolved →
    p.toDraft.toPattern ids path s = (.ok (p.assignIds ids s).1, (p.assignIds ids s).2)
  | .leaf notes kind value, h => by
    have hv := leafValue_toDraft h
    simp only [Pattern.toDraft] at hv ⊢
    simp only [toPattern, NodeType.ofName?_name, LeafKind.leafKind?_toNodeType, hv, Pattern.assignIds, notesWith]
  | .group notes properties children, h => by
    have hc := toPatternsFrom_toDrafts ids path 0 s children h
    simp only [Pattern.toDraft, toPattern, NodeType.ofName?_name, NodeType.leafKind?, toChildren, hc, Pattern.assignIds,
      notesWith]

/-- The same for the drafts of a list, which draw from the source one after another. -/
theorem toPatternsFrom_toDrafts (ids : IdSource σ) (path : List Nat) (index : Nat) (s : σ) :
    (ps : List Pattern) → Pattern.ResolvedAll ps →
      toPatternsFrom ids path index (Pattern.toDrafts ps) s =
        (.ok (Pattern.assignIdsAll ids ps s).1, (Pattern.assignIdsAll ids ps s).2)
  | [], _ => rfl
  | p :: ps, h => by
    have hp := toPattern_toDraft ids (path ++ [index]) s p h.1
    have hps := toPatternsFrom_toDrafts ids path (index + 1) (p.assignIds ids s).2 ps h.2
    simp only [Pattern.toDrafts, toPatternsFrom, hp, hps, Pattern.assignIdsAll]
end

end Draft

end RegexTree
