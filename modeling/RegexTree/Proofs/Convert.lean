import RegexTree.Proofs.Depth
import RegexTree.Proofs.RoundTrip
import RegexTree.Proofs.Yaml.Draft

/-!
# Converted texts, read again

A tree that was read has all its identifiers and nests at most 128 deep, so what it is converted to is read back as the same
tree, except that JSON refuses a tree of just 128 levels (`converted_text_reads_back`). There are such trees: YAML has a level
more than JSON, and a value written as a bare text is converted to an object (`converted_text_unreadable`).
-/

namespace RegexTree

variable {σ : Type}

open Pattern

namespace Pattern

/-! ## Trees with identifiers -/

mutual
/-- A tree nests as deep with its missing identifiers filled in as without. -/
theorem containersAt_assignIds (ids : IdSource σ) (depth : Nat) : (p : Pattern) → (s : σ) →
    (p.assignIds ids s).1.containersAt depth = p.containersAt depth
  | .leaf _ _ _, _ => rfl
  | .group _ _ children, s => congrArg (max (2 * depth)) (containersAtAll_assignIds ids (depth + 1) children s)

/-- Trees of a list nest as deep with their missing identifiers filled in as without. -/
theorem containersAtAll_assignIds (ids : IdSource σ) (depth : Nat) : (ps : List Pattern) → (s : σ) →
    containersAtAll depth (assignIdsAll ids ps s).1 = containersAtAll depth ps
  | [], _ => rfl
  | p :: ps, s => by
    simp only [assignIdsAll, containersAtAll, containersAt_assignIds ids depth p, containersAtAll_assignIds ids depth ps]
end

mutual
/-- With its missing identifiers filled in a tree has all of them. -/
theorem identified_assignIds (ids : IdSource σ) : (p : Pattern) → (s : σ) → (p.assignIds ids s).1.Identified
  | .leaf _ _ _, _ => rfl
  | .group _ _ children, s => ⟨rfl, identifiedAll_assignIds ids children s⟩

/-- With their missing identifiers filled in the trees of a list have all of them. -/
theorem identifiedAll_assignIds (ids : IdSource σ) : (ps : List Pattern) → (s : σ) → IdentifiedAll (assignIdsAll ids ps s).1
  | [], _ => trivial
  | p :: ps, s => ⟨identified_assignIds ids p s, identifiedAll_assignIds ids ps (p.assignIds ids s).2⟩
end

/-- A tree that was read is resolved, has all its identifiers and nests at most 128 deep. -/
theorem of_decode {ids : IdSource σ} {text : String} {s : σ} {p : Pattern} (h : (decode ids text s).1 = .ok p) :
    p.Resolved ∧ p.Identified ∧ p.containers ≤ 128 := by
  obtain ⟨format, d, u, -, hd, hu, ha⟩ := StatedAux.decode_ok h
  have hp : (u.assignIds ids s).1 = p := congrArg Prod.fst ha
  rw [← hp]
  refine ⟨MeaningAux.resolved_of_agrees u _ (StatedAux.agrees_assignIds ids u s) (StatedAux.resolved_of_stated d u hu),
    identified_assignIds ids u s, ?_⟩
  rw [containers, containersAt_assignIds]
  exact Draft.containers_of_ofText? hd hu

end Pattern

/-! ## Texts of trees -/

/-- The draft of a tree is read from its text if the tree fits in the levels that are looked into, and else nothing is. -/
theorem Draft.ofText?_encode (format : Format) (layout : Json.Layout) (p : Pattern) :
    Draft.ofText? format (p.encode format layout) = if p.containers ≤ format.levels then some p.toDraft else none := by
  cases format with
  | json => exact Json.ofText?_encode layout p
  | yaml => exact Yaml.ofText?_encode layout p

/-- A tree with all its identifiers is read back from its text if it fits in the levels that are looked into, and else its text
is refused as unreadable. No identifier is drawn. -/
theorem decode_encode (ids : IdSource σ) (format : Format) (layout : Json.Layout) {p : Pattern} (h : p.Resolved)
    (hid : p.Identified) (s : σ) :
    decode ids (p.encode format layout) s =
      if p.containers ≤ format.levels then (.ok p, s) else (.error (.malformed (.unreadable format)), s) := by
  simp only [decode, Format.detect_encode, decodeAs, Draft.ofText?_encode]
  by_cases hc : p.containers ≤ format.levels
  · simp only [hc, if_true]
    rw [Draft.toPattern_toDraft ids [] s p h, assignIds_of_identified ids s p hid]
  · simp only [hc, if_false]

/-! ## Conversion -/

/-- A converted text is the text of the tree that was read. YAML reads it back, and so does JSON where the tree nests less than
128 deep: the tree that comes back is the same whatever the source of identifiers, none is drawn, and converting once more
gives the same text. At 128 levels, which is the most there is, JSON refuses the text it was given as unreadable. -/
theorem converted_text_reads_back (ids : IdSource σ) (target : Format) (text out : String) (s s' : σ)
    (h : convert ids target text s = (.ok out, s')) :
    ∃ p, decode ids text s = (.ok p, s') ∧ out = p.encode target .indented ∧ p.containers ≤ 128 ∧
      ∀ (τ : Type) (ids' : IdSource τ) (t : τ),
        (target = .yaml ∨ p.containers < 128 →
          decode ids' out t = (.ok p, t) ∧ convert ids' target out t = (.ok out, t)) ∧
        (target = .json ∧ p.containers = 128 →
          decode ids' out t = (.error (.malformed (.unreadable .json)), t) ∧
            convert ids' target out t = (.error (.malformed (.unreadable .json)), t)) := by
  obtain ⟨p, hp, rfl⟩ : ∃ p, decode ids text s = (.ok p, s') ∧ out = p.encode target .indented := by
    unfold convert at h
    split at h
    · cases h
      exact ⟨_, ‹_›, rfl⟩
    · cases h
  obtain ⟨hr, hid, hc⟩ := of_decode (show (decode ids text s).1 = .ok p by rw [hp])
  refine ⟨p, hp, rfl, hc, fun τ ids' t => ?_⟩
  have hd := decode_encode ids' target .indented hr hid t
  refine ⟨fun hfit => ?_, fun ⟨htarget, hfull⟩ => ?_⟩
  · have hl : p.containers ≤ target.levels := by
      cases target with
      | json => exact Nat.le_of_lt_succ (hfit.resolve_left nofun)
      | yaml => exact hc
    rw [if_pos hl] at hd
    exact ⟨hd, by simp only [convert, hd]⟩
  · subst htarget
    have hl : ¬p.containers ≤ Format.json.levels := by
      rw [hfull]
      decide
    rw [if_neg hl] at hd
    exact ⟨hd, by simp only [convert, hd]⟩

/-- An anchor whose value has so many levels. -/
def nestedAnchor (levels : Nat) : Pattern := .leaf { id := some "word" } .anchor (.wrap levels (.literal "\\b"))

/-- Levels leave an anchor as it is. -/
theorem resolved_nestedAnchor (levels : Nat) : (nestedAnchor levels).Resolved := by
  have ht : (Anchor.tokenOf? (Value.wrap levels (.literal "\\b")).resolve).isSome := by
    rw [Value.resolve_wrap]
    decide
  exact ht

/-- The record of an anchor and the object in it stand around the levels of its value. -/
theorem containers_nestedAnchor (levels : Nat) : (nestedAnchor levels).containers = 2 + levels := by
  simp only [nestedAnchor, containers, containersAt, Value.nesting_wrap, Value.nesting]
  omega

/-- An anchor is converted from YAML to JSON where YAML reads it. -/
theorem convert_nestedAnchor {levels : Nat} (h : levels ≤ 126) :
    decode .counting ((nestedAnchor levels).encode .yaml .indented) {} = (.ok (nestedAnchor levels), {}) ∧
      convert .counting .json ((nestedAnchor levels).encode .yaml .indented) {} =
        (.ok ((nestedAnchor levels).encode .json .indented), {}) := by
  have hfit : (nestedAnchor levels).containers ≤ Format.yaml.levels := by
    rw [containers_nestedAnchor]
    exact Nat.add_le_add_left h 2
  have hd := decode_encode .counting .yaml .indented (resolved_nestedAnchor levels) rfl {}
  rw [if_pos hfit] at hd
  exact ⟨hd, by simp only [convert, hd]⟩

/-- A value of 125 levels, in YAML, is converted to JSON that is read back and converts to itself. With one level more the text
that comes out is refused. -/
theorem converted_text_reads_back_at_limit :
    convert .counting .json ((nestedAnchor 125).encode .yaml .indented) {} =
        (.ok ((nestedAnchor 125).encode .json .indented), {}) ∧
      decode .counting ((nestedAnchor 125).encode .json .indented) {} = (.ok (nestedAnchor 125), {}) ∧
      convert .counting .json ((nestedAnchor 125).encode .json .indented) {} =
        (.ok ((nestedAnchor 125).encode .json .indented), {}) ∧
      convert .counting .json ((nestedAnchor 126).encode .yaml .indented) {} =
        (.ok ((nestedAnchor 126).encode .json .indented), {}) ∧
      convert .counting .json ((nestedAnchor 126).encode .json .indented) {} = (.error (.malformed (.unreadable .json)), {}) := by
  obtain ⟨hd, hc⟩ := convert_nestedAnchor (show 125 ≤ 126 by decide)
  obtain ⟨hd', hc'⟩ := convert_nestedAnchor (Nat.le_refl 126)
  obtain ⟨p, hp, -, -, hread⟩ := converted_text_reads_back .counting .json _ _ _ _ hc
  obtain ⟨q, hq, -, -, hrefused⟩ := converted_text_reads_back .counting .json _ _ _ _ hc'
  obtain rfl : nestedAnchor 125 = p := Except.ok.inj (congrArg Prod.fst (hd.symm.trans hp))
  obtain rfl : nestedAnchor 126 = q := Except.ok.inj (congrArg Prod.fst (hd'.symm.trans hq))
  have hback := (hread _ .counting {}).1 (Or.inr (by rw [containers_nestedAnchor]; decide))
  have hfail := (hrefused _ .counting {}).2 ⟨rfl, containers_nestedAnchor 126⟩
  exact ⟨hc, hback.1, hback.2, hc', hfail.2⟩

/-- Not every converted text is readable again: YAML holds a value of 126 levels, and JSON refuses what it is converted to. -/
theorem converted_text_unreadable :
    ¬∀ text out : String, (convert .counting .json text {}).1 = .ok out → ∃ p, (decode .counting out {}).1 = .ok p := by
  intro h
  obtain ⟨-, hc⟩ := convert_nestedAnchor (Nat.le_refl 126)
  obtain ⟨p, hp⟩ := h _ _ (by rw [hc])
  have hout := decode_encode .counting .json .indented (resolved_nestedAnchor 126) rfl {}
  rw [if_neg (show ¬(nestedAnchor 126).containers ≤ Format.json.levels by rw [containers_nestedAnchor]; decide)] at hout
  rw [hout] at hp
  cases hp

end RegexTree
