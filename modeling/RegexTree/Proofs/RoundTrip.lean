import RegexTree.Proofs.Detect
import RegexTree.Proofs.DraftRoundTrip
import RegexTree.Proofs.Json.Draft

/-!
# Round trips

What comes back when a tree is written and read again: the tree with its missing identifiers filled in. As a draft every tree
comes back (`draft_round_trip`), as JSON every tree whose records and lists nest at most 127 deep, and no other
(`json_round_trip`).
-/

namespace RegexTree

variable {σ : Type}

open Pattern

/-- The draft of a tree that the constructors build is accepted at any path and gives the tree with its missing identifiers
filled in; the source of identifiers ends where `assignIds` leaves it, and a tree that lacks no identifier comes back itself.
Where a format reads back the draft it wrote, so do the texts of a tree and of a list of trees, of which each tree draws after
the one before it. -/
theorem draft_round_trip (ids : IdSource σ) (s : σ) :
    (∀ p : Pattern, p.Resolved →
      (∀ path, p.toDraft.toPattern ids path s = (.ok (p.assignIds ids s).1, (p.assignIds ids s).2)) ∧
      (p.Identified → ∀ path, p.toDraft.toPattern ids path s = (.ok p, s)) ∧
      (∀ format layout, Draft.ofText? format (p.encode format layout) = some p.toDraft →
        decodeAs ids format (p.encode format layout) s = (.ok (p.assignIds ids s).1, (p.assignIds ids s).2))) ∧
    (∀ ps : List Pattern, ResolvedAll ps → ∀ format,
      Draft.listOfText? format (encodeList format ps) = some (toDrafts ps) →
      decodeListAs ids format (encodeList format ps) s = (.ok (assignIdsAll ids ps s).1, (assignIdsAll ids ps s).2)) := by
  refine ⟨fun p hp => ⟨fun path => Draft.toPattern_toDraft ids path s p hp, fun hid path => ?_, fun format layout ht => ?_⟩,
    fun ps hps format ht => ?_⟩
  · rw [Draft.toPattern_toDraft ids path s p hp, assignIds_of_identified ids s p hid]
  · simp only [decodeAs, ht]
    exact Draft.toPattern_toDraft ids [] s p hp
  · simp only [decodeListAs, ht]
    exact Draft.toPatternsFrom_toDrafts ids [] 0 s ps hps

/-- Two trees that come back as drafts, one of them with all its identifiers, and a text and a list that JSON reads back. -/
theorem draft_round_trip_anchor_group :
    let p : Pattern :=
      .group {} .capturing [.leaf {} .anchor (.nested (.literal "EndOfLine")), .leaf { id := some "" } .literal (.literal "\"")]
    let q : Pattern := .leaf { id := some "q", quantifier := some {} } .characterClass (.literal "[^]]")
    p.Resolved ∧ q.Resolved ∧ q.Identified ∧ ResolvedAll [p, q] ∧
      p.toDraft.toPattern .counting [4] {} = (.ok (p.assignIds .counting {}).1, (p.assignIds .counting {}).2) ∧
      q.toDraft.toPattern .counting [] {} = (.ok q, {}) ∧
      decodeAs .counting .json (p.encode .json .indented) {} =
        (.ok (p.assignIds .counting {}).1, (p.assignIds .counting {}).2) ∧
      decodeListAs .counting .json (encodeList .json [p, q]) {} =
        (.ok (assignIdsAll .counting [p, q] {}).1, (assignIdsAll .counting [p, q] {}).2) := by
  intro p q
  have hp : p.Resolved := ⟨show (Anchor.tokenOf? "EndOfLine").isSome by decide, rfl, trivial⟩
  have hq : q.Resolved := show (CharacterClass.tokenOf? "[^]]").isSome by decide
  obtain ⟨h, hl⟩ := draft_round_trip .counting {}
  refine ⟨hp, hq, rfl, ⟨hp, hq, trivial⟩, (h p hp).1 [4], (h q hq).2.1 rfl [], (h p hp).2.2 .json .indented ?_,
    hl [p, q] ⟨hp, hq, trivial⟩ .json ?_⟩
  · rw [Json.ofText?_encode, if_pos (by decide)]
  · rw [Json.listOfText?_encodeList, if_pos (by decide)]

/-- A tree whose records and lists nest at most 127 deep in JSON comes back from its text in either layout, with its missing
identifiers filled in. The text of any other tree is refused as unreadable, without a location and before any identifier is
drawn. -/
theorem json_round_trip (ids : IdSource σ) (p : Pattern) (h : p.Resolved) (layout : Json.Layout) (s : σ) :
    (p.containers ≤ 127 →
      decode ids (p.encode .json layout) s = (.ok (p.assignIds ids s).1, (p.assignIds ids s).2)) ∧
    (127 < p.containers → decode ids (p.encode .json layout) s = (.error (.malformed (.unreadable .json)), s)) := by
  have ht := Json.ofText?_encode layout p
  simp only [decode, Format.detect_encode, decodeAs, ht]
  refine ⟨fun hc => ?_, fun hc => ?_⟩
  · rw [if_pos (show p.containers ≤ Json.levels from hc)]
    exact Draft.toPattern_toDraft ids [] s p h
  · rw [if_neg (show ¬p.containers ≤ Json.levels from Nat.not_le.2 hc)]

/-- At the limit: a value of 123 levels in a child of a group is read back, one of 124 levels is not. -/
theorem json_round_trip_at_limit :
    let tree (n : Nat) : Pattern := .group {} {} [.leaf {} .anchor (.wrap n (.literal "\\b"))]
    (tree 123).Resolved ∧ (tree 123).containers ≤ 127 ∧ (tree 124).Resolved ∧ 127 < (tree 124).containers ∧
      decode .counting ((tree 123).encode .json .compact) {} =
        (.ok ((tree 123).assignIds .counting {}).1, ((tree 123).assignIds .counting {}).2) ∧
      decode .counting ((tree 124).encode .json .indented) {} = (.error (.malformed (.unreadable .json)), {}) := by
  intro tree
  have h : ∀ n, (tree n).Resolved := by
    intro n
    have ht : (Anchor.tokenOf? (Value.wrap n (.literal "\\b")).resolve).isSome := by
      rw [Value.resolve_wrap]
      decide
    exact ⟨ht, trivial⟩
  have hc : ∀ n, (tree n).containers = 4 + n := by
    intro n
    simp only [tree, containers, containersAt, containersAtAll, Value.nesting_wrap, Value.nesting]
    omega
  have hf : (tree 123).containers ≤ 127 := Nat.le_of_eq (hc 123)
  have hd : 127 < (tree 124).containers := Nat.le_of_eq (hc 124).symm
  exact ⟨h 123, hf, h 124, hd, (json_round_trip .counting _ (h 123) .compact {}).1 hf,
    (json_round_trip .counting _ (h 124) .indented {}).2 hd⟩

end RegexTree
