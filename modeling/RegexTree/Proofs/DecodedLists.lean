import RegexTree.Codec
import RegexTree.Proofs.Moved
import RegexTree.Proofs.Offences

/-!
# Lists of drafts, read

A list of drafts is read draft by draft: each as a tree of its own, with the source of identifiers as the draft before it left it.
So are the children of a group, and the identifier of the group is drawn after theirs (`list_reads_in_turn`).
-/

namespace RegexTree

variable {σ : Type}

namespace Draft

/-- Drafts that are read one after another, each as a tree of its own and with the source as the one before left it. -/
inductive ReadsInTurn (ids : IdSource σ) : List Draft → σ → List Pattern → σ → Prop where
  | nil (s : σ) : ReadsInTurn ids [] s [] s
  | cons {d : Draft} {ds : List Draft} {p : Pattern} {ps : List Pattern} {s s' s'' : σ} :
      d.toPattern ids [] s = (.ok p, s') → ReadsInTurn ids ds s' ps s'' → ReadsInTurn ids (d :: ds) s (p :: ps) s''

/-- Drafts that are read one after another until draft number `i` is refused, each as a tree of its own. The source is left as the
refused draft left it. -/
inductive RefusedInTurn (ids : IdSource σ) : List Draft → σ → (i : Nat) → Cause → Location → σ → Prop where
  | here {d : Draft} (ds : List Draft) {cause : Cause} {place : Location} {s s' : σ} :
      d.toPattern ids [] s = (.error (cause.at place), s') → RefusedInTurn ids (d :: ds) s 0 cause place s'
  | later {d : Draft} {ds : List Draft} {p : Pattern} {i : Nat} {cause : Cause} {place : Location} {s s' s'' : σ} :
      d.toPattern ids [] s = (.ok p, s') → RefusedInTurn ids ds s' i cause place s'' →
        RefusedInTurn ids (d :: ds) s (i + 1) cause place s''

end Draft

namespace DecodedListsAux

open Draft MovedAux

/-! ## One draft -/

/-- A draft is refused for a cause at a place. -/
theorem toPattern_error_at {ids : IdSource σ} {path : List Nat} {d : Draft} {s s' : σ} {e : Error}
    (h : d.toPattern ids path s = (.error e, s')) : ∃ cause place, e = Cause.at cause place := by
  have ho := OffenceAux.outcome_toPattern ids d path s
  rw [h] at ho
  cases ho with
  | refused _ _ _ => exact ⟨_, _, rfl⟩

/-- A draft that is read as a tree of its own is read wherever it stands. -/
theorem toPattern_ok {ids : IdSource σ} {d : Draft} {p : Pattern} {s s' : σ} (h : d.toPattern ids [] s = (.ok p, s'))
    (path : List Nat) : d.toPattern ids path s = (.ok p, s') := by
  have hm := toPattern_moved ids path [] d s
  rw [List.append_nil, h, readingMoved_ok] at hm
  exact hm

/-- A draft that is refused as a tree of its own is refused wherever it stands, with that place in front of the path. -/
theorem toPattern_error {ids : IdSource σ} {d : Draft} {cause : Cause} {place : Location} {s s' : σ}
    (h : d.toPattern ids [] s = (.error (cause.at place), s')) (path : List Nat) :
    d.toPattern ids path s = (.error (cause.at { place with path := path ++ place.path }), s') := by
  have hm := toPattern_moved ids path [] d s
  rw [List.append_nil, h, readingMoved_error] at hm
  exact hm

/-! ## Drafts in turn -/

/-- Drafts are read in turn, or one of them is refused. -/
theorem reads_or_refused (ids : IdSource σ) (ds : List Draft) : ∀ s,
    (∃ ps s', ReadsInTurn ids ds s ps s') ∨ ∃ i cause place s', RefusedInTurn ids ds s i cause place s' := by
  induction ds with
  | nil =>
    intro s
    exact Or.inl ⟨[], s, ReadsInTurn.nil s⟩
  | cons d ds ih =>
    intro s
    cases hd : d.toPattern ids [] s with
    | mk outcome s' =>
      cases outcome with
      | error e =>
        obtain ⟨cause, place, rfl⟩ := toPattern_error_at hd
        exact Or.inr ⟨0, cause, place, s', RefusedInTurn.here ds hd⟩
      | ok p =>
        rcases ih s' with ⟨ps, s'', h⟩ | ⟨i, cause, place, s'', h⟩
        · exact Or.inl ⟨p :: ps, s'', ReadsInTurn.cons hd h⟩
        · exact Or.inr ⟨i + 1, cause, place, s'', RefusedInTurn.later hd h⟩

/-- Drafts that are read in turn are read as a list, wherever it stands. -/
theorem toPatternsFrom_of_reads {ids : IdSource σ} {ds : List Draft} {ps : List Pattern} {s s' : σ}
    (h : ReadsInTurn ids ds s ps s') (path : List Nat) : ∀ index, toPatternsFrom ids path index ds s = (.ok ps, s') := by
  induction h with
  | nil s =>
    intro index
    rfl
  | cons hd _ ih =>
    intro index
    rw [toPatternsFrom, toPattern_ok hd]
    simp only
    rw [ih]

/-- Drafts one of which is refused are refused as a list, wherever it stands, with the number of that draft in the path. -/
theorem toPatternsFrom_of_refused {ids : IdSource σ} {ds : List Draft} {i : Nat} {cause : Cause} {place : Location} {s s' : σ}
    (h : RefusedInTurn ids ds s i cause place s') (path : List Nat) : ∀ index,
    toPatternsFrom ids path index ds s = (.error (cause.at { place with path := path ++ (index + i) :: place.path }), s') := by
  induction h with
  | here ds hd =>
    intro index
    rw [toPatternsFrom, toPattern_error hd, List.append_assoc]
    rfl
  | later hd _ ih =>
    intro index
    rw [toPatternsFrom, toPattern_ok hd]
    simp only
    rw [ih, Nat.add_assoc, Nat.add_comm 1]

/-- A list is read just where its drafts are read in turn. -/
theorem toPatternsFrom_eq_ok {ids : IdSource σ} {path : List Nat} {index : Nat} {ds : List Draft} {s s' : σ} {ps : List Pattern} :
    toPatternsFrom ids path index ds s = (.ok ps, s') ↔ ReadsInTurn ids ds s ps s' := by
  constructor
  · intro h
    rcases reads_or_refused ids ds s with ⟨ps', s'', hr⟩ | ⟨i, cause, place, s'', hr⟩
    · rw [toPatternsFrom_of_reads hr] at h
      cases h
      exact hr
    · rw [toPatternsFrom_of_refused hr] at h
      cases h
  · intro h
    exact toPatternsFrom_of_reads h path index

/-- A list is refused just where one of its drafts is refused in turn. -/
theorem toPatternsFrom_eq_error {ids : IdSource σ} {path : List Nat} {index : Nat} {ds : List Draft} {s s' : σ} {e : Error} :
    toPatternsFrom ids path index ds s = (.error e, s') ↔ ∃ i cause place, RefusedInTurn ids ds s i cause place s' ∧
      e = cause.at { place with path := path ++ (index + i) :: place.path } := by
  constructor
  · intro h
    rcases reads_or_refused ids ds s with ⟨ps', s'', hr⟩ | ⟨i, cause, place, s'', hr⟩
    · rw [toPatternsFrom_of_reads hr] at h
      cases h
    · rw [toPatternsFrom_of_refused hr] at h
      cases h
      exact ⟨i, cause, place, hr, rfl⟩
  · rintro ⟨i, cause, place, hr, rfl⟩
    exact toPatternsFrom_of_refused hr path index

/-! ## Groups -/

/-- A group is read as its children and draws its identifier after them. -/
theorem toPattern_group (ids : IdSource σ) (path : List Nat) {d : Draft} {properties : Properties}
    (ht : d.type = some NodeType.group.name) (hp : d.properties = some properties) (s : σ) :
    d.toPattern ids path s =
      match toPatternsFrom ids path 0 (d.patterns.getD []) s with
      | (.error e, s) => (.error e, s)
      | (.ok children, s) => (.ok (.group (d.notesWith (ids.fill d.id s).1) properties children), (ids.fill d.id s).2) := by
  obtain ⟨id, type, value, quantifier, message, stated, patterns⟩ := d
  cases ht
  cases hp
  cases patterns <;> rfl

/-- A group is read just where its children are, as a list. -/
theorem toPattern_group_eq_ok {ids : IdSource σ} {path : List Nat} {d : Draft} {properties : Properties} {p : Pattern} {s s' : σ}
    (ht : d.type = some NodeType.group.name) (hp : d.properties = some properties) :
    d.toPattern ids path s = (.ok p, s') ↔
      ∃ children between, toPatternsFrom ids path 0 (d.patterns.getD []) s = (.ok children, between) ∧
        p = .group (d.notesWith (ids.fill d.id between).1) properties children ∧ s' = (ids.fill d.id between).2 := by
  rw [toPattern_group ids path ht hp]
  constructor
  · intro h
    split at h
    · cases h
    · rename_i children between hc
      cases h
      exact ⟨children, between, hc, rfl, rfl⟩
  · rintro ⟨children, between, hc, rfl, rfl⟩
    rw [hc]

/-- A group is refused just where its children are, as a list. -/
theorem toPattern_group_eq_error {ids : IdSource σ} {path : List Nat} {d : Draft} {properties : Properties} {e : Error} {s s' : σ}
    (ht : d.type = some NodeType.group.name) (hp : d.properties = some properties) :
    d.toPattern ids path s = (.error e, s') ↔ toPatternsFrom ids path 0 (d.patterns.getD []) s = (.error e, s') := by
  rw [toPattern_group ids path ht hp]
  constructor
  · intro h
    split at h
    · rename_i hc
      cases h
      exact hc
    · cases h
  · intro h
    rw [h]

end DecodedListsAux

namespace Draft

open DecodedListsAux

/-- The drafts of a list are read just where each is read as a tree of its own, one after another, and then as the same patterns and
with the same identifiers drawn. Otherwise the list is refused for what the first refused draft is refused for, with the number of
this draft in front of the path, and the draws are those of the drafts before it and its own. A text that states the list is decoded
so. The children of a group are read like its list of drafts, wherever the group stands; its path comes in front of theirs, and its
identifier is drawn last. -/
theorem list_reads_in_turn (ids : IdSource σ) (ds : List Draft) (s : σ) :
    (∀ ps s', toPatternsFrom ids [] 0 ds s = (.ok ps, s') ↔ ReadsInTurn ids ds s ps s') ∧
      (∀ e s', toPatternsFrom ids [] 0 ds s = (.error e, s') ↔
        ∃ i cause place, RefusedInTurn ids ds s i cause place s' ∧ e = cause.at (place.under i)) ∧
      (∀ format text, listOfText? format text = some ds →
        Pattern.decodeListAs ids format text s = toPatternsFrom ids [] 0 ds s) ∧
      ∀ (d : Draft) properties path, d.type = some NodeType.group.name → d.properties = some properties → d.patterns.getD [] = ds →
        (∀ p s', d.toPattern ids path s = (.ok p, s') ↔
          ∃ children between, ReadsInTurn ids ds s children between ∧
            p = .group (d.notesWith (ids.fill d.id between).1) properties children ∧ s' = (ids.fill d.id between).2) ∧
        (∀ e s', d.toPattern ids path s = (.error e, s') ↔
          ∃ i cause place, RefusedInTurn ids ds s i cause place s' ∧
            e = cause.at { place with path := path ++ i :: place.path }) := by
  refine ⟨?_, ?_, ?_, ?_⟩
  · intro ps s'
    exact toPatternsFrom_eq_ok
  · intro e s'
    rw [toPatternsFrom_eq_error]
    simp only [Nat.zero_add]
    rfl
  · intro format text h
    rw [Pattern.decodeListAs, h]
  · intro d properties path ht hp hds
    constructor
    · intro p s'
      rw [toPattern_group_eq_ok ht hp, hds]
      simp only [toPatternsFrom_eq_ok]
    · intro e s'
      rw [toPattern_group_eq_error ht hp, hds, toPatternsFrom_eq_error]
      simp only [Nat.zero_add]

/-- The second of three drafts is refused for its own second child: two literals before it have drawn identifiers, and neither of
the groups above it. In a list the number of the draft is in front, and in a group also the path of the group. -/
theorem list_reads_in_turn_until_refused :
    let literal : Draft := { type := some "Literal", value := .text "b" }
    let wrong : Draft := { id := some "a", type := some "Anchor", value := .text "x" }
    let inner : Draft := { type := some "Group", properties := some {}, patterns := some [literal, wrong] }
    let ds := [literal, inner, literal]
    let d : Draft := { type := some NodeType.group.name, properties := some .capturing, patterns := some ds }
    let failure (path : List Nat) : Error := (Cause.invalidAnchor "x").at { path, type := some .anchor, id := some "a" }
    d.type = some NodeType.group.name ∧ d.properties = some .capturing ∧ d.patterns.getD [] = ds ∧
      toPatternsFrom .counting [] 0 ds {} = (.error (failure [1, 1]), { next := 3 }) ∧
      d.toPattern .counting [7] {} = (.error (failure [7, 1, 1]), { next := 3 }) ∧
      listOfText? .json "[\x7b\x7d]" = some [{}] ∧
      Pattern.decodeListAs .counting .json "[\x7b\x7d]" {} = (.error ((Cause.malformed .missingType).at { path := [0] }), {}) := by
  intro literal wrong inner ds d failure
  have hr : RefusedInTurn .counting ds {} 1 (.invalidAnchor "x") { path := [1], type := some .anchor, id := some "a" }
      { next := 3 } :=
    .later rfl (.here [literal] rfl)
  obtain ⟨-, he, -, hg⟩ := list_reads_in_turn .counting ds {}
  have hgroup := ((hg d .capturing [7] rfl rfl rfl).2 (failure [7, 1, 1]) { next := 3 }).2 ⟨1, _, _, hr, rfl⟩
  have ht : listOfText? .json "[\x7b\x7d]" = some [{}] := by rfl
  obtain ⟨-, -, hd, -⟩ := list_reads_in_turn .counting [{}] {}
  exact ⟨rfl, rfl, rfl, (he _ _).2 ⟨1, _, _, hr, rfl⟩, hgroup, ht, hd .json "[\x7b\x7d]" ht⟩

end Draft

end RegexTree
