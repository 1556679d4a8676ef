import RegexTree.Codec
import RegexTree.Proofs.DraftRoundTrip
import RegexTree.Proofs.Meaning
import RegexTree.Proofs.Offences
import RegexTree.Proofs.Violations

/-!
# The tree that a draft states

`Draft.stated?` is the tree of a draft before any identifier is drawn. A draft that is accepted states a tree, and what comes
of it is that tree with its missing identifiers filled in (`toPattern_eq_assignIds`). So two decodings of one draft, whatever
their sources of identifiers, differ in identifiers that the draft does not state and in nothing else.
-/

namespace RegexTree

variable {σ : Type}

namespace Draft

mutual
/-- The tree a draft states, each node with the identifier that is stated for it, if any. -/
def stated? : Draft → Option Pattern
  | d@⟨id, type, _, quantifier, message, properties, patterns⟩ =>
    match type.bind NodeType.ofName? with
    | none => none
    | some type =>
      match type.leafKind? with
      | some kind => (d.leafValue kind).toOption.map (.leaf { id, message, quantifier } kind)
      | none =>
        match properties, statedChildren? patterns with
        | some properties, some children => some (.group { id, message, quantifier } properties children)
        | _, _ => none

/-- The trees of the children that a group states, none where it states none. -/
def statedChildren? : Option (List Draft) → Option (List Pattern)
  | none => some []
  | some ds => statedAll? ds

/-- The trees that the drafts of a list state. -/
def statedAll? : List Draft → Option (List Pattern)
  | [] => some []
  | d :: ds =>
    match stated? d, statedAll? ds with
    | some p, some ps => some (p :: ps)
    | _, _ => none
end

end Draft

namespace StatedAux

/-! ## What is accepted is what is stated -/

mutual
/-- What comes of an accepted draft is the tree it states, with its missing identifiers filled in. -/
theorem toPattern_eq_assignIds (ids : IdSource σ) : (d : Draft) → ∀ path s p s', d.toPattern ids path s = (.ok p, s') →
    ∃ u, d.stated? = some u ∧ u.assignIds ids s = (p, s')
  | ⟨id, type, value, quantifier, message, properties, patterns⟩, path, s, p, s', h => by
    cases type with
    | none => cases h
    | some name =>
      simp only [Draft.toPattern] at h
      cases hn : NodeType.ofName? name with
      | none => rw [hn] at h; cases h
      | some type =>
        simp only [hn] at h
        simp only [Draft.stated?, Option.bind_some, hn]
        cases hk : type.leafKind? with
        | some kind =>
          simp only [hk] at h ⊢
          cases hv : Draft.leafValue kind ⟨id, some name, value, quantifier, message, properties, patterns⟩ with
          | error cause => rw [hv] at h; cases h
          | ok leaf =>
            rw [hv] at h
            cases h
            exact ⟨_, rfl, rfl⟩
        | none =>
          simp only [hk] at h ⊢
          cases properties with
          | none => cases h
          | some properties =>
            simp only at h
            cases hc : Draft.toChildren ids path patterns s with
            | mk outcome after =>
              rw [hc] at h
              cases outcome with
              | error e => cases h
              | ok children =>
                obtain ⟨us, hu, ha⟩ := toChildren_eq_assignIds ids patterns path s children after hc
                cases h
                refine ⟨_, by rw [hu], ?_⟩
                simp only [Pattern.assignIds, ha]
                rfl

/-- The same for the children that a group states. -/
theorem toChildren_eq_assignIds (ids : IdSource σ) : (patterns : Option (List Draft)) → ∀ path s ps s',
    Draft.toChildren ids path patterns s = (.ok ps, s') →
      ∃ us, Draft.statedChildren? patterns = some us ∧ Pattern.assignIdsAll ids us s = (ps, s')
  | none, path, s, ps, s', h => by
    cases h
    exact ⟨[], rfl, rfl⟩
  | some ds, path, s, ps, s', h => toPatternsFrom_eq_assignIds ids ds path 0 s ps s' h

/-- The same for a list of drafts. -/
theorem toPatternsFrom_eq_assignIds (ids : IdSource σ) : (ds : List Draft) → ∀ path index s ps s',
    Draft.toPatternsFrom ids path index ds s = (.ok ps, s') →
      ∃ us, Draft.statedAll? ds = some us ∧ Pattern.assignIdsAll ids us s = (ps, s')
  | [], path, index, s, ps, s', h => by
    cases h
    exact ⟨[], rfl, rfl⟩
  | d :: ds, path, index, s, ps, s', h => by
    rw [Draft.toPatternsFrom] at h
    cases hd : d.toPattern ids (path ++ [index]) s with
    | mk outcome after =>
      rw [hd] at h
      cases outcome with
      | error e => cases h
      | ok p =>
        simp only at h
        cases hds : Draft.toPatternsFrom ids path (index + 1) ds after with
        | mk outcomes afters =>
          rw [hds] at h
          cases outcomes with
          | error e => cases h
          | ok qs =>
            obtain ⟨u, hu, ha⟩ := toPattern_eq_assignIds ids d (path ++ [index]) s p after hd
            obtain ⟨us, hus, has⟩ := toPatternsFrom_eq_assignIds ids ds path (index + 1) after qs afters hds
            cases h
            exact ⟨u :: us, by rw [Draft.statedAll?, hu, hus], by simp only [Pattern.assignIdsAll, ha, has]⟩
end

/-- A text is decoded in the format it is taken for. -/
theorem decodeAs_of_decode {ids : IdSource σ} {text : String} {s : σ} {p : Pattern} (h : (Pattern.decode ids text s).1 = .ok p) :
    ∃ format, Format.detect text = some format ∧ (Pattern.decodeAs ids format text s).1 = .ok p := by
  unfold Pattern.decode at h
  split at h
  · cases h
  · exact ⟨_, ‹_›, h⟩

/-- The text of a list is decoded in the format it is taken for. -/
theorem decodeListAs_of_decodeList {ids : IdSource σ} {text : String} {s : σ} {ps : List Pattern}
    (h : (Pattern.decodeList ids text s).1 = .ok ps) :
    ∃ format, Format.detectList text = some format ∧ (Pattern.decodeListAs ids format text s).1 = .ok ps := by
  unfold Pattern.decodeList at h
  split at h
  · cases h
  · exact ⟨_, ‹_›, h⟩

/-- A text of a known format that is accepted is one of a draft that states a tree, and what comes of it is that tree with its
missing identifiers filled in. -/
theorem decodeAs_ok {ids : IdSource σ} {format : Format} {text : String} {s : σ} {p : Pattern}
    (h : (Pattern.decodeAs ids format text s).1 = .ok p) :
    ∃ d u, Draft.ofText? format text = some d ∧ d.stated? = some u ∧
      u.assignIds ids s = (p, (Pattern.decodeAs ids format text s).2) := by
  unfold Pattern.decodeAs at h ⊢
  split at h
  · cases h
  · rename_i d hd
    simp only [hd]
    obtain ⟨u, hu, ha⟩ := toPattern_eq_assignIds ids d [] s p (d.toPattern ids [] s).2 (by rw [← h])
    exact ⟨d, u, rfl, hu, ha⟩

/-- A text that is accepted is one of a draft that states a tree, and what comes of it is that tree with its missing
identifiers filled in. -/
theorem decode_ok {ids : IdSource σ} {text : String} {s : σ} {p : Pattern} (h : (Pattern.decode ids text s).1 = .ok p) :
    ∃ format d u, Format.detect text = some format ∧ Draft.ofText? format text = some d ∧ d.stated? = some u ∧
      u.assignIds ids s = (p, (Pattern.decode ids text s).2) := by
  unfold Pattern.decode at h ⊢
  split at h
  · cases h
  · rename_i format hf
    obtain ⟨d, u, hd, hu, ha⟩ := decodeAs_ok h
    simp only [hf]
    exact ⟨format, d, u, rfl, hd, hu, ha⟩

/-- A text of a known format that is accepted as a list is one of drafts that state trees, and what comes of it is these trees
with their missing identifiers filled in. -/
theorem decodeListAs_ok {ids : IdSource σ} {format : Format} {text : String} {s : σ} {ps : List Pattern}
    (h : (Pattern.decodeListAs ids format text s).1 = .ok ps) :
    ∃ ds us, Draft.listOfText? format text = some ds ∧ Draft.statedAll? ds = some us ∧
      Pattern.assignIdsAll ids us s = (ps, (Pattern.decodeListAs ids format text s).2) := by
  unfold Pattern.decodeListAs at h ⊢
  split at h
  · cases h
  · rename_i ds hd
    simp only [hd]
    obtain ⟨us, hu, ha⟩ := toPatternsFrom_eq_assignIds ids ds [] 0 s ps (Draft.toPatternsFrom ids [] 0 ds s).2 (by rw [← h])
    exact ⟨ds, us, rfl, hu, ha⟩

/-! ## Nodes and their identifiers -/

/-- A draft that states a tree is a leaf whose value passes its checks, or a group whose children state trees. -/
theorem stated?_cases {d : Draft} {u : Pattern} (h : d.stated? = some u) :
    (∃ kind value, d.leafValue kind = .ok value ∧ u = .leaf ⟨d.id, d.message, d.quantifier⟩ kind value) ∨
      ∃ properties us, Draft.statedAll? d.items = some us ∧ u = .group ⟨d.id, d.message, d.quantifier⟩ properties us := by
  obtain ⟨id, type, value, quantifier, message, properties, patterns⟩ := d
  cases hn : type.bind NodeType.ofName? with
  | none => simp only [Draft.stated?, hn] at h; cases h
  | some found =>
    simp only [Draft.stated?, hn] at h
    obtain ⟨name, rfl, hname⟩ := Option.bind_eq_some_iff.1 hn
    obtain rfl := OffenceAux.ofName?_eq_some hname
    cases hk : found.leafKind? with
    | some kind =>
      simp only [hk] at h
      obtain ⟨value', hv, rfl⟩ := Option.map_eq_some_iff.1 h
      refine Or.inl ⟨kind, value', ?_, rfl⟩
      cases hl : Draft.leafValue kind ⟨id, some found.name, value, quantifier, message, properties, patterns⟩ with
      | error cause => rw [hl] at hv; cases hv
      | ok w => rw [hl] at hv; cases hv; rfl
    | none =>
      obtain rfl : found = .group := by cases found <;> first | rfl | cases hk
      simp only [hk] at h
      cases properties with
      | none => cases h
      | some properties =>
        cases hc : Draft.statedChildren? patterns with
        | none => rw [hc] at h; cases h
        | some us =>
          rw [hc] at h
          cases h
          refine Or.inr ⟨properties, us, ?_, rfl⟩
          cases patterns with
          | none => exact hc
          | some ds => exact hc

/-- The trees that the drafts of a list state stand in the same places. -/
theorem getElem?_statedAll? {ds : List Draft} {us : List Pattern} (h : Draft.statedAll? ds = some us) (i : Nat) :
    us[i]? = ds[i]?.bind Draft.stated? := by
  induction ds generalizing us i with
  | nil => cases h; rfl
  | cons d ds ih =>
    rw [Draft.statedAll?] at h
    cases hd : d.stated? with
    | none => rw [hd] at h; cases h
    | some p =>
      cases hds : Draft.statedAll? ds with
      | none => rw [hd, hds] at h; cases h
      | some ps =>
        rw [hd, hds] at h
        cases h
        cases i with
        | zero => exact hd.symm
        | succ i => exact ih hds i

/-- Each tree that the drafts of a list state is stated by one of them. -/
theorem mem_statedAll? {ds : List Draft} {us : List Pattern} (h : Draft.statedAll? ds = some us) {u : Pattern} (hu : u ∈ us) :
    ∃ d ∈ ds, d.stated? = some u := by
  obtain ⟨i, hi⟩ := List.mem_iff_getElem?.1 hu
  rw [getElem?_statedAll? h] at hi
  obtain ⟨d, hd, hs⟩ := Option.bind_eq_some_iff.1 hi
  exact ⟨d, List.mem_of_getElem? hd, hs⟩

/-- A value that passes the checks of a leaf stands for a token. -/
theorem isSome_of_leafValue {kind : LeafKind} {d : Draft} {value : Value} (h : d.leafValue kind = .ok value) :
    (kind.tokenOf? value.resolve).isSome := by
  unfold Draft.leafValue at h
  cases hv : d.value.toNodeValue with
  | error cause => rw [hv] at h; cases h
  | ok v =>
    rw [hv] at h
    cases ht : kind.token v.resolve with
    | error cause => simp only [bind, Except.bind, ht] at h; cases h
    | ok token =>
      simp only [bind, Except.bind, ht] at h
      cases h
      exact LeafKind.isSome_of_token ht

/-- A tree that is stated is resolved. -/
theorem resolved_of_stated (d : Draft) : ∀ u, d.stated? = some u → u.Resolved := by
  induction d using OffenceAux.items_induction with
  | step d ih =>
    intro u h
    rcases stated?_cases h with ⟨kind, value, hv, rfl⟩ | ⟨properties, us, hs, rfl⟩
    · exact isSome_of_leafValue hv
    · refine (Pattern.resolvedAll_iff us).2 fun p hp => ?_
      obtain ⟨e, he, hp⟩ := mem_statedAll? hs hp
      exact ih e he p hp

/-- The trees that the drafts of a list state are resolved. -/
theorem resolved_of_statedAll {ds : List Draft} {us : List Pattern} (h : Draft.statedAll? ds = some us) :
    ∀ u ∈ us, u.Resolved := by
  intro u hu
  obtain ⟨d, -, hd⟩ := mem_statedAll? h hu
  exact resolved_of_stated d u hd

/-- A node of a tree that is stated has the identifier that the node of the draft states. -/
theorem reached?_of_at? (path : List Nat) : ∀ (d : Draft) (u node : Pattern), d.stated? = some u → u.at? path = some node →
    ∃ e, d.reached? path = some e ∧ node.id = e.id := by
  induction path with
  | nil =>
    intro d u node h hn
    obtain rfl : u = node := Option.some.inj hn
    refine ⟨d, rfl, ?_⟩
    rcases stated?_cases h with ⟨kind, value, hv, rfl⟩ | ⟨properties, us, hs, rfl⟩ <;> rfl
  | cons i path ih =>
    intro d u node h hn
    rcases stated?_cases h with ⟨kind, value, hv, rfl⟩ | ⟨properties, us, hs, rfl⟩
    · cases hn
    · rw [Pattern.at?, Pattern.children, getElem?_statedAll? hs] at hn
      obtain ⟨p, hp, hn⟩ := Option.bind_eq_some_iff.1 hn
      obtain ⟨e, he, hu⟩ := Option.bind_eq_some_iff.1 hp
      obtain ⟨f, hf, hid⟩ := ih e p node hu hn
      exact ⟨f, by rw [Draft.reached?, he]; exact hf, hid⟩

/-- An identifier that stands keeps standing, any other is free. -/
def Keeps (stated given : Option String) : Prop := stated.isSome → given = stated

/-- A node keeps its identifier if it has one. -/
theorem keeps_fill (ids : IdSource σ) (id : Option String) (s : σ) : Keeps id (some (ids.fill id s).1) := by
  cases id with
  | none => nofun
  | some id => exact fun _ => rfl

mutual
/-- A tree with its missing identifiers filled in means the same, and the identifiers it had it keeps. -/
theorem agrees_assignIds (ids : IdSource σ) : (p : Pattern) → (s : σ) → p.Agrees Keeps (p.assignIds ids s).1
  | .leaf notes _ _, s => ⟨keeps_fill ids notes.id s, rfl, rfl, rfl⟩
  | .group notes _ children, s =>
    ⟨keeps_fill ids notes.id _, rfl, ⟨rfl, fun _ => ⟨rfl, fun _ => rfl⟩⟩, agreesAll_assignIdsAll ids children s⟩

/-- The same for the trees of a list. -/
theorem agreesAll_assignIdsAll (ids : IdSource σ) : (ps : List Pattern) → (s : σ) →
    Pattern.AgreesAll Keeps ps (Pattern.assignIdsAll ids ps s).1
  | [], _ => trivial
  | p :: ps, s => ⟨agrees_assignIds ids p s, agreesAll_assignIdsAll ids ps _⟩
end

/-- A resolved tree stays resolved when its missing identifiers are filled in. -/
theorem resolved_assignIds (ids : IdSource σ) {p : Pattern} (h : p.Resolved) (s : σ) : (p.assignIds ids s).1.Resolved :=
  MeaningAux.resolved_of_agrees _ _ (agrees_assignIds ids p s) h

/-- Resolved trees of a list stay resolved when their missing identifiers are filled in. -/
theorem resolved_assignIdsAll (ids : IdSource σ) {ps : List Pattern} (h : ∀ p ∈ ps, p.Resolved) (s : σ) :
    ∀ q ∈ (Pattern.assignIdsAll ids ps s).1, q.Resolved :=
  (Pattern.resolvedAll_iff _).1 <|
    MeaningAux.resolvedAll_of_agreesAll _ _ (agreesAll_assignIdsAll ids ps s) ((Pattern.resolvedAll_iff ps).2 h)

/-- A tree that is read from a text is resolved. -/
theorem resolved_of_decodeAs {ids : IdSource σ} {format : Format} {text : String} {s : σ} {p : Pattern}
    (h : (Pattern.decodeAs ids format text s).1 = .ok p) : p.Resolved := by
  obtain ⟨d, u, -, hu, ha⟩ := decodeAs_ok h
  rw [← show (u.assignIds ids s).1 = p from congrArg Prod.fst ha]
  exact resolved_assignIds ids (resolved_of_stated d u hu) s

/-- The trees that are read from the text of a list are resolved. -/
theorem resolved_of_decodeListAs {ids : IdSource σ} {format : Format} {text : String} {s : σ} {ps : List Pattern}
    (h : (Pattern.decodeListAs ids format text s).1 = .ok ps) : ∀ p ∈ ps, p.Resolved := by
  obtain ⟨ds, us, -, hu, ha⟩ := decodeListAs_ok h
  rw [← show (Pattern.assignIdsAll ids us s).1 = ps from congrArg Prod.fst ha]
  exact resolved_assignIdsAll ids (resolved_of_statedAll hu) s

end StatedAux

end RegexTree
