import RegexTree.Compile
import RegexTree.Proofs.Resolved

/-!
# What the regex of a tree depends on

Two trees mean the same when they have the same shape and corresponding nodes have equal quantifiers, open alike and stand for
the same tokens. Identifiers and messages have no part in it, nor has the spelling of a symbol or the number of levels around
it. Trees that mean the same compile alike (`compile_depends_on_meaning`): a location may show another identifier, and nothing
else differs.
-/

namespace RegexTree

/-- Two groups open alike: they capture alike, and where they capture by name they have the same name in the same style, or
both have none. The name and the style of any other group are free. -/
def Properties.OpensLike (p q : Properties) : Prop :=
  p.capture = q.capture ∧
    (p.capture = .namedCapturing → p.groupName? = q.groupName? ∧ (p.groupName?.isSome → p.style = q.style))

namespace Pattern

mutual
/-- Two trees mean the same, and the identifiers of corresponding nodes are related by `ids`. -/
def Agrees (ids : Option String → Option String → Prop) : Pattern → Pattern → Prop
  | leaf m kind v, leaf n kind' w =>
    ids m.id n.id ∧ m.quantifier = n.quantifier ∧ kind = kind' ∧ kind.tokenOf? v.resolve = kind'.tokenOf? w.resolve
  | group m p ps, group n q qs => ids m.id n.id ∧ m.quantifier = n.quantifier ∧ p.OpensLike q ∧ AgreesAll ids ps qs
  | _, _ => False

/-- Two lists of trees mean the same, tree by tree. -/
def AgreesAll (ids : Option String → Option String → Prop) : List Pattern → List Pattern → Prop
  | [], [] => True
  | p :: ps, q :: qs => Agrees ids p q ∧ AgreesAll ids ps qs
  | _, _ => False
end

/-- Two trees mean the same, whatever their identifiers. -/
def SameMeaning (p q : Pattern) : Prop := p.Agrees (fun _ _ => True) q

/-- The value that an anchor or a class is written as by its token. The value of a literal stays as it is. -/
def tokenValue (kind : LeafKind) (value : Value) : Value :=
  match kind with
  | .literal => value
  | kind => (kind.tokenOf? value.resolve).elim value .literal

mutual
/-- The tree in which each anchor and each class is written as its token. -/
def tokenized : Pattern → Pattern
  | leaf notes kind value => leaf notes kind (tokenValue kind value)
  | group notes properties children => group notes properties (tokenizedAll children)

/-- The trees of a list, tokenized. -/
def tokenizedAll : List Pattern → List Pattern
  | [] => []
  | p :: ps => tokenized p :: tokenizedAll ps
end

end Pattern

/-! ## Tokens -/

/-- Looking an anchor up by its own token finds one. -/
theorem Anchor.isSome_ofToken?_token (a : Anchor) : (Anchor.ofToken? a.token).isSome := by
  cases a <;> decide

/-- Looking a class up by its own token finds one. -/
theorem CharacterClass.isSome_ofToken?_token (c : CharacterClass) : (CharacterClass.ofToken? c.token).isSome := by
  cases c <;> decide

/-- The token of an anchor stands for itself. -/
theorem Anchor.tokenOf?_token {text token : String} (h : Anchor.tokenOf? text = some token) :
    Anchor.tokenOf? token = some token := by
  by_cases ht : (Anchor.ofToken? text).isSome
  · rw [Anchor.tokenOf?, if_pos ht] at h
    obtain rfl : text = token := Option.some.inj h
    rw [Anchor.tokenOf?, if_pos ht]
  · rw [Anchor.tokenOf?, if_neg ht] at h
    obtain ⟨a, -, rfl⟩ := Option.map_eq_some_iff.1 h
    rw [Anchor.tokenOf?, if_pos (isSome_ofToken?_token a)]

/-- The token of a class stands for itself, and so does a bracket expression. -/
theorem CharacterClass.tokenOf?_token {text token : String} (h : CharacterClass.tokenOf? text = some token) :
    CharacterClass.tokenOf? token = some token := by
  by_cases ht : ((CharacterClass.ofToken? text).isSome || CharacterClass.isBracketed text) = true
  · rw [CharacterClass.tokenOf?, if_pos ht] at h
    obtain rfl : text = token := Option.some.inj h
    rw [CharacterClass.tokenOf?, if_pos ht]
  · rw [CharacterClass.tokenOf?, if_neg ht] at h
    obtain ⟨c, -, rfl⟩ := Option.map_eq_some_iff.1 h
    rw [CharacterClass.tokenOf?, if_pos (by rw [isSome_ofToken?_token c, Bool.true_or])]

/-- What a leaf stands for stands for itself. -/
theorem LeafKind.tokenOf?_token {kind : LeafKind} {text token : String} (h : kind.tokenOf? text = some token) :
    kind.tokenOf? token = some token := by
  cases kind with
  | literal => rfl
  | anchor => exact Anchor.tokenOf?_token h
  | characterClass => exact CharacterClass.tokenOf?_token h

namespace MeaningAux

open Pattern

/-- A value and the token it is written as stand for the same. -/
theorem tokenOf?_tokenValue {kind : LeafKind} {value : Value} (h : (kind.tokenOf? value.resolve).isSome) :
    kind.tokenOf? (tokenValue kind value).resolve = kind.tokenOf? value.resolve := by
  obtain ⟨token, ht⟩ := Option.isSome_iff_exists.1 h
  cases kind with
  | literal => rfl
  | anchor | characterClass =>
    rw [tokenValue, ht]
    · exact LeafKind.tokenOf?_token ht
    · nofun

mutual
/-- A resolved tree means the same when it is tokenized, and keeps its identifiers. -/
theorem agrees_tokenized : (p : Pattern) → p.Resolved → p.Agrees Eq p.tokenized
  | leaf .., h => ⟨rfl, rfl, rfl, (tokenOf?_tokenValue h).symm⟩
  | group _ _ children, h => ⟨rfl, rfl, ⟨rfl, fun _ => ⟨rfl, fun _ => rfl⟩⟩, agreesAll_tokenized children h⟩

/-- The trees of a resolved list mean the same when they are tokenized. -/
theorem agreesAll_tokenized : (ps : List Pattern) → ResolvedAll ps → AgreesAll Eq ps (tokenizedAll ps)
  | [], _ => trivial
  | p :: ps, h => ⟨agrees_tokenized p h.1, agreesAll_tokenized ps h.2⟩
end

/-! ## Trees that mean the same -/

variable {ids : Option String → Option String → Prop}

mutual
/-- What means the same as a resolved tree is resolved. -/
theorem resolved_of_agrees : (p q : Pattern) → p.Agrees ids q → p.Resolved → q.Resolved
  | leaf _ kind _, q, ha, h => by
    cases q with
    | leaf n kind' w =>
      obtain ⟨-, -, rfl, ht⟩ := ha
      rw [Resolved, ← ht]
      exact h
    | group => cases ha
  | group _ _ ps, q, ha, h => by
    cases q with
    | leaf => cases ha
    | group n q qs => exact resolvedAll_of_agreesAll ps qs ha.2.2.2 h

/-- What means the same as a resolved list of trees is resolved. -/
theorem resolvedAll_of_agreesAll : (ps qs : List Pattern) → AgreesAll ids ps qs → ResolvedAll ps → ResolvedAll qs
  | [], qs, ha, _ => by
    cases qs with
    | nil => trivial
    | cons => cases ha
  | p :: ps, qs, ha, h => by
    cases qs with
    | nil => cases ha
    | cons q qs => exact ⟨resolved_of_agrees p q ha.1 h.1, resolvedAll_of_agreesAll ps qs ha.2 h.2⟩
end

mutual
/-- Trees that mean the same still do when less is asked of their identifiers. -/
theorem agrees_mono {ids' : Option String → Option String → Prop} (hm : ∀ i j, ids i j → ids' i j) :
    (p q : Pattern) → p.Agrees ids q → p.Agrees ids' q
  | leaf .., q, ha => by
    cases q with
    | leaf => exact ⟨hm _ _ ha.1, ha.2⟩
    | group => cases ha
  | group _ _ ps, q, ha => by
    cases q with
    | leaf => cases ha
    | group n q qs => exact ⟨hm _ _ ha.1, ha.2.1, ha.2.2.1, agreesAll_mono hm ps qs ha.2.2.2⟩

/-- Lists of trees that mean the same still do when less is asked of their identifiers. -/
theorem agreesAll_mono {ids' : Option String → Option String → Prop} (hm : ∀ i j, ids i j → ids' i j) :
    (ps qs : List Pattern) → AgreesAll ids ps qs → AgreesAll ids' ps qs
  | [], qs, ha => by
    cases qs with
    | nil => trivial
    | cons => cases ha
  | p :: ps, qs, ha => by
    cases qs with
    | nil => cases ha
    | cons q qs => exact ⟨agrees_mono hm p q ha.1, agreesAll_mono hm ps qs ha.2⟩
end

/-- Two groups that open alike have the same opening. -/
theorem opening?_eq {p q : Properties} (h : p.OpensLike q) : p.opening? = q.opening? := by
  obtain ⟨hc, hn⟩ := h
  simp only [Properties.opening?, ← hc]
  cases hp : p.capture with
  | nonCapturing => rfl
  | capturing => rfl
  | namedCapturing =>
    obtain ⟨hg, hs⟩ := hn hp
    simp only [← hg]
    cases hname : p.groupName? with
    | none => rfl
    | some name => rw [hs (by rw [hname]; rfl)]

/-- A group without children means the same only as another one. -/
theorem isEmpty_eq {ps qs : List Pattern} (h : AgreesAll ids ps qs) : ps.isEmpty = qs.isEmpty := by
  cases ps <;> cases qs <;> first | rfl | cases h

/-- The check of a leaf gives the same for what stands for the same token. -/
theorem token_eq {kind : LeafKind} {text text' : String} (h : (kind.tokenOf? text).isSome)
    (ht : kind.tokenOf? text = kind.tokenOf? text') : kind.token text = kind.token text' := by
  obtain ⟨token, hs, hk⟩ := LeafKind.token_of_isSome h
  obtain ⟨token', hs', hk'⟩ := LeafKind.token_of_isSome (ht ▸ h)
  rw [hk, hk', Option.some.inj (hs.symm.trans (ht.trans hs'))]

/-! ## Compiling them -/

/-- Two outcomes are alike: the same regex, or failures of the same cause at the same place, with related identifiers. -/
inductive Alike (ids : Option String → Option String → Prop) : Except Error String → Except Error String → Prop where
  | regex (regex : String) : Alike ids (.ok regex) (.ok regex)
  | failure (cause : Cause) (path : List Nat) (type : NodeType) {i j : Option String} :
      ids i j → Alike ids (.error (cause.at { path, type, id := i })) (.error (cause.at { path, type, id := j }))

/-- Two steps one after another are alike where both are. -/
theorem Alike.bind {first first' : Except Error String} {second second' : String → Except Error String}
    (h : Alike ids first first') (hs : ∀ regex, Alike ids (second regex) (second' regex)) :
    Alike ids (first >>= second) (first' >>= second') := by
  cases h with
  | regex regex => exact hs regex
  | failure cause path type hi => exact Alike.failure cause path type hi

/-- Located failures keep their locations. -/
theorem Alike.locate {outcome outcome' : Except Error String} (h : Alike ids outcome outcome') (l l' : Location) :
    Alike ids (Error.locate l outcome) (Error.locate l' outcome') := by
  cases h with
  | regex regex => exact Alike.regex regex
  | failure cause path type hi => exact Alike.failure cause path type hi

/-- What a step without a location gives is located alike at corresponding nodes. -/
theorem Alike.atNode {p q : Pattern} (hi : ids p.id q.id) (ht : p.type = q.type) (path : List Nat)
    (step : Except Cause String) :
    Alike ids (Error.locate (p.location path) (step.mapError Cause.unlocated))
      (Error.locate (q.location path) (step.mapError Cause.unlocated)) := by
  cases step with
  | ok regex => exact Alike.regex regex
  | error cause =>
    have h : Alike ids (.error (cause.at (p.location path))) (.error (cause.at { path, type := some p.type, id := q.id })) :=
      Alike.failure cause path p.type hi
    rwa [ht] at h

mutual
/-- Trees that mean the same compile alike, wherever they stand. -/
theorem compileAt_alike (limit : Nat) (path : List Nat) (depth : Nat) : (p q : Pattern) → p.Resolved → p.Agrees ids q →
    Alike ids (p.compileAt limit path depth) (q.compileAt limit path depth)
  | leaf m kind v, q, h, ha => by
    cases q with
    | group => cases ha
    | leaf n kind' w =>
      obtain ⟨hi, hq, rfl, ht⟩ := ha
      have hf : leafFragment m kind v = leafFragment n kind w := by
        rw [leafFragment, leafFragment, token_eq h ht, hq]
      have ha := Alike.atNode (p := leaf m kind v) (q := leaf n kind w) hi rfl path
      rw [compileAt, compileAt, hf]
      by_cases hd : limit < depth
      · rw [if_pos hd]
        exact ha (.error (.depthExceeded limit))
      · rw [if_neg hd]
        exact ha (leafFragment n kind w)
  | group m p ps, q, h, ha => by
    cases q with
    | leaf => cases ha
    | group n q qs =>
      obtain ⟨hi, hq, ho, hc⟩ := ha
      have ha := Alike.atNode (p := group m p ps) (q := group n q qs) hi rfl path
      rw [compileAt, compileAt, opening?_eq ho, isEmpty_eq hc]
      by_cases hd : limit < depth
      · rw [if_pos hd, if_pos hd]
        exact ha (.error (.depthExceeded limit))
      · rw [if_neg hd, if_neg hd]
        by_cases he : qs.isEmpty
        · rw [if_pos he, if_pos he]
          exact ha (.error .emptyGroup)
        · rw [if_neg he, if_neg he]
          cases q.opening? with
          | none => exact ha (.error .missingGroupName)
          | some opening =>
            simp only [Error.locate_bind, hq]
            refine ((compileFrom_alike limit path (depth + 1) 0 ps qs h hc).locate _ _).bind fun body => ?_
            exact ha (quantified (opening ++ body ++ ")") n.quantifier)

/-- Lists of trees that mean the same compile alike, wherever they stand. -/
theorem compileFrom_alike (limit : Nat) (path : List Nat) (depth index : Nat) : (ps qs : List Pattern) → ResolvedAll ps →
    AgreesAll ids ps qs → Alike ids (compileFrom limit path depth index ps) (compileFrom limit path depth index qs)
  | [], qs, _, ha => by
    cases qs with
    | nil => exact Alike.regex ""
    | cons => cases ha
  | p :: ps, qs, h, ha => by
    cases qs with
    | nil => cases ha
    | cons q qs =>
      rw [compileFrom, compileFrom]
      refine (compileAt_alike limit (path ++ [index]) depth p q h.1 ha.1).bind fun fragment => ?_
      exact (compileFrom_alike limit path depth (index + 1) ps qs h.2 ha.2).bind fun rest => Alike.regex (fragment ++ rest)
end

/-- Outcomes that are alike down to the identifiers are the same. -/
theorem Alike.eq {outcome outcome' : Except Error String} (h : Alike Eq outcome outcome') : outcome = outcome' := by
  cases h with
  | regex regex => rfl
  | failure cause path type hi => rw [hi]

end MeaningAux

namespace Pattern

/-- A tree that the constructors build compiles like every tree that means the same: to the same regex, or to a failure of the
same cause at the same path and kind of node. In particular the tree in which each anchor and each class is written as its
token is resolved and compiles to the very same outcome. -/
theorem compile_depends_on_meaning (limit : Nat) (p : Pattern) (h : p.Resolved) :
    (∀ q, p.SameMeaning q →
      (∃ regex, p.compile limit = .ok regex ∧ q.compile limit = .ok regex) ∨
        ∃ cause path type i j, p.compile limit = .error { cause, location := some { path, type := some type, id := i } } ∧
          q.compile limit = .error { cause, location := some { path, type := some type, id := j } }) ∧
      p.SameMeaning p.tokenized ∧ p.tokenized.Resolved ∧ p.tokenized.compile limit = p.compile limit := by
  have ht := MeaningAux.agrees_tokenized p h
  refine ⟨fun q hq => ?_, MeaningAux.agrees_mono (fun _ _ _ => trivial) _ _ ht, MeaningAux.resolved_of_agrees _ _ ht h,
    (MeaningAux.compileAt_alike limit [] 1 _ _ h ht).eq.symm⟩
  have ha := MeaningAux.compileAt_alike limit [] 1 p q h hq
  simp only [compile]
  generalize p.compileAt limit [] 1 = outcome, q.compileAt limit [] 1 = outcome' at ha ⊢
  cases ha with
  | regex regex => exact Or.inl ⟨regex, rfl, rfl⟩
  | failure cause path type _ => exact Or.inr ⟨cause, path, type, _, _, rfl, rfl⟩

/-- Two trees that mean the same: one has an anchor by name inside two levels, a class by name and a group that captures by
number under a name of no use, the other has the tokens and other identifiers. Both fail at the same leaf. -/
theorem compile_depends_on_meaning_of_symbols :
    let q : Quantifier := .between 2 1
    let named : Pattern := .group { id := some "a" } { name := some "x", capture := .capturing }
      [.leaf {} .anchor (.nested (.nested (.literal "EndOfLine"))),
        .leaf { id := some "b", message := some "digit", quantifier := some q } .characterClass (.literal "Digit")]
    let token : Pattern := .group {} { capture := .capturing, style := .pStyle }
      [.leaf { message := some "" } .anchor (.literal "$"),
        .leaf { id := some "c", quantifier := some q } .characterClass (.nested (.literal "\\d"))]
    named.Resolved ∧ named.SameMeaning token ∧
      ((∃ regex, named.compile 2 = .ok regex ∧ token.compile 2 = .ok regex) ∨
        ∃ cause path type i j, named.compile 2 = .error { cause, location := some { path, type := some type, id := i } } ∧
          token.compile 2 = .error { cause, location := some { path, type := some type, id := j } }) ∧
      named.tokenized.compile 2 = named.compile 2 := by
  intro q named token
  have hn : named.Resolved :=
    ⟨show (Anchor.tokenOf? "EndOfLine").isSome by decide, show (CharacterClass.tokenOf? "Digit").isSome by decide, trivial⟩
  have hs : named.SameMeaning token :=
    ⟨trivial, rfl, ⟨rfl, nofun⟩, ⟨trivial, rfl, rfl, show Anchor.tokenOf? "EndOfLine" = Anchor.tokenOf? "$" by decide⟩,
      ⟨trivial, rfl, rfl, show CharacterClass.tokenOf? "Digit" = CharacterClass.tokenOf? "\\d" by decide⟩, trivial⟩
  obtain ⟨h, -, -, ht⟩ := compile_depends_on_meaning 2 named hn
  exact ⟨hn, hs, h token hs, ht⟩

end Pattern

end RegexTree
