import RegexTree.Proofs.Causes
import RegexTree.Proofs.Stated

/-!
# What a program holds

A program holds some trees. It builds new ones, edits those it has, at the root or at a child, and reads trees from texts: each
of these is a `Step`. Each step keeps all that is held resolved, so no value without a token gets into a tree and none is left
for the compiler to find (`held_trees_admit_values`).
-/

namespace RegexTree

variable {σ : Type}

/-- What the value of a leaf may be: any text for a literal, the name or the token of an anchor, and the name or the token of a
class or else a bracket expression. -/
def LeafKind.Admits : LeafKind → String → Prop
  | literal, _ => True
  | anchor, text => ∃ a : Anchor, text = a.name ∨ text = a.token
  | characterClass, text => (∃ c : CharacterClass, text = c.name ∨ text = c.token) ∨ ∃ inner, text = "[" ++ inner ++ "]"

/-- What is wrong with an input and not with a tree. -/
def Cause.OfInput : Cause → Prop
  | malformed _ | invalidType _ | invalidAnchor _ | invalidCharacterClass _ => True
  | invalidRange .. | missingGroupName | emptyGroup | depthExceeded _ => False

namespace Pattern

/-- Two trees have nodes of the same kinds in the same places. -/
def SameTypes (p q : Pattern) : Prop := ∀ path, (q.at? path).map type = (p.at? path).map type

/-- What became of a tree by an edit of the node at `place`: elsewhere each node keeps its kind, and there the node keeps its
own. Below it each node keeps its kind too, unless the children were exchanged for others that the node or the program had. -/
def EditedAt (held : List Pattern) (place : List Nat) (p q : Pattern) : Prop :=
  (∀ path, ¬place <+: path → (q.at? path).map type = (p.at? path).map type) ∧
    ∃ m n, p.at? place = some m ∧ q.at? place = some n ∧ n.type = m.type ∧
      (m.SameTypes n ∨
        n.notes = m.notes ∧ n.properties? = m.properties? ∧ ∀ c ∈ n.children, c ∈ m.children ∨ c ∈ held)

/-- An edit of a tree, or of a child in its place, with other trees at hand. -/
inductive Edit (held : List Pattern) : Pattern → Pattern → Prop where
  | withId (id : String) (p : Pattern) : Edit held p (p.withId id)
  | withMessage (message : String) (p : Pattern) : Edit held p (p.withMessage message)
  | withQuantifier (quantifier : Option Quantifier) (p : Pattern) : Edit held p (p.withQuantifier quantifier)
  | withValue {value : Value} {p q : Pattern} : p.withValue value = .ok q → Edit held p q
  | withChildren {children : List Pattern} {p q : Pattern} :
      (∀ c ∈ children, c ∈ p.children ∨ c ∈ held) → p.withChildren? children = some q → Edit held p q
  | assignIds {σ : Type} (ids : IdSource σ) (s : σ) (p : Pattern) : Edit held p (p.assignIds ids s).1
  | child (notes : Notes) (properties : Properties) {children : List Pattern} {i : Nat} {c d : Pattern} :
      children[i]? = some c → Edit held c d →
        Edit held (group notes properties children) (group notes properties (children.set i d))

/-- What comes of an operation that may fail. -/
def made {ε : Type} : Except ε Pattern → List Pattern
  | .ok p => [p]
  | .error _ => []

/-- What comes of an operation on lists that may fail. -/
def madeAll {ε : Type} : Except ε (List Pattern) → List Pattern
  | .ok ps => ps
  | .error _ => []

/-- What a program may do with the trees it holds. A tree that does not take a value is lost. -/
inductive Step : List Pattern → List Pattern → Prop where
  | literal (text : String) (held : List Pattern) : Step held (literal text :: held)
  | anchor (text : String) (held : List Pattern) : Step held (made (anchor text) ++ held)
  | characterClass (text : String) (held : List Pattern) : Step held (made (characterClass text) ++ held)
  | ofValue (type : NodeType) (value : Value) (held : List Pattern) : Step held (made (ofValue type value) ++ held)
  | grouping (properties : Properties) {children held : List Pattern} :
      (∀ c ∈ children, c ∈ held) → Step held (grouping properties children :: held)
  | take {path : List Nat} {p node : Pattern} {held : List Pattern} :
      p ∈ held → p.at? path = some node → Step held (node :: held)
  | drop (before after : List Pattern) (p : Pattern) : Step (before ++ p :: after) (before ++ after)
  | edit {before after : List Pattern} {p q : Pattern} :
      Edit (before ++ after) p q → Step (before ++ p :: after) (before ++ q :: after)
  | withValue (value : Value) (before after : List Pattern) (p : Pattern) :
      Step (before ++ p :: after) (before ++ made (p.withValue value) ++ after)
  | decodeAs {σ : Type} (ids : IdSource σ) (format : Format) (text : String) (s : σ) (held : List Pattern) :
      Step held (made (decodeAs ids format text s).1 ++ held)
  | decode {σ : Type} (ids : IdSource σ) (text : String) (s : σ) (held : List Pattern) :
      Step held (made (decode ids text s).1 ++ held)
  | decodeListAs {σ : Type} (ids : IdSource σ) (format : Format) (text : String) (s : σ) (held : List Pattern) :
      Step held (madeAll (decodeListAs ids format text s).1 ++ held)
  | decodeList {σ : Type} (ids : IdSource σ) (text : String) (s : σ) (held : List Pattern) :
      Step held (madeAll (decodeList ids text s).1 ++ held)

/-- What a program can come to hold that holds nothing at first. -/
inductive Held : List Pattern → Prop where
  | nothing : Held []
  | step {held held' : List Pattern} : Held held → Step held held' → Held held'

end Pattern

namespace HeldAux

open Pattern

/-! ## What a leaf admits -/

/-- A table has an entry of a text where one of its texts is that. -/
theorem isSome_find? {α : Type} {all : List α} (hall : ∀ a, a ∈ all) (name : α → String) (text : String) :
    (all.find? fun a => name a == text).isSome ↔ ∃ a, text = name a := by
  rw [List.find?_isSome]
  constructor
  · rintro ⟨a, -, ha⟩
    exact ⟨a, (eq_of_beq ha).symm⟩
  · rintro ⟨a, rfl⟩
    exact ⟨a, hall a, beq_self_eq_true _⟩

/-- A text is in brackets where an opening one is its first character and a closing one its last. -/
theorem isBracketed_iff (text : String) : CharacterClass.isBracketed text ↔ ∃ inner, text = "[" ++ inner ++ "]" := by
  rw [CharacterClass.isBracketed, Bool.and_eq_true, beq_iff_eq, beq_iff_eq]
  constructor
  · rintro ⟨hfirst, hlast⟩
    obtain ⟨rest, hrest⟩ := List.head?_eq_some_iff.1 hfirst
    rcases List.eq_nil_or_concat rest with rfl | ⟨inner, c, rfl⟩
    · rw [hrest] at hlast
      cases hlast
    · rw [hrest, List.concat_eq_append, ← List.cons_append, List.getLast?_append] at hlast
      obtain rfl : c = ']' := Option.some.inj hlast
      exact ⟨String.ofList inner, String.toList_inj.1 (by simp [hrest])⟩
  · rintro ⟨inner, rfl⟩
    rw [String.toList_append, List.getLast?_append]
    exact ⟨by simp, by simp⟩

/-- A leaf admits the texts that stand for a token. -/
theorem admits_iff (kind : LeafKind) (text : String) : kind.Admits text ↔ (kind.tokenOf? text).isSome := by
  cases kind with
  | literal => exact ⟨fun _ => rfl, fun _ => trivial⟩
  | anchor =>
    have hall : ∀ a, a ∈ Anchor.all := by
      intro a
      cases a <;> decide
    have hn : (Anchor.ofName? text).isSome ↔ _ := isSome_find? hall Anchor.name text
    have ht : (Anchor.ofToken? text).isSome ↔ _ := isSome_find? hall Anchor.token text
    rw [LeafKind.Admits, LeafKind.tokenOf?, Anchor.tokenOf?, exists_or, ← hn, ← ht]
    cases (Anchor.ofToken? text).isSome <;> simp
  | characterClass =>
    have hall : ∀ c, c ∈ CharacterClass.all := by
      intro c
      cases c <;> decide
    have hn : (CharacterClass.ofName? text).isSome ↔ _ := isSome_find? hall CharacterClass.name text
    have ht : (CharacterClass.ofToken? text).isSome ↔ _ := isSome_find? hall CharacterClass.token text
    rw [LeafKind.Admits, LeafKind.tokenOf?, CharacterClass.tokenOf?, exists_or, ← hn, ← ht, ← isBracketed_iff]
    cases (CharacterClass.ofToken? text).isSome <;> cases CharacterClass.isBracketed text <;> simp

/-- A checked leaf is the leaf of an admitted value. -/
theorem checkedLeaf_eq_ok {notes : Notes} {kind : LeafKind} {value : Value} {p : Pattern} :
    checkedLeaf notes kind value = .ok p ↔ p = leaf notes kind value ∧ kind.Admits value.resolve := by
  rw [admits_iff]
  constructor
  · intro h
    obtain ⟨rfl, hr⟩ := resolved_of_checkedLeaf h
    exact ⟨rfl, hr⟩
  · rintro ⟨rfl, hr⟩
    exact checkedLeaf_of_isSome notes hr

/-- A leaf takes each value that it admits, and nothing else of it changes. No other node takes a value. -/
theorem withValue_eq_ok {value : Value} {p q : Pattern} :
    p.withValue value = .ok q ↔
      ∃ notes kind old, p = leaf notes kind old ∧ q = leaf notes kind value ∧ kind.Admits value.resolve := by
  cases p with
  | leaf notes kind old =>
    rw [withValue, checkedLeaf_eq_ok]
    constructor
    · rintro ⟨hq, ha⟩
      exact ⟨notes, kind, old, rfl, hq, ha⟩
    · rintro ⟨notes, kind, old, hp, hq, ha⟩
      cases hp
      exact ⟨hq, ha⟩
  | group notes properties children =>
    constructor
    · intro h
      cases h
    · rintro ⟨notes, kind, old, hp, -⟩
      cases hp

/-- A leaf is made of each value that it admits. -/
theorem ofValue_eq_ok {type : NodeType} {value : Value} {p : Pattern} :
    ofValue type value = .ok p ↔ ∃ kind, type.leafKind? = some kind ∧ p = leaf {} kind value ∧ kind.Admits value.resolve := by
  unfold ofValue
  cases type.leafKind? with
  | none => exact ⟨nofun, nofun⟩
  | some kind =>
    simp only [checkedLeaf_eq_ok, Option.some.injEq]
    constructor
    · intro h
      exact ⟨kind, rfl, h⟩
    · rintro ⟨kind, rfl, h⟩
      exact h

/-! ## Kinds of nodes -/

/-- The children of trees that agree agree. -/
theorem agrees_getElem? {ids : Option String → Option String → Prop} : (ps qs : List Pattern) → AgreesAll ids ps qs → (i : Nat) →
    (ps[i]? = none ∧ qs[i]? = none) ∨ ∃ p q, ps[i]? = some p ∧ qs[i]? = some q ∧ p.Agrees ids q
  | [], qs, h, i => by
    cases qs with
    | nil => exact Or.inl ⟨rfl, rfl⟩
    | cons q qs => exact h.elim
  | p :: ps, qs, h, i => by
    cases qs with
    | nil => exact h.elim
    | cons q qs =>
      cases i with
      | zero => exact Or.inr ⟨p, q, rfl, rfl, h.1⟩
      | succ i =>
        rw [List.getElem?_cons_succ, List.getElem?_cons_succ]
        exact agrees_getElem? ps qs h.2 i

/-- Trees that agree have nodes of the same kinds in the same places. -/
theorem sameTypes_of_agrees {ids : Option String → Option String → Prop} {p q : Pattern} (h : p.Agrees ids q) :
    p.SameTypes q := by
  intro path
  induction path generalizing p q with
  | nil =>
    cases p with
    | leaf m kind v =>
      cases q with
      | leaf n kind' w => rw [at?, at?, Option.map_some, Option.map_some, type, type, h.2.2.1]
      | group n properties children => exact h.elim
    | group m properties children =>
      cases q with
      | leaf n kind' w => exact h.elim
      | group n properties children => rfl
  | cons i path ih =>
    cases p with
    | leaf m kind v =>
      cases q with
      | leaf n kind' w => rfl
      | group n properties children => exact h.elim
    | group m properties ps =>
      cases q with
      | leaf n kind' w => exact h.elim
      | group n properties qs =>
        simp only [at?, children]
        rcases agrees_getElem? ps qs h.2.2.2 i with ⟨hp, hq⟩ | ⟨p, q, hp, hq, ha⟩
        · rw [hp, hq]
        · rw [hp, hq]
          exact ih ha

/-- A node with other notes has the same kind, and so do the nodes below it. -/
theorem sameTypes_withNotes (notes : Notes) (p : Pattern) : p.SameTypes (p.withNotes notes) := by
  intro path
  cases path with
  | nil => cases p <;> rfl
  | cons i path => cases p <;> rfl

/-- A leaf with another value has the same kind. -/
theorem sameTypes_withValue {value : Value} {p q : Pattern} (h : p.withValue value = .ok q) : p.SameTypes q := by
  obtain ⟨notes, kind, old, rfl, rfl, -⟩ := withValue_eq_ok.1 h
  intro path
  cases path <;> rfl

/-- An edit of the root that changes no kind. -/
theorem editedAt_root {held : List Pattern} {p q : Pattern} (h : p.SameTypes q) : EditedAt held [] p q := by
  refine ⟨?_, p, q, rfl, rfl, Option.some.inj (h []), Or.inl h⟩
  intro path hp
  exact absurd List.nil_prefix hp

/-- An edit of a child is an edit of the node around it, one level deeper. -/
theorem editedAt_child {held children : List Pattern} {place : List Nat} {i : Nat} {c d : Pattern} (notes : Notes)
    (properties : Properties) (hc : children[i]? = some c) (h : EditedAt held place c d) :
    EditedAt held (i :: place) (group notes properties children) (group notes properties (children.set i d)) := by
  obtain ⟨helse, m, n, hm, hn, hedit⟩ := h
  have hi : i < children.length := (List.getElem?_eq_some_iff.1 hc).1
  have hd : (children.set i d)[i]? = some d := List.getElem?_set_self hi
  refine ⟨?_, m, n, ?_, ?_, hedit⟩
  · intro path hp
    cases path with
    | nil => rfl
    | cons j path =>
      simp only [at?, Pattern.children]
      -- A path through another child meets what was there before.
      by_cases hj : i = j
      · subst hj
        rw [hc, hd]
        exact helse path fun hpath => hp ((List.prefix_cons_inj i).2 hpath)
      · rw [List.getElem?_set_ne hj]
  · rw [at?, Pattern.children, hc]
    exact hm
  · rw [at?, Pattern.children, hd]
    exact hn

/-- An edit takes place at one node. -/
theorem exists_editedAt {held : List Pattern} {p q : Pattern} (h : Edit held p q) : ∃ place, EditedAt held place p q := by
  induction h with
  | withId id p => exact ⟨[], editedAt_root (sameTypes_withNotes _ p)⟩
  | withMessage message p => exact ⟨[], editedAt_root (sameTypes_withNotes _ p)⟩
  | withQuantifier quantifier p => exact ⟨[], editedAt_root (sameTypes_withNotes _ p)⟩
  | withValue hq => exact ⟨[], editedAt_root (sameTypes_withValue hq)⟩
  | @withChildren children p q hc hq =>
    cases p with
    | leaf notes kind value => cases hq
    | group notes properties old =>
      cases hq
      exact ⟨[], fun path hp => absurd List.nil_prefix hp, _, _, rfl, rfl, rfl, Or.inr ⟨rfl, rfl, hc⟩⟩
  | assignIds ids s p => exact ⟨[], editedAt_root (sameTypes_of_agrees (StatedAux.agrees_assignIds ids p s))⟩
  | child notes properties hc _ ih =>
    obtain ⟨place, hp⟩ := ih
    exact ⟨_, editedAt_child notes properties hc hp⟩

/-! ## Steps -/

/-- The nodes of a resolved tree are resolved. -/
theorem resolved_at? {path : List Nat} {p node : Pattern} (h : p.Resolved) (hn : p.at? path = some node) : node.Resolved := by
  induction path generalizing p with
  | nil =>
    cases hn
    exact h
  | cons i path ih =>
    obtain ⟨c, hc, hbelow⟩ := Option.bind_eq_some_iff.1 (show p.children[i]?.bind (at? path) = some node from hn)
    cases p with
    | leaf notes kind value => cases hc
    | group notes properties children => exact ih ((resolvedAll_iff children).1 h c (List.mem_of_getElem? hc)) hbelow

/-- An edit leaves a tree resolved that was, where the trees at hand are. -/
theorem resolved_of_edit {held : List Pattern} {p q : Pattern} (hh : ∀ c ∈ held, c.Resolved) (h : Edit held p q)
    (hp : p.Resolved) : q.Resolved := by
  induction h with
  | withId id p => exact (resolved_withNotes _ p).2 hp
  | withMessage message p => exact (resolved_withNotes _ p).2 hp
  | withQuantifier quantifier p => exact (resolved_withNotes _ p).2 hp
  | withValue hq =>
    obtain ⟨notes, kind, old, -, rfl, ha⟩ := withValue_eq_ok.1 hq
    exact (admits_iff _ _).1 ha
  | @withChildren children p q hc hq =>
    cases p with
    | leaf notes kind value => cases hq
    | group notes properties old =>
      cases hq
      rw [Resolved, resolvedAll_iff]
      intro c hmem
      rcases hc c hmem with hold | hheld
      · exact (resolvedAll_iff old).1 hp c hold
      · exact hh c hheld
  | assignIds ids s p => exact StatedAux.resolved_assignIds ids hp s
  | @child notes properties children i c d hc _ ih =>
    have hold := (resolvedAll_iff children).1 hp
    rw [Resolved, resolvedAll_iff]
    intro e he
    rcases List.mem_or_eq_of_mem_set he with hmem | rfl
    · exact hold e hmem
    · exact ih (hold c (List.mem_of_getElem? hc))

/-- What is made is resolved where each outcome is. -/
theorem resolved_made {ε : Type} {outcome : Except ε Pattern} (h : ∀ p, outcome = .ok p → p.Resolved) :
    ∀ p ∈ made outcome, p.Resolved := by
  cases outcome with
  | error e => exact List.forall_mem_nil _
  | ok p => exact List.forall_mem_singleton.2 (h p rfl)

/-- What is made of lists is resolved where each outcome is. -/
theorem resolved_madeAll {ε : Type} {outcome : Except ε (List Pattern)} (h : ∀ ps, outcome = .ok ps → ∀ p ∈ ps, p.Resolved) :
    ∀ p ∈ madeAll outcome, p.Resolved := by
  cases outcome with
  | error e => exact List.forall_mem_nil _
  | ok ps => exact h ps rfl

/-- A leaf that is made of a value is resolved. -/
theorem resolved_ofValue {type : NodeType} {value : Value} {p : Pattern} (h : ofValue type value = .ok p) : p.Resolved := by
  obtain ⟨kind, -, rfl, ha⟩ := ofValue_eq_ok.1 h
  exact (admits_iff _ _).1 ha

/-- A step keeps all that is held resolved. -/
theorem resolved_of_step {held held' : List Pattern} (h : Step held held') (hh : ∀ p ∈ held, p.Resolved) :
    ∀ p ∈ held', p.Resolved := by
  cases h with
  | literal text => exact List.forall_mem_cons.2 ⟨rfl, hh⟩
  | anchor text => exact List.forall_mem_append.2 ⟨resolved_made fun _ => resolved_ofValue, hh⟩
  | characterClass text => exact List.forall_mem_append.2 ⟨resolved_made fun _ => resolved_ofValue, hh⟩
  | ofValue type value => exact List.forall_mem_append.2 ⟨resolved_made fun _ => resolved_ofValue, hh⟩
  | grouping properties hc =>
    have hchildren := (resolvedAll_iff _).2 fun c hmem => hh c (hc c hmem)
    exact List.forall_mem_cons.2 ⟨hchildren, hh⟩
  | take hp hn => exact List.forall_mem_cons.2 ⟨resolved_at? (hh _ hp) hn, hh⟩
  | drop before after p =>
    rw [List.forall_mem_append, List.forall_mem_cons] at hh
    exact List.forall_mem_append.2 ⟨hh.1, hh.2.2⟩
  | @edit before after p q he =>
    rw [List.forall_mem_append, List.forall_mem_cons] at hh
    have hothers := List.forall_mem_append.2 ⟨hh.1, hh.2.2⟩
    exact List.forall_mem_append.2 ⟨hh.1, List.forall_mem_cons.2 ⟨resolved_of_edit hothers he hh.2.1, hh.2.2⟩⟩
  | withValue value before after p =>
    rw [List.forall_mem_append, List.forall_mem_cons] at hh
    rw [List.forall_mem_append, List.forall_mem_append]
    refine ⟨⟨hh.1, resolved_made fun q hq => ?_⟩, hh.2.2⟩
    obtain ⟨notes, kind, old, -, rfl, ha⟩ := withValue_eq_ok.1 hq
    exact (admits_iff _ _).1 ha
  | decodeAs ids format text s => exact List.forall_mem_append.2 ⟨resolved_made fun _ => StatedAux.resolved_of_decodeAs, hh⟩
  | decode ids text s =>
    refine List.forall_mem_append.2 ⟨resolved_made fun p hp => ?_, hh⟩
    obtain ⟨format, -, hp⟩ := StatedAux.decodeAs_of_decode hp
    exact StatedAux.resolved_of_decodeAs hp
  | decodeListAs ids format text s =>
    exact List.forall_mem_append.2 ⟨resolved_madeAll fun _ => StatedAux.resolved_of_decodeListAs, hh⟩
  | decodeList ids text s =>
    refine List.forall_mem_append.2 ⟨resolved_madeAll fun ps hps => ?_, hh⟩
    obtain ⟨format, -, hps⟩ := StatedAux.decodeListAs_of_decodeList hps
    exact StatedAux.resolved_of_decodeListAs hps

/-- All that a program can come to hold is resolved. -/
theorem resolved_of_held {held : List Pattern} (h : Held held) : ∀ p ∈ held, p.Resolved := by
  induction h with
  | nothing => exact List.forall_mem_nil _
  | step _ hs ih => exact resolved_of_step hs ih

/-- A failure of a tree has nothing to do with an input. -/
theorem not_ofInput_of_ofTree {limit levels : Nat} {cause : Cause} (h : cause.OfTree limit levels) : ¬cause.OfInput := by
  cases h with
  | depthExceeded | emptyGroup | missingGroupName | invalidRange => exact id

end HeldAux

open Pattern HeldAux

/-- Whatever a program does, each leaf of what it holds has a value that its kind admits, and whether one tree or a list of them
is compiled, under any limit, no failure is one of an input. An edit takes place at one node and no node changes its kind. A
leaf takes a value exactly where its kind admits it, and then nothing but the value changes; a new leaf is made of a value
exactly where its kind admits it. -/
theorem held_trees_admit_values {held : List Pattern} (h : Held held) :
    (∀ p ∈ held, ∀ path notes kind value, p.at? path = some (.leaf notes kind value) → kind.Admits value.resolve) ∧
      (∀ limit e, (∀ p ∈ held, p.compile limit = .error e → ¬e.cause.OfInput) ∧
        ∀ ps, (∀ p ∈ ps, p ∈ held) → compileAll limit ps = .error e → ¬e.cause.OfInput) ∧
      (∀ others p q, Edit others p q → ∃ place, EditedAt others place p q) ∧
      (∀ (p : Pattern) value q, p.withValue value = .ok q ↔
        ∃ notes kind old, p = .leaf notes kind old ∧ q = .leaf notes kind value ∧ kind.Admits value.resolve) ∧
      ∀ type value q, ofValue type value = .ok q ↔
        ∃ kind, type.leafKind? = some kind ∧ q = .leaf {} kind value ∧ kind.Admits value.resolve := by
  have hr := resolved_of_held h
  refine ⟨?_, ?_, ?_, ?_, ?_⟩
  · intro p hp path notes kind value hn
    exact (admits_iff kind value.resolve).2 (resolved_at? (hr p hp) hn)
  · intro limit e
    constructor
    · intro p hp he
      exact not_ofInput_of_ofTree (compile_error (hr p hp) he)
    · intro ps hps he
      have hrs : ∀ p ∈ ps, p.Resolved := fun p hp => hr p (hps p hp)
      exact not_ofInput_of_ofTree (compileAll_error hrs he)
  · intro others p q he
    exact exists_editedAt he
  · intro p value q
    exact withValue_eq_ok
  · intro type value q
    exact ofValue_eq_ok

/-- A run in which a class is refused and so is the value of an anchor, which is lost with it, while another anchor takes its
value inside a group. What is held then fails to compile for its depth alone. -/
theorem held_trees_admit_values_after_run :
    let anchor : Pattern := .leaf {} .anchor (.nested (.literal "$"))
    let tree : Pattern := .group {} .capturing [anchor]
    Held [tree] ∧ tree.at? [0] = some anchor ∧ LeafKind.anchor.Admits "$" ∧
      tree.compile 1 = .error ((Cause.depthExceeded 1).at { path := [0], type := some .anchor }) ∧
      ¬(Cause.depthExceeded 1).OfInput := by
  intro anchor tree
  let start : Pattern := .leaf {} .anchor (.literal "StartOfLine")
  have hstart : Held [start] := by
    have hs := Step.anchor "StartOfLine" []
    rw [show made (Pattern.anchor "StartOfLine") = [start] by decide] at hs
    exact Held.nothing.step hs
  have hrefused : Held [start] := by
    have hs := Step.characterClass "[" [start]
    rw [show made (Pattern.characterClass "[") = [] by decide] at hs
    exact hstart.step hs
  have hgroup : Held [.group {} .capturing [start], start] := hrefused.step (Step.grouping .capturing fun c hc => hc)
  have hedited : Held [tree, start] := by
    have hvalue : start.withValue (.nested (.literal "$")) = .ok anchor :=
      withValue_eq_ok.2 ⟨_, _, _, rfl, rfl, .endOfLine, Or.inr rfl⟩
    have he : Edit ([] ++ [start]) (.group {} .capturing [start]) tree :=
      Edit.child {} .capturing (show [start][0]? = some start from rfl) (Edit.withValue hvalue)
    exact hgroup.step (Step.edit he)
  have hlost : Held [tree] := by
    have hs := Step.withValue (.literal "x") [tree] [] start
    rw [show made (start.withValue (.literal "x")) = [] by decide] at hs
    exact hedited.step hs
  obtain ⟨hadmits, hcompile, -⟩ := held_trees_admit_values hlost
  have hfails : tree.compile 1 = .error ((Cause.depthExceeded 1).at { path := [0], type := some .anchor }) := rfl
  exact ⟨hlost, rfl, hadmits tree List.mem_cons_self [0] _ _ _ rfl, hfails,
    (hcompile 1 _).1 tree List.mem_cons_self hfails⟩

end RegexTree
