import RegexTree.Draft

/-!
# What keeps a draft from being a pattern

`Draft.offence?` is what is wrong with one node of a draft. `Draft.toPattern` accepts a draft when no node it reaches offends,
and otherwise fails with the first offence it meets on its way (`toPattern_reports_first_offence`). A node without an identifier
draws one when its children are done, so a failure leaves the nodes above it without.
-/

namespace RegexTree

/-- The text inside all objects, none being the empty text. A number is no text, nor is a flag. -/
def DraftValue.innermost : DraftValue → Except Malformation String
  | null => .ok ""
  | text value => .ok value
  | number value => .error (.numberAsValue value)
  | flag value => .error (.flagAsValue value)
  | object inner => inner.innermost

/-- Why a text has no meaning in a leaf. A literal may be any text. -/
def NodeType.unresolved? (type : NodeType) (text : String) : Option Cause :=
  match type with
  | anchor => if (Anchor.tokenOf? text).isNone then some (.invalidAnchor text) else none
  | characterClass => if (CharacterClass.tokenOf? text).isNone then some (.invalidCharacterClass text) else none
  | literal | group => none

/-- What is wrong with a node, and its kind as far as it is known by then. -/
structure Offence where
  cause : Cause
  type : Option NodeType
  deriving DecidableEq

namespace Draft

/-- What is wrong with the value of a leaf. -/
def valueCause? (type : NodeType) (d : Draft) : Option Cause :=
  match d.value.innermost with
  | .error why => some (.malformed why)
  | .ok text => type.unresolved? text

/-- What is wrong with a node, whatever is wrong with its children. -/
def offence? (d : Draft) : Option Offence :=
  match d.type with
  | none => some ⟨.malformed .missingType, none⟩
  | some name =>
    match NodeType.ofName? name with
    | none => some ⟨.invalidType name, none⟩
    | some .group => if d.properties.isNone then some ⟨.malformed .missingProperties, some .group⟩ else none
    | some type => (d.valueCause? type).map (⟨·, some type⟩)

/-- The children of a node. A leaf has none, whatever it states, nor does a group without properties. -/
def items (d : Draft) : List Draft :=
  if d.type = some NodeType.group.name ∧ d.properties.isSome then d.patterns.getD [] else []

/-- The node that a path of child indices reaches. -/
def reached? : List Nat → Draft → Option Draft
  | [], d => some d
  | i :: path, d => d.items[i]?.bind (reached? path)

/-- A node and the path to it. -/
structure Visit where
  path : List Nat
  node : Draft

mutual
/-- The nodes of a draft that stands at `path`, each before its children. -/
def visits (path : List Nat) : Draft → List Visit
  | d@⟨_, type, _, _, _, properties, patterns⟩ =>
    ⟨path, d⟩ :: if type = some NodeType.group.name ∧ properties.isSome then visitsOf path patterns else []

/-- The nodes of the children that a group states. -/
def visitsOf (path : List Nat) : Option (List Draft) → List Visit
  | none => []
  | some ds => visitsFrom path 0 ds

/-- The nodes of the drafts that stand below `path`, the first of them as child number `index`. -/
def visitsFrom (path : List Nat) (index : Nat) : List Draft → List Visit
  | [] => []
  | d :: ds => visits (path ++ [index]) d ++ visitsFrom path (index + 1) ds
end

/-- The number of nodes that lack an identifier. -/
def lacking (vs : List Visit) : Nat := vs.countP (·.node.id.isNone)

/-- The nodes apart from those on the way to `path`. -/
def besides (path : List Nat) (vs : List Visit) : List Visit := vs.filter (fun v => ¬v.path <+: path)

end Draft

namespace OffenceAux

open Draft

variable {σ : Type}

/-! ## The nodes of a draft -/

/-- The nodes of a draft are its root and the nodes of its children. -/
theorem visits_eq (path : List Nat) (d : Draft) : d.visits path = ⟨path, d⟩ :: visitsFrom path 0 d.items := by
  obtain ⟨id, type, value, quantifier, message, properties, patterns⟩ := d
  rw [visits, items]
  by_cases hg : type = some NodeType.group.name ∧ properties.isSome
  · rw [if_pos hg, if_pos hg]
    cases patterns <;> rfl
  · rw [if_neg hg, if_neg hg]
    rfl

/-- A child is smaller than the draft it belongs to. -/
theorem sizeOf_lt_of_mem_items {d e : Draft} (h : e ∈ d.items) : sizeOf e < sizeOf d := by
  obtain ⟨id, type, value, quantifier, message, properties, patterns⟩ := d
  rw [items] at h
  split at h
  · cases patterns with
    | none => cases h
    | some ds =>
      have := List.sizeOf_lt_of_mem h
      simp only [mk.sizeOf_spec, Option.some.sizeOf_spec, Option.getD_some] at this ⊢
      omega
  · cases h

/-- What holds of a draft when it holds of its children, holds of every draft. -/
theorem items_induction {P : Draft → Prop} (step : ∀ d : Draft, (∀ e ∈ d.items, P e) → P d) (d : Draft) : P d :=
  step d fun e _ => items_induction step e
termination_by sizeOf d
decreasing_by exact sizeOf_lt_of_mem_items ‹_›

/-- A node of one of some siblings stands below the index of that sibling. -/
theorem mem_visitsFrom (path : List Nat) (v : Visit) : (ds : List Draft) → (index : Nat) →
    (∀ d ∈ ds, ∀ path, v ∈ d.visits path ↔ ∃ is, v.path = path ++ is ∧ d.reached? is = some v.node) →
      (v ∈ visitsFrom path index ds ↔
        ∃ i is, v.path = path ++ (index + i) :: is ∧ ds[i]?.bind (reached? is) = some v.node)
  | [], index, _ => by simp [visitsFrom]
  | d :: ds, index, h => by
    have hd := h d List.mem_cons_self (path ++ [index])
    have hds := mem_visitsFrom path v ds (index + 1) fun e he => h e (List.mem_cons_of_mem d he)
    rw [visitsFrom, List.mem_append, hd, hds]
    constructor
    · rintro (⟨is, hp, hr⟩ | ⟨i, is, hp, hr⟩)
      · exact ⟨0, is, by rw [hp, List.append_assoc]; rfl, hr⟩
      · exact ⟨i + 1, is, by rw [hp, Nat.add_assoc, Nat.add_comm 1], hr⟩
    · rintro ⟨i, is, hp, hr⟩
      cases i with
      | zero => exact Or.inl ⟨is, by rw [hp, List.append_assoc]; rfl, hr⟩
      | succ i => exact Or.inr ⟨i, is, by rw [hp, Nat.add_assoc, Nat.add_comm 1], hr⟩

/-- The nodes of a draft are those that paths reach, each at the path that reaches it. -/
theorem mem_visits (v : Visit) (d : Draft) :
    ∀ path, v ∈ d.visits path ↔ ∃ is, v.path = path ++ is ∧ d.reached? is = some v.node := by
  induction d using items_induction with
  | step d ih =>
    intro path
    rw [visits_eq, List.mem_cons, mem_visitsFrom path v d.items 0 ih]
    constructor
    · rintro (rfl | ⟨i, is, hp, hr⟩)
      · exact ⟨[], (List.append_nil path).symm, rfl⟩
      · exact ⟨i :: is, by rw [hp, Nat.zero_add], hr⟩
    · rintro ⟨is, hp, hr⟩
      cases is with
      | nil =>
        obtain ⟨found, node⟩ := v
        rw [List.append_nil] at hp
        obtain rfl : found = path := hp
        obtain rfl : d = node := Option.some.inj hr
        exact Or.inl rfl
      | cons i is => exact Or.inr ⟨i, is, by rw [hp, Nat.zero_add], hr⟩

/-- No node of a sibling is above a node of a later one. -/
theorem not_above_of_lt {path : List Nat} {i : Nat} {d : Draft} {ds : List Draft} {u v : Visit}
    (hu : u ∈ d.visits (path ++ [i])) (hv : v ∈ visitsFrom path (i + 1) ds) : ¬u.path <+: v.path := by
  obtain ⟨is, hu, -⟩ := (mem_visits u d _).1 hu
  obtain ⟨j, js, hv, -⟩ := (mem_visitsFrom path v ds _ fun e _ => mem_visits v e).1 hv
  rw [hu, hv, List.append_assoc, List.prefix_append_right_inj, List.singleton_append, List.cons_prefix_cons]
  omega

/-! ## One node -/

/-- The value inside the objects of a value has the text inside all of them. -/
theorem toValue_cases (d : DraftValue) :
    (∃ value, d.innermost = .ok value.resolve ∧ d.toValue = .ok value) ∨
      ∃ why, d.innermost = .error why ∧ d.toValue = .error (.malformed why) := by
  induction d with
  | null => exact Or.inl ⟨.literal "", rfl, rfl⟩
  | text value => exact Or.inl ⟨.literal value, rfl, rfl⟩
  | number value => exact Or.inr ⟨.numberAsValue value, rfl, rfl⟩
  | flag value => exact Or.inr ⟨.flagAsValue value, rfl, rfl⟩
  | object inner ih =>
    rcases ih with ⟨value, hi, hv⟩ | ⟨why, hi, hv⟩
    · exact Or.inl ⟨.nested value, hi, by rw [DraftValue.toValue, hv]; rfl⟩
    · exact Or.inr ⟨why, hi, by rw [DraftValue.toValue, hv]; rfl⟩

/-- The same for the value of a node. -/
theorem toNodeValue_cases (d : DraftValue) :
    (∃ value, d.innermost = .ok value.resolve ∧ d.toNodeValue = .ok value) ∨
      ∃ why, d.innermost = .error why ∧ d.toNodeValue = .error (.malformed why) := by
  cases d with
  | object inner => exact toValue_cases inner
  | _ => exact toValue_cases _

/-- A text without a meaning stands for no token. -/
theorem token_cases (kind : LeafKind) (text : String) :
    (kind.toNodeType.unresolved? text = none ∧ ∃ token, kind.token text = .ok token) ∨
      ∃ cause, kind.toNodeType.unresolved? text = some cause ∧ kind.token text = .error cause := by
  cases kind with
  | literal => exact Or.inl ⟨rfl, text, rfl⟩
  | anchor =>
    simp only [LeafKind.toNodeType, NodeType.unresolved?, LeafKind.token]
    cases Anchor.tokenOf? text with
    | none => exact Or.inr ⟨_, rfl, rfl⟩
    | some token => exact Or.inl ⟨rfl, token, rfl⟩
  | characterClass =>
    simp only [LeafKind.toNodeType, NodeType.unresolved?, LeafKind.token]
    cases CharacterClass.tokenOf? text with
    | none => exact Or.inr ⟨_, rfl, rfl⟩
    | some token => exact Or.inl ⟨rfl, token, rfl⟩

/-- A leaf has a value unless something is wrong with it. -/
theorem leafValue_cases (kind : LeafKind) (d : Draft) :
    (d.valueCause? kind.toNodeType = none ∧ ∃ value, d.leafValue kind = .ok value) ∨
      ∃ cause, d.valueCause? kind.toNodeType = some cause ∧ d.leafValue kind = .error cause := by
  simp only [valueCause?, leafValue]
  rcases toNodeValue_cases d.value with ⟨value, hi, hv⟩ | ⟨why, hi, hv⟩
  · rw [hi, hv]
    rcases token_cases kind value.resolve with ⟨hu, token, ht⟩ | ⟨cause, hu, ht⟩
    · exact Or.inl ⟨hu, value, by simp only [bind, Except.bind, ht]; rfl⟩
    · exact Or.inr ⟨cause, hu, by simp only [bind, Except.bind, ht]⟩
  · rw [hi, hv]
    exact Or.inr ⟨_, rfl, rfl⟩

/-- The failure of an offence that a visit meets. -/
def failure (v : Visit) (o : Offence) : Error :=
  { cause := o.cause, location := some { path := v.path, type := o.type, id := v.node.id } }

/-- A kind of node is found by its name alone. -/
theorem ofName?_eq_some {name : String} {type : NodeType} (h : NodeType.ofName? name = some type) : name = type.name :=
  (eq_of_beq (List.find?_some (p := fun t : NodeType => t.name == name) h)).symm

/-- The kind of leaf that a kind of node is has that kind of node. -/
theorem toNodeType_of_leafKind? {type : NodeType} {kind : LeafKind} (h : type.leafKind? = some kind) :
    type = kind.toNodeType := by
  cases type <;> cases h <;> rfl

/-- A leaf has no children. -/
theorem items_of_leaf {d : Draft} {kind : LeafKind} (ht : d.type = some kind.toNodeType.name) : d.items = [] := by
  refine if_neg fun hg => ?_
  have hn : kind.toNodeType.name = NodeType.group.name := Option.some.inj (ht.symm.trans hg.1)
  cases kind <;> exact absurd hn (by decide)

/-- A leaf offends by its value. -/
theorem offence?_of_leaf {d : Draft} {kind : LeafKind} (ht : d.type = some kind.toNodeType.name) :
    d.offence? = (d.valueCause? kind.toNodeType).map (⟨·, some kind.toNodeType⟩) := by
  rw [offence?, ht]
  cases kind <;> rfl

/-- A node that offends is refused before its children are looked at. Any other is what is built of its children, and its
identifier comes after theirs. -/
theorem toPattern_eq (ids : IdSource σ) (path : List Nat) (d : Draft) (s : σ) :
    ∃ build : List Pattern → σ → Pattern,
      d.toPattern ids path s =
        match d.offence? with
        | some o => (.error (failure ⟨path, d⟩ o), s)
        | none =>
          match toPatternsFrom ids path 0 d.items s with
          | (.error e, s) => (.error e, s)
          | (.ok children, s) => (.ok (build children s), (ids.fill d.id s).2) := by
  obtain ⟨id, type, value, quantifier, message, properties, patterns⟩ := d
  cases type with
  | none => exact ⟨fun _ _ => .literal "", rfl⟩
  | some name =>
    cases hn : NodeType.ofName? name with
    | none => exact ⟨fun _ _ => .literal "", by simp only [toPattern, offence?, hn, failure, Cause.at]⟩
    | some type =>
      obtain rfl := ofName?_eq_some hn
      cases hk : type.leafKind? with
      | some kind =>
        obtain rfl := toNodeType_of_leafKind? hk
        rw [offence?_of_leaf rfl, items_of_leaf rfl, toPatternsFrom]
        rcases leafValue_cases kind ⟨id, some kind.toNodeType.name, value, quantifier, message, properties, patterns⟩ with
          ⟨hc, leaf, hl⟩ | ⟨cause, hc, hl⟩
        · rw [hc]
          simp only [toPattern, hn, hk, hl]
          exact ⟨fun _ s => .leaf { id := some (ids.fill id s).1, message, quantifier } kind leaf, rfl⟩
        · rw [hc]
          simp only [toPattern, hn, hk, hl]
          exact ⟨fun _ _ => .literal "", rfl⟩
      | none =>
        obtain rfl : type = .group := by cases type <;> first | rfl | cases hk
        cases properties with
        | none => exact ⟨fun _ _ => .literal "", rfl⟩
        | some properties =>
          have hc : toChildren ids path patterns s = toPatternsFrom ids path 0
              (items ⟨id, some NodeType.group.name, value, quantifier, message, some properties, patterns⟩) s := by
            cases patterns <;> rfl
          simp only [toPattern, offence?, hn, hk, hc]
          exact ⟨fun children s => .group { id := some (ids.fill id s).1, message, quantifier } properties children, rfl⟩

/-! ## The walk -/

/-- The state after some identifiers and some more. -/
theorem take_add (ids : IdSource σ) (m n : Nat) (s : σ) : (ids.take (m + n) s).2 = (ids.take n (ids.take m s).2).2 := by
  induction m generalizing s with
  | zero => rw [Nat.zero_add]; rfl
  | succ m ih => rw [Nat.succ_add]; exact ih (ids.next s).2

/-- The state after a node has its identifier. -/
theorem fill_eq_take (ids : IdSource σ) (path : List Nat) (d : Draft) (s : σ) :
    (ids.fill d.id s).2 = (ids.take (lacking [⟨path, d⟩]) s).2 := by
  simp only [lacking, List.countP_singleton]
  cases d.id <;> rfl

/-- An outcome agrees with the nodes of a walk: none of them offends and each that lacks an identifier has drawn one, or the
first that offends is reported and only the nodes before it have, those above it apart. -/
inductive Outcome {α : Type} (ids : IdSource σ) (s : σ) (vs : List Visit) : Except Error α × σ → Prop where
  | accepted (a : α) : (∀ v ∈ vs, v.node.offence? = none) → Outcome ids s vs (.ok a, (ids.take (lacking vs) s).2)
  | refused {before after : List Visit} {v : Visit} {o : Offence} :
      vs = before ++ v :: after → (∀ u ∈ before, u.node.offence? = none) → v.node.offence? = some o →
        Outcome ids s vs (.error (failure v o), (ids.take (lacking (besides v.path before)) s).2)

/-- A walk that goes on after nodes that do not offend, none of them above what follows. -/
theorem Outcome.after {α : Type} {ids : IdSource σ} {s : σ} {vs ws : List Visit} {r : Except Error α × σ}
    (hv : ∀ v ∈ vs, v.node.offence? = none) (hn : ∀ v ∈ vs, ∀ w ∈ ws, ¬v.path <+: w.path)
    (h : Outcome ids (ids.take (lacking vs) s).2 ws r) : Outcome ids s (vs ++ ws) r := by
  cases h with
  | accepted a hw =>
    rw [← take_add, lacking, lacking, ← List.countP_append]
    refine Outcome.accepted a fun v hm => ?_
    rcases List.mem_append.1 hm with hm | hm
    · exact hv v hm
    · exact hw v hm
  | @refused before after w o hw hb ho =>
    have hbs : besides w.path (vs ++ before) = vs ++ besides w.path before := by
      rw [besides, List.filter_append, List.filter_eq_self.2]
      · rfl
      · intro v hm
        exact decide_eq_true (hn v hm w (by simp [hw]))
    rw [← take_add, lacking, lacking, ← List.countP_append, ← hbs]
    refine Outcome.refused (by rw [hw, List.append_assoc]) (fun v hm => ?_) ho
    rcases List.mem_append.1 hm with hm | hm
    · exact hv v hm
    · exact hb v hm

/-- The walk of a list of siblings, from the walks of each of them. -/
theorem outcome_toPatternsFrom (ids : IdSource σ) (path : List Nat) : (ds : List Draft) → (index : Nat) → (s : σ) →
    (∀ d ∈ ds, ∀ path s, Outcome ids s (d.visits path) (d.toPattern ids path s)) →
      Outcome ids s (visitsFrom path index ds) (toPatternsFrom ids path index ds s)
  | [], _, _, _ => Outcome.accepted [] (by simp [visitsFrom])
  | d :: ds, index, s, h => by
    have hd := h d List.mem_cons_self (path ++ [index]) s
    rw [visitsFrom, toPatternsFrom]
    generalize d.toPattern ids (path ++ [index]) s = r at hd ⊢
    cases hd with
    | refused hv hb ho => exact Outcome.refused (by rw [hv, List.append_assoc]; rfl) hb ho
    | accepted p hp =>
      have hds := (outcome_toPatternsFrom ids path ds (index + 1) (ids.take (lacking (d.visits (path ++ [index]))) s).2
        fun e he => h e (List.mem_cons_of_mem d he)).after hp fun v hv w hw => not_above_of_lt hv hw
      simp only
      generalize toPatternsFrom ids path (index + 1) ds _ = r at hds ⊢
      cases hds with
      | accepted ps hps => exact Outcome.accepted (p :: ps) hps
      | refused hv hb ho => exact Outcome.refused hv hb ho

/-- The walk of a draft, from the walks of its children. -/
theorem outcome_toPattern (ids : IdSource σ) (d : Draft) :
    ∀ path s, Outcome ids s (d.visits path) (d.toPattern ids path s) := by
  induction d using items_induction with
  | step d ih =>
    intro path s
    obtain ⟨build, hb⟩ := toPattern_eq ids path d s
    rw [hb, visits_eq]
    cases ho : d.offence? with
    | some o =>
      exact Outcome.refused (show _ = [] ++ _ from rfl) (fun u hu => absurd hu List.not_mem_nil) ho
    | none =>
      have hi := outcome_toPatternsFrom ids path d.items 0 s ih
      simp only
      generalize hvs : visitsFrom path 0 d.items = vs, toPatternsFrom ids path 0 d.items s = r at hi ⊢
      cases hi with
      | accepted children hv =>
        simp only
        rw [fill_eq_take ids path, ← take_add, Nat.add_comm, lacking, lacking, ← List.countP_append]
        exact Outcome.accepted _ (List.forall_mem_cons.2 ⟨ho, hv⟩)
      | @refused before after v o hv hb hov =>
        obtain ⟨i, is, hp, -⟩ := (mem_visitsFrom path v d.items 0 fun e _ => mem_visits v e).1 (by rw [hvs, hv]; simp)
        -- The root is above the node that is refused, so it has drawn nothing.
        have hbs : besides v.path before = besides v.path (⟨path, d⟩ :: before) := by
          simp [besides, hp]
        rw [hbs]
        exact Outcome.refused (by rw [hv]; rfl) (List.forall_mem_cons.2 ⟨ho, hb⟩) hov

end OffenceAux

namespace Draft

variable {σ : Type}

/-- A draft is accepted when no node that a path reaches offends; then each node that lacks an identifier has drawn one.
Otherwise it fails with the first offence on the way through its nodes, each before its children. The location is that of the
offending node below the given path, with its kind as far as that is known and the identifier it states, if any. An identifier
has been drawn for each node before it that lacks one, except those above it. -/
theorem toPattern_reports_first_offence (ids : IdSource σ) (path : List Nat) (d : Draft) (s : σ) :
    ((∃ p, (d.toPattern ids path s).1 = .ok p) ↔ ∀ is node, d.reached? is = some node → node.offence? = none) ∧
      ((∃ p, d.toPattern ids path s = (.ok p, (ids.take (lacking (d.visits path)) s).2)) ∨
        ∃ before v after o, d.visits path = before ++ v :: after ∧ (∀ u ∈ before, u.node.offence? = none) ∧
          v.node.offence? = some o ∧ (∃ is, v.path = path ++ is ∧ d.reached? is = some v.node) ∧
          d.toPattern ids path s =
            (.error { cause := o.cause, location := some { path := v.path, type := o.type, id := v.node.id } },
              (ids.take (lacking (besides v.path before)) s).2)) := by
  have hw := OffenceAux.outcome_toPattern ids d path s
  have hm := fun v => OffenceAux.mem_visits v d path
  generalize d.toPattern ids path s = r at hw ⊢
  cases hw with
  | accepted p hv =>
    refine ⟨⟨fun _ is node hr => ?_, fun _ => ⟨p, rfl⟩⟩, Or.inl ⟨p, rfl⟩⟩
    exact hv ⟨path ++ is, node⟩ ((hm _).2 ⟨is, rfl, hr⟩)
  | @refused before after v o hv hb ho =>
    obtain ⟨is, hp, hr⟩ := (hm v).1 (by simp [hv])
    refine ⟨⟨fun h => ?_, fun h => ?_⟩, Or.inr ⟨before, v, after, o, hv, hb, ho, ⟨is, hp, hr⟩, rfl⟩⟩
    · obtain ⟨p, h⟩ := h
      cases h
    · cases ho.symm.trans (h is v.node hr)

/-- One identifier has been drawn when the only leaf of the second child is refused: neither of the two groups has its own. -/
example :
    let leaf (value : String) : Draft := { type := some "Anchor", value := .text value }
    let d : Draft :=
      { type := some "Group", properties := some {},
        patterns := some
          [leaf "^", { type := some "Group", properties := some {}, patterns := some [{ leaf "x" with id := some "a" }] }] }
    d.toPattern .counting [7] {} =
      (.error { cause := .invalidAnchor "x", location := some { path := [7, 1, 0], type := some .anchor, id := some "a" } },
        { next := 2 }) := by
  rfl

end Draft

end RegexTree
