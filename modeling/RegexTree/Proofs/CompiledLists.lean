import RegexTree.Proofs.DepthLimit

/-!
# Lists of trees, compiled

A list of trees compiles tree by tree to their regexes one after another, and the first tree that fails is what the list fails for.
A group that captures nothing compiles its children as a list, one level further down (`compileAll_in_sequence`).
-/

namespace RegexTree

/-- The location in a list of trees that has so many trees more in front. -/
def Location.behind (count : Nat) (l : Location) : Location := { l with path := l.path.modifyHead (· + count) }

/-- The failure of a list of trees as it is reported where so many trees stand in front of it. -/
def Error.behind (count : Nat) (e : Error) : Error := { e with location := e.location.map (Location.behind count) }

namespace CompiledListsAux

open Pattern MovedAux DepthLimitAux

/-! ## Located failures -/

/-- What is located is not located anew. -/
theorem locate_locate {α : Type} (l l' : Location) (outcome : Except Error α) :
    Error.locate l (Error.locate l' outcome) = Error.locate l' outcome := by
  cases outcome <;> rfl

/-- What a tree gives is located. -/
theorem locate_compileAt (l : Location) (limit : Nat) (path : List Nat) (depth : Nat) (p : Pattern) :
    Error.locate l (p.compileAt limit path depth) = p.compileAt limit path depth := by
  cases p with
  | leaf notes kind value => rw [compileAt, locate_locate]
  | group notes properties children => rw [compileAt, locate_locate]

/-- What the trees below a node give is located. -/
theorem locate_compileFrom (l : Location) (limit : Nat) (path : List Nat) (depth index : Nat) (ps : List Pattern) :
    Error.locate l (compileFrom limit path depth index ps) = compileFrom limit path depth index ps := by
  induction ps generalizing index with
  | nil => rfl
  | cons p ps ih =>
    rw [compileFrom]
    simp only [Error.locate_bind, locate_compileAt, ih]
    rfl

/-- A failure that is located is one of a cause at a place. -/
theorem exists_place {α : Type} {e : Error} (h : ∀ l, Error.locate l (.error e : Except Error α) = .error e) :
    ∃ cause place, e = Cause.at cause place := by
  have he : e.orAt {} = e := Except.error.inj (h {})
  exact ⟨e.cause, e.location.getD {}, he.symm⟩

/-- A tree fails for a cause at a place. -/
theorem compile_error_at {limit : Nat} {p : Pattern} {e : Error} (h : p.compile limit = .error e) :
    ∃ cause place, e = Cause.at cause place :=
  exists_place fun l => by rw [← h]; exact locate_compileAt l limit [] 1 p

/-- A list of trees fails for a cause at a place. -/
theorem compileAll_error_at {limit : Nat} {ps : List Pattern} {e : Error} (h : compileAll limit ps = .error e) :
    ∃ cause place, e = Cause.at cause place :=
  exists_place fun l => by rw [← h]; exact locate_compileFrom l limit [] 1 0 ps

/-! ## Tree by tree -/

/-- A tree of a list compiles as it does alone, and its number in the list comes in front of the path of a failure. -/
theorem compileFrom_cons (limit index : Nat) (p : Pattern) (ps : List Pattern) :
    compileFrom limit [] 1 index (p :: ps) = do
      let fragment ← (p.compile limit).mapError (Error.moved [index] 0)
      let rest ← compileFrom limit [] 1 (index + 1) ps
      return fragment ++ rest := by
  rw [compileFrom, show compileAt limit ([] ++ [index]) 1 p = (p.compile limit).mapError (Error.moved [index] 0) from
    compileAt_moved limit 0 [index] [] 1 p]

/-- A list whose first tree compiles. -/
theorem compileFrom_cons_ok {limit index : Nat} {p : Pattern} {fragment : String} (h : p.compile limit = .ok fragment)
    (ps : List Pattern) :
    compileFrom limit [] 1 index (p :: ps) = (compileFrom limit [] 1 (index + 1) ps).map (fragment ++ ·) := by
  rw [compileFrom_cons, h]
  rfl

/-- A list whose first tree fails. -/
theorem compileFrom_cons_error {limit index : Nat} {p : Pattern} {cause : Cause} {place : Location}
    (h : p.compile limit = .error (cause.at place)) (ps : List Pattern) :
    compileFrom limit [] 1 index (p :: ps) = .error (cause.at (place.under index)) := by
  rw [compileFrom_cons, h]
  exact congrArg Except.error (moved_at [index] cause place)

/-- The trees of a list compile, each by itself, or there is a first one that fails. -/
theorem compileFrom_cases (limit : Nat) (ps : List Pattern) : ∀ index,
    (∃ fragments, ps.map (compile limit) = fragments.map .ok ∧
      compileFrom limit [] 1 index ps = .ok (String.join fragments)) ∨
    ∃ before p after cause place, ps = before ++ p :: after ∧ (∀ q ∈ before, ∃ regex, q.compile limit = .ok regex) ∧
      p.compile limit = .error (Cause.at cause place) ∧
      compileFrom limit [] 1 index ps = .error (Cause.at cause (place.under (index + before.length))) := by
  induction ps with
  | nil =>
    intro index
    exact Or.inl ⟨[], rfl, rfl⟩
  | cons p ps ih =>
    intro index
    cases hp : p.compile limit with
    | error e =>
      obtain ⟨cause, place, rfl⟩ := compile_error_at hp
      exact Or.inr ⟨[], p, ps, cause, place, rfl, List.forall_mem_nil _, hp, compileFrom_cons_error hp ps⟩
    | ok fragment =>
      rw [compileFrom_cons_ok hp]
      rcases ih (index + 1) with ⟨fragments, hf, hc⟩ | ⟨before, q, after, cause, place, rfl, hb, hq, hc⟩
      · refine Or.inl ⟨fragment :: fragments, ?_, ?_⟩
        · rw [List.map_cons, List.map_cons, hp, hf]
        · rw [hc, String.join_cons]
          rfl
      · refine Or.inr ⟨p :: before, q, after, cause, place, rfl, ?_, hq, ?_⟩
        · exact List.forall_mem_cons.2 ⟨⟨fragment, hp⟩, hb⟩
        · rw [hc, List.length_cons, Nat.add_right_comm, Nat.add_assoc]
          rfl

/-! ## One list behind another -/

/-- The trees of two lists compile one list after the other. -/
theorem compileFrom_append (limit : Nat) (ps qs : List Pattern) (index : Nat) :
    compileFrom limit [] 1 index (ps ++ qs) = do
      let first ← compileFrom limit [] 1 index ps
      let second ← compileFrom limit [] 1 (index + ps.length) qs
      return first ++ second := by
  induction ps generalizing index with
  | nil =>
    rw [List.nil_append, List.length_nil, Nat.add_zero]
    cases hqs : compileFrom limit [] 1 index qs with
    | error e => rfl
    | ok second => exact congrArg Except.ok String.empty_append.symm
  | cons p ps ih =>
    rw [List.cons_append]
    cases hp : p.compile limit with
    | error e =>
      obtain ⟨cause, place, rfl⟩ := compile_error_at hp
      rw [compileFrom_cons_error hp, compileFrom_cons_error hp]
      rfl
    | ok fragment =>
      rw [compileFrom_cons_ok hp, compileFrom_cons_ok hp, ih, List.length_cons, Nat.add_right_comm index, Nat.add_assoc index]
      cases compileFrom limit [] 1 (index + 1) ps with
      | error e => rfl
      | ok first =>
        cases compileFrom limit [] 1 (index + (ps.length + 1)) qs with
        | error e => rfl
        | ok second => exact congrArg Except.ok (String.append_assoc ..).symm

/-- Trees in front of a list are counted in the places of its failures. -/
theorem compileFrom_behind (limit count : Nat) (ps : List Pattern) (index : Nat) :
    compileFrom limit [] 1 (index + count) ps = (compileFrom limit [] 1 index ps).mapError (Error.behind count) := by
  induction ps generalizing index with
  | nil => rfl
  | cons p ps ih =>
    cases hp : p.compile limit with
    | error e =>
      obtain ⟨cause, place, rfl⟩ := compile_error_at hp
      rw [compileFrom_cons_error hp, compileFrom_cons_error hp]
      rfl
    | ok fragment =>
      rw [compileFrom_cons_ok hp, compileFrom_cons_ok hp, Nat.add_right_comm, ih]
      cases compileFrom limit [] 1 (index + 1) ps <;> rfl

/-! ## Groups -/

/-- A group that captures nothing and has no quantifier compiles its children as a list that stands one level further down. -/
theorem compile_group (limit : Nat) {notes : Notes} {properties : Properties} {ps : List Pattern}
    (hq : notes.quantifier = none) (hc : properties.capture = .nonCapturing) (hps : ps ≠ []) :
    (group notes properties ps).compile (limit + 1) =
      ((compileAll limit ps).mapError (Error.moved [] 1)).map fun body => "(?:" ++ body ++ ")" := by
  have ho : properties.opening? = some "(?:" := by rw [Properties.opening?, hc]
  have hm : compileFrom (limit + 1) [] 2 0 ps = (compileAll limit ps).mapError (Error.moved [] 1) :=
    compileFrom_moved limit 1 [] [] 1 0 ps
  rw [compile, compileAt, if_neg (Nat.not_lt.2 (Nat.le_add_left 1 limit)), if_neg (mt List.isEmpty_iff.1 hps), ho, hq]
  simp only
  rw [Error.locate_bind, locate_compileFrom, hm]
  cases compileAll limit ps <;> rfl

/-- The cause that a list of trees fails for one level further down: the limit that it tells is higher by one. -/
theorem lowered_cases {limit : Nat} {ps : List Pattern} {cause : Cause} {place : Location}
    (h : compileAll limit ps = .error (cause.at place)) :
    cause = .depthExceeded limit ∧ cause.lowered 1 = .depthExceeded (limit + 1) ∨
      (∀ m, cause ≠ .depthExceeded m) ∧ cause.lowered 1 = cause := by
  by_cases hd : ∃ m, cause = .depthExceeded m
  · obtain ⟨m, rfl⟩ := hd
    -- That the cause tells this limit comes from comparing the limit with itself.
    have hl := compileAll_limited (Nat.le_refl limit) ps
    rw [h] at hl
    obtain ⟨rfl, -⟩ := hl.of_exceeded rfl
    exact Or.inl ⟨rfl, rfl⟩
  · have hne : ∀ m, cause ≠ .depthExceeded m := fun m hm => hd ⟨m, hm⟩
    exact Or.inr ⟨hne, lowered_eq_self hne 1⟩

end CompiledListsAux

namespace Pattern

open CompiledListsAux

/-- A list of trees compiles if each of its trees does, and then to their regexes in order. Otherwise it fails as the first tree
that fails by itself does, with the number of that tree in front of the path. A list behind another one compiles behind it. A group
of the list that captures nothing and has no quantifier compiles, under a limit that is higher by one, to the regex of the list in
parentheses, or it fails at the same place for the same cause, except that a failure for the depth tells the higher limit. -/
theorem compileAll_in_sequence (limit : Nat) (ps : List Pattern) :
    ((∃ regex, compileAll limit ps = .ok regex) ↔ ∀ p ∈ ps, ∃ regex, p.compile limit = .ok regex) ∧
      ((∃ fragments, ps.map (compile limit) = fragments.map .ok ∧
          compileAll limit ps = .ok (String.join fragments)) ∨
        ∃ before p after cause place, ps = before ++ p :: after ∧ (∀ q ∈ before, ∃ regex, q.compile limit = .ok regex) ∧
          p.compile limit = .error (Cause.at cause place) ∧
          compileAll limit ps = .error (Cause.at cause (place.under before.length))) ∧
      (∀ qs, compileAll limit (ps ++ qs) = do
        let first ← compileAll limit ps
        let second ← (compileAll limit qs).mapError (Error.behind ps.length)
        return first ++ second) ∧
      ∀ notes properties, notes.quantifier = none → properties.capture = .nonCapturing → ps ≠ [] →
        (∀ regex, (group notes properties ps).compile (limit + 1) = .ok ("(?:" ++ regex ++ ")") ↔
          compileAll limit ps = .ok regex) ∧
        ((∃ regex, compileAll limit ps = .ok regex) ∨
          ∃ place cause cause', compileAll limit ps = .error (Cause.at cause place) ∧
            (group notes properties ps).compile (limit + 1) = .error (Cause.at cause' place) ∧
            (cause = .depthExceeded limit ∧ cause' = .depthExceeded (limit + 1) ∨
              (∀ m, cause ≠ .depthExceeded m) ∧ cause' = cause)) := by
  have hcases := compileFrom_cases limit ps 0
  simp only [Nat.zero_add] at hcases
  refine ⟨?_, hcases, ?_, ?_⟩
  · rcases hcases with ⟨fragments, hf, hc⟩ | ⟨before, p, after, cause, place, rfl, hb, hp, hc⟩
    · refine ⟨fun _ p hp => ?_, fun _ => ⟨_, hc⟩⟩
      have hm : p.compile limit ∈ ps.map (compile limit) := List.mem_map_of_mem hp
      rw [hf] at hm
      obtain ⟨fragment, -, hfragment⟩ := List.mem_map.1 hm
      exact ⟨fragment, hfragment.symm⟩
    · constructor
      · rintro ⟨regex, hr⟩
        cases hr.symm.trans hc
      · intro hall
        obtain ⟨regex, hr⟩ := hall p (by simp)
        cases hr.symm.trans hp
  · intro qs
    have hb := compileFrom_behind limit ps.length qs 0
    rw [compileAll, compileFrom_append, hb]
    rfl
  · intro notes properties hq hc hps
    have hg := compile_group limit hq hc hps
    rw [hg]
    cases h : compileAll limit ps with
    | ok regex =>
      refine ⟨?_, Or.inl ⟨regex, rfl⟩⟩
      intro regex'
      show Except.ok ("(?:" ++ regex ++ ")") = Except.ok ("(?:" ++ regex' ++ ")") ↔ _
      rw [Except.ok.injEq, Except.ok.injEq, String.append_left_inj, String.append_right_inj]
    | error e =>
      obtain ⟨cause, place, rfl⟩ := compileAll_error_at h
      refine ⟨?_, Or.inr ⟨place, cause, cause.lowered 1, rfl, rfl, lowered_cases h⟩⟩
      intro regex
      constructor <;> intro hr <;> cases hr

/-- A list whose second tree is too deep. Behind two other trees it fails with two more in the path, and as a group one level further
down it tells the higher limit. -/
theorem compileAll_in_sequence_too_deep :
    let a : Pattern := .leaf {} .literal (.literal "a")
    let ps : List Pattern := [a, .group { id := some "g" } {} [.group {} .capturing [a]]]
    let failure (limit : Nat) (path : List Nat) : Error := (Cause.depthExceeded limit).at { path, type := some .literal }
    ps ≠ [] ∧ ({} : Notes).quantifier = none ∧ Properties.nonCapturing.capture = .nonCapturing ∧
      compileAll 2 ps = .error (failure 2 [1, 0, 0]) ∧ compileAll 2 ([a, a] ++ ps) = .error (failure 2 [3, 0, 0]) ∧
      (group {} .nonCapturing ps).compile 3 = .error (failure 3 [1, 0, 0]) := by
  intro a ps failure
  have hne : ps ≠ [] := List.cons_ne_nil _ _
  have hps : compileAll 2 ps = .error (failure 2 [1, 0, 0]) := rfl
  obtain ⟨-, -, happend, -⟩ := compileAll_in_sequence 2 [a, a]
  obtain ⟨-, -, -, hgroup⟩ := compileAll_in_sequence 2 ps
  refine ⟨hne, rfl, rfl, hps, (happend ps).trans rfl, ?_⟩
  rcases (hgroup {} .nonCapturing rfl rfl hne).2 with ⟨regex, h⟩ | ⟨place, cause, cause', h, hg, hcause⟩
  · cases hps.symm.trans h
  · cases hps.symm.trans h
    rcases hcause with ⟨-, rfl⟩ | ⟨hd, -⟩
    · exact hg
    · exact absurd rfl (hd 2)

end Pattern

end RegexTree
