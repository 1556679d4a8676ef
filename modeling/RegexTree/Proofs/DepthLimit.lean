import RegexTree.Proofs.Moved

/-!
# The limit on the depth of a tree

A limit has one effect: a tree that nests deeper than it does not compile. Under all limits that its depth keeps to a tree compiles
to the same regex or fails in the same way. Where the depth exceeds the limit and nothing else is wrong before, the node that is
reported is one that stands right below it (`compile_limited_by_depth`).
-/

namespace RegexTree

namespace DepthLimitAux

open Pattern MovedAux

/-! ## Two limits -/

/-- What a walk over nodes of depths below `bound` gives under a limit, next to what it gives under a higher one: the same regex,
where no node exceeds the limit; the same failure, for something else than the depth; or, where some node exceeds it, a failure for
the depth at a node that so many stand above. -/
inductive Limited (limit bound above : Nat) : Except Error String → Except Error String → Prop where
  | regex (regex : String) : bound ≤ limit + 1 → Limited limit bound above (.ok regex) (.ok regex)
  | failure (e : Error) : (∀ l, e.cause ≠ .depthExceeded l) → Limited limit bound above (.error e) (.error e)
  | exceeded (l : Location) (outcome : Except Error String) : limit + 1 < bound → l.path.length = above →
      Limited limit bound above (.error ((Cause.depthExceeded limit).at l)) outcome

/-- Two steps go as deep as the one that goes deeper. -/
theorem Limited.bind {limit bound bound' deepest above : Nat} {first first' : Except Error String}
    {second second' : String → Except Error String} (h : Limited limit bound above first first')
    (hs : ∀ regex, Limited limit bound' above (second regex) (second' regex)) (hd : deepest = max bound bound') :
    Limited limit deepest above (first >>= second) (first' >>= second') := by
  cases h with
  | failure e he => exact Limited.failure e he
  | exceeded l outcome hb hl => exact Limited.exceeded l _ (by omega) hl
  | regex regex hb =>
    show Limited limit deepest above (second regex) (second' regex)
    have hr := hs regex
    generalize second regex = outcome, second' regex = outcome' at hr ⊢
    cases hr with
    | regex regex hb' => exact Limited.regex regex (by omega)
    | failure e he => exact Limited.failure e he
    | exceeded l _ hb' hl => exact Limited.exceeded l _ (by omega) hl

/-- A located failure keeps its location. -/
theorem Limited.locate {limit bound above : Nat} {outcome outcome' : Except Error String}
    (h : Limited limit bound above outcome outcome') (l : Location) :
    Limited limit bound above (Error.locate l outcome) (Error.locate l outcome') := by
  cases h with
  | regex regex hb => exact Limited.regex regex hb
  | failure e he => exact Limited.failure (e.orAt l) he
  | exceeded l' outcome hb hl => exact Limited.exceeded l' _ hb hl

/-- What a node does by itself has no limit. -/
theorem limited_step {limit bound above : Nat} (hb : bound ≤ limit + 1) {step : Except Cause String}
    (h : ∀ cause, step = .error cause → ∀ l, cause ≠ .depthExceeded l) :
    Limited limit bound above (step.mapError Cause.unlocated) (step.mapError Cause.unlocated) := by
  cases step with
  | ok regex => exact Limited.regex regex hb
  | error cause => exact Limited.failure cause.unlocated (h cause rfl)

mutual
/-- A tree compiles under a limit as it does under a higher one, unless a node of it exceeds the limit. The walk stops at a node
that does, so it stands one level below the limit, and `above` nodes above it. -/
theorem compileAt_limited {limit limit' : Nat} (hl : limit ≤ limit') (above : Nat) (path : List Nat) (depth : Nat)
    (hd : depth ≤ limit + 1) (ha : path.length + (limit + 1) = above + depth) : (p : Pattern) →
    Limited limit (depth + p.depth) above (p.compileAt limit path depth) (p.compileAt limit' path depth)
  | leaf notes kind value => by
    rw [Pattern.depth, compileAt, compileAt]
    by_cases hx : limit < depth
    · -- The walk comes here only from a node that keeps to the limit, so `depth` is `limit + 1` by `hd`.
      rw [if_pos hx]
      exact Limited.exceeded _ _ (by omega) (show path.length = above by omega)
    · rw [if_neg hx, if_neg (show ¬limit' < depth by omega)]
      exact (limited_step (by omega) fun cause => leafFragment_error).locate _
  | group notes properties children => by
    rw [Pattern.depth, compileAt, compileAt]
    by_cases hx : limit < depth
    · rw [if_pos hx]
      exact Limited.exceeded _ _ (by omega) (show path.length = above by omega)
    · rw [if_neg hx, if_neg (show ¬limit' < depth by omega)]
      refine Limited.locate ?_ _
      by_cases he : children.isEmpty
      · rw [if_pos he, if_pos he]
        exact Limited.failure _ fun _ => Cause.noConfusion
      · rw [if_neg he, if_neg he]
        cases properties.opening? with
        | none => exact Limited.failure _ fun _ => Cause.noConfusion
        | some opening =>
          have hc := compileFrom_limited hl above path (depth + 1) 0 (by omega) (by omega) children
          have hq (body : String) : Limited limit depth above
              ((quantified (opening ++ body ++ ")") notes.quantifier).mapError Cause.unlocated)
              ((quantified (opening ++ body ++ ")") notes.quantifier).mapError Cause.unlocated) :=
            limited_step (by omega) fun cause => quantified_error
          exact hc.bind hq (by omega)

/-- The same for the trees below a node. -/
theorem compileFrom_limited {limit limit' : Nat} (hl : limit ≤ limit') (above : Nat) (path : List Nat) (depth index : Nat)
    (hd : depth ≤ limit + 1) (ha : path.length + 1 + (limit + 1) = above + depth) : (ps : List Pattern) →
    Limited limit (depth + depthAll ps) above (compileFrom limit path depth index ps) (compileFrom limit' path depth index ps)
  | [] => Limited.regex "" hd
  | p :: ps => by
    have hp := compileAt_limited hl above (path ++ [index]) depth hd (by rw [List.length_append]; exact ha) p
    have hps := compileFrom_limited hl above path depth (index + 1) hd ha ps
    have hr (fragment rest : String) : Limited limit depth above (pure (fragment ++ rest)) (pure (fragment ++ rest)) :=
      Limited.regex (fragment ++ rest) hd
    rw [depthAll, compileFrom, compileFrom]
    exact hp.bind (fun fragment => hps.bind (hr fragment) rfl) (by omega)
end

/-- Two limits, the second no lower than the first. -/
theorem compile_limited {limit limit' : Nat} (hl : limit ≤ limit') (p : Pattern) :
    Limited limit (1 + p.depth) limit (p.compile limit) (p.compile limit') :=
  compileAt_limited hl limit [] 1 (Nat.le_add_left 1 limit) (Nat.zero_add _) p

/-- The same for a list of trees. -/
theorem compileAll_limited {limit limit' : Nat} (hl : limit ≤ limit') (ps : List Pattern) :
    Limited limit (1 + depthAll ps) (limit + 1) (compileAll limit ps) (compileAll limit' ps) :=
  compileFrom_limited hl (limit + 1) [] 1 0 (Nat.le_add_left 1 limit) (by rw [List.length_nil]; omega) ps

/-- What a walk gives is the same under a higher limit if no node exceeds the limit. -/
theorem Limited.eq {limit bound above : Nat} {outcome outcome' : Except Error String}
    (h : Limited limit bound above outcome outcome') (hb : bound ≤ limit + 1) : outcome = outcome' := by
  cases h with
  | regex regex _ => rfl
  | failure e _ => rfl
  | exceeded l outcome hx _ => exact absurd hb (Nat.not_le.2 hx)

/-- Under two limits that its depth keeps to a tree compiles alike. -/
theorem compile_eq_compile {limit limit' : Nat} {p : Pattern} (h : p.depth ≤ limit) (h' : p.depth ≤ limit') :
    p.compile limit = p.compile limit' := by
  rcases Nat.le_total limit limit' with hl | hl
  · exact (compile_limited hl p).eq (by omega)
  · exact ((compile_limited hl p).eq (by omega)).symm

/-- A tree that compiles keeps to the limit. -/
theorem depth_le_of_compile {limit : Nat} {p : Pattern} {regex : String} (h : p.compile limit = .ok regex) : p.depth ≤ limit := by
  have hl := compile_limited (Nat.le_refl limit) p
  rw [h] at hl
  cases hl with
  | regex _ hb => omega

/-- A failure for anything but the depth is the same under a higher limit. -/
theorem Limited.eq_of_failure {limit bound above : Nat} {e : Error} {outcome : Except Error String}
    (h : Limited limit bound above (.error e) outcome) (he : ∀ l, e.cause ≠ .depthExceeded l) : outcome = .error e := by
  cases h with
  | failure _ _ => rfl
  | exceeded l outcome _ _ => exact absurd rfl (he limit)

/-- A failure for the depth tells the limit, and the node that is too deep has all levels of the limit above it. -/
theorem Limited.of_exceeded {limit bound above l : Nat} {e : Error} {outcome : Except Error String}
    (h : Limited limit bound above (.error e) outcome) (he : e.cause = .depthExceeded l) :
    l = limit ∧ limit + 1 < bound ∧ ∃ place : Location, e.location = some place ∧ place.path.length = above := by
  cases h with
  | failure _ hne => exact absurd he (hne l)
  | exceeded place outcome hb hp =>
    cases he
    exact ⟨rfl, hb, place, rfl, hp⟩

/-- A list is deeper than a limit where one of its trees is. -/
theorem exists_of_lt_depthAll {limit : Nat} {ps : List Pattern} (h : limit < depthAll ps) : ∃ p ∈ ps, limit < p.depth := by
  induction ps with
  | nil => exact absurd h (Nat.not_lt_zero limit)
  | cons p ps ih =>
    rcases Nat.lt_or_ge limit p.depth with hp | hp
    · exact ⟨p, List.mem_cons_self, hp⟩
    · obtain ⟨q, hq, hlt⟩ := ih (by rw [depthAll] at h; omega)
      exact ⟨q, List.mem_cons_of_mem p hq, hlt⟩

end DepthLimitAux

namespace Pattern

open DepthLimitAux

/-- A tree compiles under a limit just if its depth keeps to the limit and it compiles under some limit that its depth keeps to, or,
what comes to the same, under all of those. A failure for anything but the depth is the same under every higher limit. A failure for the
depth is one of a tree that is deeper than the limit; it tells this limit, and its location is a path of as many steps. In a list
of trees the step to the tree comes on top. -/
theorem compile_limited_by_depth {limit limit' : Nat} (h : limit ≤ limit') (p : Pattern) (ps : List Pattern) :
    (∀ regex, p.compile limit = .ok regex ↔ p.depth ≤ limit ∧ ∃ m, p.depth ≤ m ∧ p.compile m = .ok regex) ∧
      (∀ regex, (∃ m, p.depth ≤ m ∧ p.compile m = .ok regex) ↔ ∀ m, p.depth ≤ m → p.compile m = .ok regex) ∧
      (∀ e, p.compile limit = .error e → (∀ m, e.cause ≠ .depthExceeded m) → p.compile limit' = .error e) ∧
      (∀ e m, p.compile limit = .error e → e.cause = .depthExceeded m →
        limit < p.depth ∧ m = limit ∧ ∃ place : Location, e.location = some place ∧ place.path.length = limit) ∧
      ∀ e m, compileAll limit ps = .error e → e.cause = .depthExceeded m →
        (∃ q ∈ ps, limit < q.depth) ∧ m = limit ∧ ∃ place : Location, e.location = some place ∧ place.path.length = limit + 1 := by
  refine ⟨?_, ?_, ?_, ?_, ?_⟩
  · intro regex
    constructor
    · intro hc
      have hd := depth_le_of_compile hc
      exact ⟨hd, limit, hd, hc⟩
    · rintro ⟨hd, m, hm, hc⟩
      rw [compile_eq_compile hd hm]
      exact hc
  · intro regex
    constructor
    · rintro ⟨m, hm, hc⟩ m' hm'
      rw [compile_eq_compile hm' hm]
      exact hc
    · intro hc
      exact ⟨p.depth, Nat.le_refl _, hc p.depth (Nat.le_refl _)⟩
  · intro e he hne
    have hl := compile_limited h p
    rw [he] at hl
    exact hl.eq_of_failure hne
  · intro e m he hm
    have hl := compile_limited h p
    rw [he] at hl
    obtain ⟨rfl, hb, place, hp, hlen⟩ := hl.of_exceeded hm
    exact ⟨by omega, rfl, place, hp, hlen⟩
  · intro e m he hm
    have hl := compileAll_limited h ps
    rw [he] at hl
    obtain ⟨rfl, hb, place, hp, hlen⟩ := hl.of_exceeded hm
    exact ⟨exists_of_lt_depthAll (by omega), rfl, place, hp, hlen⟩

/-- Three levels under the limit two. A range that is inverted and stands in front of the third level fails alike under the limits
two and three, and without it the third level is what is reported. -/
theorem compile_limited_by_depth_of_three :
    let a : Pattern := .leaf {} .literal (.literal "a")
    let nested : Pattern := .group {} {} [.group {} .capturing [a]]
    let inverted : Pattern := .leaf { quantifier := some (.between 2 1) } .literal (.literal "b")
    let p : Pattern := .group {} {} [inverted, nested]
    let failure : Error := (Cause.invalidRange 2 1).at { path := [0], type := some .literal }
    2 ≤ 3 ∧ p.compile 2 = .error failure ∧ p.compile 3 = .error failure ∧ nested.compile 3 = .ok "(?:(a))" ∧
      (∀ m, nested.depth ≤ m → nested.compile m = .ok "(?:(a))") ∧ 2 < nested.depth ∧
      nested.compile 2 = .error ((Cause.depthExceeded 2).at { path := [0, 0], type := some .literal }) ∧
      compileAll 2 [nested, inverted] = .error ((Cause.depthExceeded 2).at { path := [0, 0, 0], type := some .literal }) ∧
      ∃ q ∈ [nested, inverted], 2 < q.depth := by
  intro a nested inverted p failure
  have h : 2 ≤ 3 := by decide
  have hp : p.compile 2 = .error failure := rfl
  have hn : nested.compile 3 = .ok "(?:(a))" := rfl
  obtain ⟨-, -, hfailure, -, hlist⟩ := compile_limited_by_depth h p [nested, inverted]
  obtain ⟨-, hevery, -, hdeep, -⟩ := compile_limited_by_depth h nested []
  have hd : 2 < nested.depth := (hdeep _ 2 rfl rfl).1
  exact ⟨h, hp, hfailure failure hp fun _ => Cause.noConfusion, hn, (hevery _).1 ⟨3, Nat.le_refl 3, hn⟩, hd, rfl, rfl,
    (hlist _ 2 rfl rfl).1⟩

end Pattern

end RegexTree
