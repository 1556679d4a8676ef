import RegexTree.Compile
import RegexTree.Draft

/-!
# Trees in another place

Where a tree stands has no part in what it stands for. Below other nodes a tree compiles to the same regex and a draft is read
as the same pattern; only a failure tells the place, by the beginning of its path and, where the depth is the cause, by the limit
it was measured against (`compileAt_moved`, `toPattern_moved`).
-/

namespace RegexTree

/-- The cause as it is reported so many levels further down, under a limit that is higher by as many. -/
def Cause.lowered (levels : Nat) : Cause → Cause
  | depthExceeded limit => depthExceeded (limit + levels)
  | cause => cause

/-- The failure of a tree as it is reported where the tree stands at `above`, so many levels further down. -/
def Error.moved (above : List Nat) (levels : Nat) (e : Error) : Error :=
  { cause := e.cause.lowered levels, location := e.location.map fun l => { l with path := above ++ l.path } }

namespace MovedAux

/-! ## Causes -/

/-- A cause other than the depth is the same on all levels. -/
theorem lowered_eq_self {cause : Cause} (h : ∀ limit, cause ≠ .depthExceeded limit) (levels : Nat) :
    cause.lowered levels = cause := by
  cases cause with
  | depthExceeded limit => exact absurd rfl (h limit)
  | _ => rfl

/-- On the same level a cause is the same, at a place that has the path above in front. -/
theorem moved_at (above : List Nat) (cause : Cause) (place : Location) :
    (cause.at place).moved above 0 = cause.at { place with path := above ++ place.path } := by
  cases cause <;> rfl

/-- A quantifier is not the reason that a tree is too deep. -/
theorem quantified_error {fragment : String} {q : Option Quantifier} {cause : Cause} (h : quantified fragment q = .error cause)
    (limit : Nat) : cause ≠ .depthExceeded limit := by
  unfold quantified at h
  split at h
  · cases h
  · split at h
    · cases h
    · cases h
      exact Cause.noConfusion

/-- A value is not the reason that a tree is too deep. -/
theorem token_error {kind : LeafKind} {text : String} {cause : Cause} (h : kind.token text = .error cause) (limit : Nat) :
    cause ≠ .depthExceeded limit := by
  unfold LeafKind.token at h
  split at h
  · cases h
  · cases ht : Anchor.tokenOf? _ <;> rw [ht] at h <;> cases h
    exact Cause.noConfusion
  · cases ht : CharacterClass.tokenOf? _ <;> rw [ht] at h <;> cases h
    exact Cause.noConfusion

/-- A leaf is not the reason that a tree is too deep. -/
theorem leafFragment_error {notes : Notes} {kind : LeafKind} {value : Value} {cause : Cause}
    (h : Pattern.leafFragment notes kind value = .error cause) (limit : Nat) : cause ≠ .depthExceeded limit := by
  unfold Pattern.leafFragment at h
  cases ht : kind.token value.resolve with
  | error c =>
    rw [ht] at h
    cases h
    exact token_error ht limit
  | ok token =>
    rw [ht] at h
    exact quantified_error h limit

/-! ## Trees -/

section Trees

open Pattern

/-- The place of a node is told by its own location, wherever the tree stands. -/
theorem locate_moved (above path : List Nat) (levels : Nat) (p : Pattern) (outcome : Except Error String) :
    Error.locate (p.location (above ++ path)) (outcome.mapError (Error.moved above levels)) =
      (Error.locate (p.location path) outcome).mapError (Error.moved above levels) := by
  cases outcome with
  | ok regex => rfl
  | error e =>
    obtain ⟨cause, location⟩ := e
    cases location <;> rfl

/-- What a node does by itself is the same on all levels. -/
theorem unlocated_moved {step : Except Cause String} (h : ∀ cause, step = .error cause → ∀ limit, cause ≠ .depthExceeded limit)
    (above : List Nat) (levels : Nat) :
    step.mapError Cause.unlocated = (step.mapError Cause.unlocated).mapError (Error.moved above levels) := by
  cases step with
  | ok regex => rfl
  | error cause =>
    have hc : cause.unlocated.moved above levels = cause.unlocated := by
      rw [Error.moved, show cause.unlocated.cause.lowered levels = cause from lowered_eq_self (h cause rfl) levels]
      rfl
    exact congrArg Except.error hc.symm

/-- What is done to the failure of two steps is done to the failure of each of them. -/
theorem mapError_bind (f : Error → Error) (first : Except Error String) (second : String → Except Error String) :
    (first.mapError f >>= fun regex => (second regex).mapError f) = (first >>= second).mapError f := by
  cases first <;> rfl

mutual
/-- A tree that stands lower, under a limit that is higher by as many levels, compiles as it does where it was. -/
theorem compileAt_moved (limit levels : Nat) (above path : List Nat) (depth : Nat) : (p : Pattern) →
    compileAt (limit + levels) (above ++ path) (depth + levels) p =
      (compileAt limit path depth p).mapError (Error.moved above levels)
  | leaf notes kind value => by
    rw [compileAt, compileAt, ← locate_moved]
    congr 1
    by_cases hd : limit < depth
    · rw [if_pos hd, if_pos (Nat.add_lt_add_right hd levels)]
      rfl
    · rw [if_neg hd, if_neg (mt Nat.lt_of_add_lt_add_right hd)]
      exact unlocated_moved (fun cause => leafFragment_error) above levels
  | group notes properties children => by
    rw [compileAt, compileAt, ← locate_moved]
    congr 1
    by_cases hd : limit < depth
    · rw [if_pos hd, if_pos (Nat.add_lt_add_right hd levels)]
      rfl
    · rw [if_neg hd, if_neg (mt Nat.lt_of_add_lt_add_right hd)]
      by_cases he : children.isEmpty
      · rw [if_pos he, if_pos he]
        rfl
      · rw [if_neg he, if_neg he]
        cases properties.opening? with
        | none => rfl
        | some opening =>
          simp only
          rw [← mapError_bind, Nat.add_right_comm, compileFrom_moved limit levels above path (depth + 1) 0 children]
          congr 1
          funext body
          exact unlocated_moved (fun cause => quantified_error) above levels

/-- The same for the trees below a node. -/
theorem compileFrom_moved (limit levels : Nat) (above path : List Nat) (depth index : Nat) : (ps : List Pattern) →
    compileFrom (limit + levels) (above ++ path) (depth + levels) index ps =
      (compileFrom limit path depth index ps).mapError (Error.moved above levels)
  | [] => rfl
  | p :: ps => by
    rw [compileFrom, compileFrom, ← mapError_bind, List.append_assoc,
      compileAt_moved limit levels above (path ++ [index]) depth p]
    congr 1
    funext fragment
    rw [← mapError_bind, compileFrom_moved limit levels above path depth (index + 1) ps]
    rfl
end

end Trees

/-! ## Drafts -/

variable {σ : Type}

/-- A reading as it is reported where what is read stands at `above`. -/
def readingMoved {α : Type} (above : List Nat) (reading : Except Error α × σ) : Except Error α × σ :=
  (reading.1.mapError (Error.moved above 0), reading.2)

/-- A reading that succeeds is the same everywhere. -/
theorem readingMoved_ok {α : Type} (above : List Nat) (a : α) (s : σ) : readingMoved above (.ok a, s) = (.ok a, s) := rfl

/-- A reading that fails at a place fails with the path above in front. -/
theorem readingMoved_error {α : Type} (above : List Nat) (cause : Cause) (place : Location) (s : σ) :
    readingMoved above (.error (cause.at place), s) =
      ((.error (cause.at { place with path := above ++ place.path }), s) : Except Error α × σ) := by
  rw [← moved_at]
  rfl

mutual
/-- A draft that stands somewhere else is read as the same pattern and draws the same identifiers. -/
theorem toPattern_moved (ids : IdSource σ) (above path : List Nat) : (d : Draft) → (s : σ) →
    d.toPattern ids (above ++ path) s = readingMoved above (d.toPattern ids path s)
  | ⟨id, type, value, quantifier, message, properties, patterns⟩, s => by
    cases type with
    | none => rfl
    | some name =>
      simp only [Draft.toPattern]
      cases NodeType.ofName? name with
      | none => rfl
      | some type =>
        simp only
        cases type.leafKind? with
        | some kind =>
          simp only
          cases Draft.leafValue kind ⟨id, some name, value, quantifier, message, properties, patterns⟩ with
          | error cause => exact (readingMoved_error above cause { path, type := some type, id } s).symm
          | ok value => rfl
        | none =>
          cases properties with
          | none => rfl
          | some properties =>
            simp only [toChildren_moved ids above path patterns s]
            cases Draft.toChildren ids path patterns s with
            | mk outcome after => cases outcome <;> rfl

/-- The same for the children that a group states. -/
theorem toChildren_moved (ids : IdSource σ) (above path : List Nat) : (patterns : Option (List Draft)) → (s : σ) →
    Draft.toChildren ids (above ++ path) patterns s = readingMoved above (Draft.toChildren ids path patterns s)
  | none, _ => rfl
  | some ds, s => toPatternsFrom_moved ids above path 0 ds s

/-- The same for the drafts below a node. -/
theorem toPatternsFrom_moved (ids : IdSource σ) (above path : List Nat) (index : Nat) : (ds : List Draft) → (s : σ) →
    Draft.toPatternsFrom ids (above ++ path) index ds s = readingMoved above (Draft.toPatternsFrom ids path index ds s)
  | [], _ => rfl
  | d :: ds, s => by
    rw [Draft.toPatternsFrom, Draft.toPatternsFrom, List.append_assoc, toPattern_moved ids above (path ++ [index]) d s]
    cases d.toPattern ids (path ++ [index]) s with
    | mk outcome after =>
      cases outcome with
      | error e => rfl
      | ok p =>
        simp only [readingMoved_ok, toPatternsFrom_moved ids above path (index + 1) ds after]
        cases Draft.toPatternsFrom ids path (index + 1) ds after with
        | mk outcome afters => cases outcome <;> rfl
end

end MovedAux

end RegexTree
