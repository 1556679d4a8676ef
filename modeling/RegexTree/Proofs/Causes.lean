import RegexTree.Proofs.Violations

/-!
# Why a resolved tree fails to compile

The violations of a tree have few causes: it nests too deep for the limit, a group is empty or lacks its name, or the range of a
quantifier is inverted. A resolved tree fails for one of these (`compile_error`), and so does a list of them
(`compileAll_error`), whatever the limit.
-/

namespace RegexTree

/-- The causes for which trees of so many levels fail to compile under a limit. A symbol is none of them. -/
inductive Cause.OfTree (limit levels : Nat) : Cause → Prop where
  | depthExceeded : limit < levels → OfTree limit levels (.depthExceeded limit)
  | emptyGroup : OfTree limit levels .emptyGroup
  | missingGroupName : OfTree limit levels .missingGroupName
  | invalidRange {min max : UInt32} : max < min → OfTree limit levels (.invalidRange min max)

namespace ViolationAux

open Pattern

/-- The maximum of an inverted range is below its minimum. -/
theorem lt_of_inverted? {q : Quantifier} {range : Quantifier.BadRange} (h : q.inverted? = some range) :
    range.max < range.min := by
  unfold Quantifier.inverted? at h
  split at h
  · split at h
    · rename_i hr
      cases h
      exact hr.1
    · cases h
  · cases h

/-- The violation of a quantifier is an inverted range. -/
theorem ofTree_rangeViolations (limit levels : Nat) {path : List Nat} {p : Pattern} :
    ∀ v ∈ rangeViolations path p, v.cause.OfTree limit levels := by
  intro v hv
  unfold rangeViolations at hv
  split at hv
  · rename_i range hq
    obtain ⟨q, -, hr⟩ := Option.bind_eq_some_iff.1 hq
    rw [List.mem_singleton.1 hv]
    exact .invalidRange (lt_of_inverted? hr)
  · cases hv

/-- A tree has a level. -/
theorem one_le_depth (p : Pattern) : 1 ≤ p.depth := by
  cases p with
  | leaf => exact Nat.le_refl 1
  | group => exact Nat.le_add_right 1 _

/-- A node that stands too deep does so within the levels of its tree. -/
theorem ofTree_depthExceeded {limit levels depth : Nat} {path : List Nat} {p : Pattern} (hd : limit < depth)
    (h : depth + p.depth ≤ levels + 1) : ∀ v ∈ [(⟨path, p, .depthExceeded limit⟩ : Violation)], v.cause.OfTree limit levels := by
  intro v hv
  have hp := one_le_depth p
  rw [List.mem_singleton.1 hv]
  exact .depthExceeded (by omega)

mutual
/-- The violations of a tree that reaches down to so many levels. -/
theorem ofTree_violationsAt (limit levels : Nat) (path : List Nat) (depth : Nat) : (p : Pattern) →
    depth + p.depth ≤ levels + 1 → ∀ v ∈ violationsAt limit path depth p, v.cause.OfTree limit levels
  | leaf notes kind value, h => by
    rw [violationsAt]
    by_cases hd : limit < depth
    · rw [if_pos hd]
      exact ofTree_depthExceeded hd h
    · rw [if_neg hd]
      exact ofTree_rangeViolations limit levels
  | group notes properties children, h => by
    rw [violationsAt]
    by_cases hd : limit < depth
    · rw [if_pos hd]
      exact ofTree_depthExceeded hd h
    · rw [if_neg hd, List.forall_mem_append]
      refine ⟨?_, ofTree_rangeViolations limit levels⟩
      by_cases he : children.isEmpty
      · rw [if_pos he, List.forall_mem_singleton]
        exact .emptyGroup
      · by_cases hn : properties.lacksName
        · rw [if_neg he, if_pos hn, List.forall_mem_singleton]
          exact .missingGroupName
        · rw [if_neg he, if_neg hn]
          rw [Pattern.depth] at h
          exact ofTree_violationsFrom limit levels path (depth + 1) 0 children (by omega)

/-- The violations of trees that reach down to so many levels. -/
theorem ofTree_violationsFrom (limit levels : Nat) (path : List Nat) (depth index : Nat) : (ps : List Pattern) →
    depth + depthAll ps ≤ levels + 1 → ∀ v ∈ violationsFrom limit path depth index ps, v.cause.OfTree limit levels
  | [], _ => List.forall_mem_nil _
  | p :: ps, h => by
    rw [depthAll] at h
    rw [violationsFrom, List.forall_mem_append]
    exact ⟨ofTree_violationsAt limit levels (path ++ [index]) depth p (by omega),
      ofTree_violationsFrom limit levels path depth (index + 1) ps (by omega)⟩
end

/-- A failure that is reported has the cause of a violation. -/
theorem Reports.cause {find : List Nat → Option Pattern} {path : List Nat} {vs : List Violation} {e : Error}
    (h : Reports find path vs (.error e)) : ∃ v ∈ vs, e.cause = v.cause := by
  cases h with
  | failure cause rest _ => exact ⟨_, List.mem_cons_self, rfl⟩

end ViolationAux

namespace Pattern

/-- A resolved tree fails for its depth, for an empty or nameless group or for an inverted range. -/
theorem compile_error {limit : Nat} {p : Pattern} {e : Error} (h : p.Resolved) (he : p.compile limit = .error e) :
    e.cause.OfTree limit p.depth := by
  have hr := ViolationAux.compileAt_reports limit [] 1 p h
  rw [show p.compileAt limit [] 1 = .error e from he] at hr
  obtain ⟨v, hv, hc⟩ := hr.cause
  rw [hc]
  exact ViolationAux.ofTree_violationsAt limit p.depth [] 1 p (Nat.le_of_eq (Nat.add_comm 1 _)) v hv

/-- A list of resolved trees fails for the same causes, where the deepest of them counts. -/
theorem compileAll_error {limit : Nat} {ps : List Pattern} {e : Error} (h : ∀ p ∈ ps, p.Resolved)
    (he : compileAll limit ps = .error e) : e.cause.OfTree limit (depthAll ps) := by
  have hr := ViolationAux.compileFrom_reports limit [] 1 (group {} {} ps) [] ps rfl ((resolvedAll_iff ps).2 h)
  rw [List.length_nil, show compileFrom limit [] 1 0 ps = .error e from he] at hr
  obtain ⟨v, hv, hc⟩ := hr.cause
  rw [hc]
  exact ViolationAux.ofTree_violationsFrom limit (depthAll ps) [] 1 0 ps (Nat.le_of_eq (Nat.add_comm 1 _)) v hv

end Pattern

end RegexTree
