import RegexTree.Proofs.NormalValue
import RegexTree.Proofs.Presents
import RegexTree.Proofs.Stated

/-!
# How deep a tree can nest that is read

The records and lists of a document are read while levels are left for them, so the tree that a text states nests only so
deep: it has at most 64 levels of nodes (`depth_of_ofText?`). Written, such a tree may nest one level deeper than it was read: a
leaf whose value is a bare text is written with an object around it. In either format the written tree has at most 128 levels
(`containers_of_ofText?`).
-/

namespace RegexTree

namespace Reading

variable {α β : Type}

/-- What a sequence of readings gives. -/
theorem bind_eq_some {x : Reading α} {f : α → Reading β} {n n' : Nat} {b : β} :
    (x >>= f) n = some (b, n') ↔ ∃ a m, x n = some (a, m) ∧ f a m = some (b, n') := by
  simp only [bind, StateT.bind]
  cases x n with
  | none => simp
  | some r =>
    obtain ⟨a, m⟩ := r
    refine ⟨fun h => ⟨a, m, rfl, h⟩, ?_⟩
    rintro ⟨a', m', heq, h⟩
    cases heq
    exact h

/-- What is given without reading. -/
theorem pure_eq_some {a b : α} {n n' : Nat} : (pure a : Reading α) n = some (b, n') ↔ a = b ∧ n = n' := by
  show some (a, n) = some (b, n') ↔ a = b ∧ n = n'
  rw [Option.some.injEq, Prod.mk.injEq]

/-- Each result of a list of readings is the result of one of them. -/
theorem mem_mapM {f : α → Reading β} {as : List α} {bs : List β} {n n' : Nat} (h : as.mapM f n = some (bs, n')) :
    ∀ b ∈ bs, ∃ a ∈ as, ∃ m m', f a m = some (b, m') := by
  induction as generalizing bs n n' with
  | nil =>
    rw [List.mapM_nil, pure_eq_some] at h
    obtain ⟨rfl, -⟩ := h
    nofun
  | cons a as ih =>
    rw [List.mapM_cons, bind_eq_some] at h
    obtain ⟨b, m, hb, h⟩ := h
    rw [bind_eq_some] at h
    obtain ⟨bs', m', hbs, h⟩ := h
    rw [pure_eq_some] at h
    obtain ⟨rfl, -⟩ := h
    rw [List.forall_mem_cons]
    refine ⟨⟨a, List.mem_cons_self, n, m, hb⟩, fun c hc => ?_⟩
    obtain ⟨a', ha, r⟩ := ih hbs c hc
    exact ⟨a', List.mem_cons_of_mem a ha, r⟩

end Reading

/-! ## Values -/

namespace Datum

/-- An object written as a list nests a level deeper than its item. -/
theorem nesting_fieldOfItems {items : List Datum} {v : DraftValue} {n : Nat} (h : fieldOfItems? items = some v)
    (hi : ∀ d ∈ items, ∀ w, d.toDraftValue? = some w → w.nesting ≤ n) : v.nesting ≤ n + 1 := by
  cases items with
  | nil =>
    cases h
    exact Nat.succ_le_succ (Nat.zero_le n)
  | cons d rest =>
    simp only [fieldOfItems?, bind, Option.bind_eq_some_iff] at h
    obtain ⟨-, -, w, hw, h⟩ := h
    cases h
    exact Nat.succ_le_succ (hi d List.mem_cons_self w hw)

/-- An object nests a level deeper than what its entries hold. -/
theorem nesting_fieldOfEntries {entries : List (Datum × Datum)} {v : DraftValue} {n : Nat} {found : Option DraftValue}
    (h : fieldOfEntries? found entries = some v) (hf : ∀ w ∈ found, w.nesting ≤ n)
    (he : ∀ e ∈ entries, ∀ w, e.2.toDraftValue? = some w → w.nesting ≤ n) : v.nesting ≤ n + 1 := by
  induction entries generalizing found with
  | nil =>
    cases h
    cases found with
    | none => exact Nat.succ_le_succ (Nat.zero_le n)
    | some w => exact Nat.succ_le_succ (hf w rfl)
  | cons e entries ih =>
    obtain ⟨key, value⟩ := e
    rw [List.forall_mem_cons] at he
    simp only [fieldOfEntries?, bind, Option.bind_eq_some_iff] at h
    obtain ⟨b, -, h⟩ := h
    cases b with
    | false => exact ih h hf he.2
    | true =>
      simp only [if_true, Option.bind_eq_some_iff] at h
      obtain ⟨-, -, w, hw, h⟩ := h
      refine ih h (fun w' hw' => ?_) he.2
      obtain rfl := Option.some.inj hw'
      exact he.1 w hw

end Datum

/-- In so many levels a format reads no value of more objects. -/
def Shape.Bounded {α : Type} (s : Shape α) : Prop :=
  ∀ levels part n d n', s.datum levels part n = some (d, n') → ∀ v, d.toDraftValue? = some v → v.nesting ≤ levels

namespace Json

/-- Each result of a list of steps is the result of one of them. -/
theorem mem_mapM {α β : Type} {f : α → Option β} {as : List α} {bs : List β} (h : as.mapM f = some bs) :
    ∀ b ∈ bs, ∃ a ∈ as, f a = some b := by
  induction as generalizing bs with
  | nil =>
    cases h
    nofun
  | cons a as ih =>
    simp only [List.mapM_cons, bind, Option.bind_eq_some_iff] at h
    obtain ⟨b, hb, bs', hbs, h⟩ := h
    cases h
    rw [List.forall_mem_cons]
    refine ⟨⟨a, List.mem_cons_self, hb⟩, fun c hc => ?_⟩
    obtain ⟨a', ha, r⟩ := ih hbs c hc
    exact ⟨a', List.mem_cons_of_mem a ha, r⟩

/-- A value of JSON that states objects is an array or an object. -/
theorem scalar_or_container {levels : Nat} {j : Json} {d : Datum} (h : datum? levels j = some d) {v : DraftValue}
    (hv : d.toDraftValue? = some v) : v.nesting = 0 ∨ (∃ items, j = .array items) ∨ ∃ members, j = .object members := by
  cases j with
  | array items => exact Or.inr (Or.inl ⟨items, rfl⟩)
  | object members => exact Or.inr (Or.inr ⟨members, rfl⟩)
  | number literal =>
    rw [datum?] at h
    obtain ⟨n, -, rfl⟩ := Option.map_eq_some_iff.1 h
    cases n with
    | integer n =>
      by_cases hn : 0 ≤ n
      · simp only [hn, if_true] at hv
        cases hv
        exact Or.inl rfl
      · simp only [hn, if_false] at hv
        cases hv
        exact Or.inl rfl
    | float x =>
      cases hv
      exact Or.inl rfl
  | string text =>
    rw [datum?] at h
    obtain ⟨t, -, rfl⟩ := Option.map_eq_some_iff.1 h
    cases hv
    exact Or.inl rfl
  | _ =>
    rw [datum?] at h
    cases h
    cases hv
    exact Or.inl rfl

/-- JSON reads no value of more objects than levels. -/
theorem bounded : shape.Bounded := by
  have hd : ∀ levels j d, datum? levels j = some d → ∀ v, d.toDraftValue? = some v → v.nesting ≤ levels := by
    intro levels
    induction levels with
    | zero =>
      intro j d h v hv
      rcases scalar_or_container h hv with hz | ⟨items, rfl⟩ | ⟨members, rfl⟩
      · exact Nat.le_of_eq hz
      · cases h
      · cases h
    | succ levels ih =>
      intro j d h v hv
      rcases scalar_or_container h hv with hz | ⟨items, rfl⟩ | ⟨members, rfl⟩
      · exact Nat.le_trans (Nat.le_of_eq hz) (Nat.zero_le _)
      · obtain ⟨ds, hds, rfl⟩ := Option.map_eq_some_iff.1 h
        refine Datum.nesting_fieldOfItems hv fun d hd w hw => ?_
        obtain ⟨j, -, hj⟩ := mem_mapM hds d hd
        exact ih j d hj w hw
      · obtain ⟨es, hes, rfl⟩ := Option.map_eq_some_iff.1 h
        refine Datum.nesting_fieldOfEntries hv nofun fun e he w hw => ?_
        obtain ⟨m, -, hm⟩ := mem_mapM hes e he
        simp only [bind, Option.bind_eq_some_iff] at hm
        obtain ⟨key, -, d, hd, hm⟩ := hm
        cases hm
        exact ih m.2 d hd w hw
  intro levels j n d n' h v hv
  refine hd levels j d ?_ v hv
  have hs : shape.datum levels j = (datum? levels j : Option _) := rfl
  rw [hs] at h
  cases hj : datum? levels j with
  | none =>
    rw [hj] at h
    cases h
  | some e =>
    rw [hj] at h
    cases h
    rfl

end Json

namespace Yaml

/-- An integer states no objects. -/
theorem nesting_of_integer {cs : List Char} {d : Datum} (h : (integer? cs).join = some d) {v : DraftValue}
    (hv : d.toDraftValue? = some v) : v.nesting = 0 := by
  unfold integer? at h
  split at h
  · cases h
    cases hv
    rfl
  · cases h
    cases hv
    rfl
  · split at h <;> cases h

/-- What a plain scalar states holds no objects. -/
theorem nesting_of_plainDatum {cs : List Char} {d : Datum} (h : plainDatum? cs = some d) {v : DraftValue}
    (hv : d.toDraftValue? = some v) : v.nesting = 0 := by
  unfold plainDatum? at h
  split at h
  · cases h
    cases hv
    rfl
  · split at h
    · cases h
      cases hv
      rfl
    · split at h
      · rename_i n hn
        exact nesting_of_integer (by rw [hn, h]; rfl) hv
      · split at h <;> cases h <;> cases hv <;> rfl

/-- What a scalar states holds no objects. -/
theorem nesting_of_scalarDatum {marks : Marks Nat} {style : Style} {text : String} {d : Datum}
    (h : scalarDatum? marks style text = some d) {v : DraftValue} (hv : d.toDraftValue? = some v) : v.nesting = 0 := by
  simp only [scalarDatum?, bind, Option.bind_eq_some_iff] at h
  obtain ⟨-, -, h⟩ := h
  split at h
  · split at h
    · exact nesting_of_plainDatum h hv
    · cases h
      cases hv
      rfl
  · split at h
    · obtain ⟨b, -, rfl⟩ := Option.map_eq_some_iff.1 h
      cases hv
      rfl
    · split at h
      · exact nesting_of_integer h hv
      · split at h
        · obtain ⟨x, -, rfl⟩ := Option.map_eq_some_iff.1 h
          cases hv
          rfl
        · split at h
          · split at h <;> cases h
            cases hv
            rfl
          · cases h
            cases hv
            rfl

/-- A scalar that is read states what it holds. -/
theorem scalarDatum_of_read {marks : Marks Nat} {style : Style} {text : String} {d : Datum} {m n : Nat}
    (h : (do
      let some d := scalarDatum? marks style text | failure
      return d : Reading Datum) m = some (d, n)) :
    scalarDatum? marks style text = some d := by
  cases hs : scalarDatum? marks style text with
  | none =>
    simp only [hs] at h
    cases h
  | some e =>
    simp only [hs] at h
    cases h
    rfl

/-- YAML reads no value of more objects than levels. -/
theorem bounded (tree : Tree) : (shape tree).Bounded := by
  intro levels
  induction levels with
  | zero =>
    intro node n d n' h v hv
    simp only [shape, datum, Reading.bind_eq_some] at h
    obtain ⟨part, m, -, h⟩ := h
    cases part with
    | scalar marks style text => exact Nat.le_of_eq (nesting_of_scalarDatum (scalarDatum_of_read h) hv)
    | _ => cases h
  | succ levels ih =>
    intro node n d n' h v hv
    simp only [shape, datum, Reading.bind_eq_some] at h
    obtain ⟨part, m, -, h⟩ := h
    cases part with
    | scalar marks style text =>
      exact Nat.le_trans (Nat.le_of_eq (nesting_of_scalarDatum (scalarDatum_of_read h) hv)) (Nat.zero_le _)
    | sequence marks items =>
      simp only [Reading.bind_eq_some, Reading.pure_eq_some] at h
      obtain ⟨_, m', -, ds, _, hds, rfl, -⟩ := h
      refine Datum.nesting_fieldOfItems hv fun d hd w hw => ?_
      obtain ⟨node, -, k, k', hk⟩ := Reading.mem_mapM hds d hd
      exact ih node k d k' hk w hw
    | mapping marks entries =>
      simp only [Reading.bind_eq_some, Reading.pure_eq_some] at h
      obtain ⟨_, m', -, es, _, hes, rfl, -⟩ := h
      refine Datum.nesting_fieldOfEntries hv nofun fun e he w hw => ?_
      obtain ⟨entry, -, k, k', hk⟩ := Reading.mem_mapM hes e he
      simp only [Reading.bind_eq_some, Reading.pure_eq_some] at hk
      obtain ⟨key, l, -, value, l', hvalue, rfl, -⟩ := hk
      exact ih entry.2 l value l' hvalue w hw
    | reference r => cases h

end Yaml

/-! ## Drafts -/

namespace Shape

variable {α β : Type} {s : Shape α}

/-- What an optional field holds is read. -/
theorem read_of_optional {fields : List (String × α)} {name : String} {read : α → Reading β} {n n' : Nat} {o : Option β}
    (h : s.optional fields name read n = some (o, n')) : ∀ b ∈ o, ∃ part m m', read part m = some (b, m') := by
  rintro b rfl
  simp only [optional, Reading.bind_eq_some] at h
  obtain ⟨field, m, -, h⟩ := h
  cases field with
  | none => cases h
  | some part =>
    simp only [Reading.bind_eq_some] at h
    obtain ⟨given, m', -, h⟩ := h
    cases given with
    | none => cases h
    | some part =>
      simp only [Reading.bind_eq_some, Reading.pure_eq_some] at h
      obtain ⟨b', m'', hb, heq, -⟩ := h
      cases heq
      exact ⟨part, m', m'', hb⟩

/-- The value of a node states at most as many objects as there are levels. -/
theorem Bounded.nesting_of_value (hs : s.Bounded) {levels : Nat} {part : α} {n n' : Nat} {v : DraftValue}
    (h : s.value levels part n = some (v, n')) : v.nesting ≤ levels := by
  simp only [value, Reading.bind_eq_some] at h
  obtain ⟨d, m, hd, h⟩ := h
  cases hw : d.toDraftValue? with
  | none =>
    simp only [hw] at h
    cases h
  | some w =>
    simp only [hw] at h
    cases w with
    | null => cases h
    | _ =>
      cases h
      exact hs levels part n d _ hd _ hw

end Shape

namespace Draft

variable {α : Type} {s : Shape α}

/-- The drafts of a list are read with a level less. -/
theorem read_of_readList {levels : Nat} {part : α} {n n' : Nat} {ds : List Draft}
    (h : readList s levels part n = some (ds, n')) : ∀ d ∈ ds, ∃ part m m', read s (levels - 1) part m = some (d, m') := by
  cases levels with
  | zero =>
    simp only [readList, Reading.bind_eq_some, Reading.pure_eq_some] at h
    obtain ⟨_, _, -, rfl, -⟩ := h
    exact List.forall_mem_nil _
  | succ levels =>
    simp only [readList, Reading.bind_eq_some] at h
    obtain ⟨items, m, -, h⟩ := h
    intro d hd
    obtain ⟨part, -, r⟩ := Reading.mem_mapM h d hd
    exact ⟨part, r⟩

/-- A draft that states anything is read with a level for its record, its value with what is left, and its children with one
level less than that. -/
theorem read_cases (hs : s.Bounded) {levels : Nat} {part : α} {n n' : Nat} {d : Draft} (h : read s levels part n = some (d, n')) :
    d = {} ∨ 0 < levels ∧ d.value.nesting ≤ levels - 1 ∧
      ∀ e ∈ d.patterns.getD [], ∃ part m m', read s (levels - 2) part m = some (e, m') := by
  cases levels with
  | zero =>
    simp only [read, Reading.bind_eq_some, Reading.pure_eq_some] at h
    obtain ⟨_, _, -, rfl, -⟩ := h
    exact Or.inl rfl
  | succ levels =>
    simp only [read, Reading.bind_eq_some, Reading.pure_eq_some] at h
    obtain ⟨fields, _, -, id, _, -, type, _, -, value, _, hv, quantifier, _, -, message, _, -, properties, _, -, patterns, _, hp,
      rfl, -⟩ := h
    refine Or.inr ⟨Nat.succ_pos levels, ?_, ?_⟩
    · cases value with
      | none => exact Nat.zero_le _
      | some v =>
        obtain ⟨part, m, m', hread⟩ := Shape.read_of_optional hv v rfl
        exact hs.nesting_of_value hread
    · cases patterns with
      | none => exact List.forall_mem_nil _
      | some ds =>
        obtain ⟨part, m, m', hread⟩ := Shape.read_of_optional hp ds rfl
        exact read_of_readList hread

end Draft

/-- The value of a leaf is the value that its draft states. -/
theorem Draft.toNodeValue_of_leafValue {kind : LeafKind} {d : Draft} {v : Value} (h : d.leafValue kind = .ok v) :
    d.value.toNodeValue = .ok v := by
  unfold leafValue at h
  cases hv : d.value.toNodeValue with
  | error cause =>
    rw [hv] at h
    cases h
  | ok w =>
    rw [hv] at h
    cases ht : kind.token w.resolve with
    | error cause =>
      simp only [bind, Except.bind, ht] at h
      cases h
    | ok token =>
      simp only [bind, Except.bind, ht] at h
      cases h
      rfl

/-! ## Trees -/

/-- Trees of a list nest within a bound when each of them does. -/
theorem Pattern.containersAtAll_le {depth bound : Nat} {ps : List Pattern} (h : ∀ p ∈ ps, containersAt depth p ≤ bound) :
    containersAtAll depth ps ≤ bound := by
  induction ps with
  | nil => exact Nat.zero_le bound
  | cons p ps ih =>
    rw [List.forall_mem_cons] at h
    exact Nat.max_le.2 ⟨h.1, ih h.2⟩

/-- The items of a draft are patterns that it states. -/
theorem Draft.mem_patterns_of_mem_items {d e : Draft} (h : e ∈ d.items) : e ∈ d.patterns.getD [] := by
  unfold items at h
  split at h
  · exact h
  · cases h

/-- The tree that a draft states takes two levels, of which the first is the record of its root: the value of a leaf has the
levels that are left, and the children of a group are stated by drafts that are read in them. -/
theorem Draft.tree_of_read {α : Type} {s : Shape α} (hs : s.Bounded) {levels : Nat} {part : α} {n n' : Nat} {d : Draft}
    {u : Pattern} (h : read s levels part n = some (d, n')) (hu : d.stated? = some u) :
    0 < levels ∧
      ((∃ notes kind value, u = .leaf notes kind value ∧ value.nesting ≤ levels - 2) ∨
        ∃ notes properties us, u = .group notes properties us ∧
          ∀ v ∈ us, ∃ e part m m', read s (levels - 2) part m = some (e, m') ∧ e.stated? = some v) := by
  rcases read_cases hs h with rfl | ⟨hpos, hv, hc⟩
  · cases hu
  refine ⟨hpos, ?_⟩
  rcases StatedAux.stated?_cases hu with ⟨kind, value, hleaf, rfl⟩ | ⟨properties, us, hus, rfl⟩
  · have hnode := NormalValueAux.nesting_of_toNodeValue (toNodeValue_of_leafValue hleaf)
    exact Or.inl ⟨_, kind, value, rfl, by omega⟩
  · refine Or.inr ⟨_, properties, us, rfl, fun v hv => ?_⟩
    obtain ⟨e, he, hve⟩ := StatedAux.mem_statedAll? hus hv
    obtain ⟨part, m, m', hread⟩ := hc e (mem_patterns_of_mem_items he)
    exact ⟨e, part, m, m', hread, hve⟩

/-- A tree of which the draft is read in so many levels nests at most a level deeper: where nothing but the record of a node was
read, the node is written with a record of its own in it. -/
theorem Draft.containersAt_of_read {α : Type} {s : Shape α} (hs : s.Bounded) (bound levels : Nat) :
    ∀ {depth part n d n' u}, levels + 2 * depth ≤ 2 * bound + 2 → read s levels part n = some (d, n') → d.stated? = some u →
      u.containersAt depth ≤ 2 * bound := by
  induction levels using Nat.strongRecOn with
  | _ levels ih =>
    intro depth part n d n' u hl h hu
    obtain ⟨hpos, hcases⟩ := tree_of_read hs h hu
    rcases hcases with ⟨notes, kind, value, rfl, hv⟩ | ⟨notes, properties, us, rfl, hc⟩
    · simp only [Pattern.containersAt]
      omega
    · refine Nat.max_le.2 ⟨by omega, Pattern.containersAtAll_le fun v hv => ?_⟩
      obtain ⟨e, part, m, m', hread, hve⟩ := hc v hv
      exact ih (levels - 2) (by omega) (by omega) hread hve

/-- Trees of a list have so many levels when each of them has. -/
theorem Pattern.depthAll_le {bound : Nat} {ps : List Pattern} (h : ∀ p ∈ ps, p.depth ≤ bound) : depthAll ps ≤ bound := by
  induction ps with
  | nil => exact Nat.zero_le bound
  | cons p ps ih =>
    rw [List.forall_mem_cons] at h
    exact Nat.max_le.2 ⟨h.1, ih h.2⟩

/-- Each node takes two levels of reading, and the deepest ones may do with a level for their record. -/
theorem Draft.depth_of_read {α : Type} {s : Shape α} (hs : s.Bounded) (levels : Nat) :
    ∀ {part n d n' u}, read s levels part n = some (d, n') → d.stated? = some u → u.depth ≤ (levels + 1) / 2 := by
  induction levels using Nat.strongRecOn with
  | _ levels ih =>
    intro part n d n' u h hu
    obtain ⟨hpos, hcases⟩ := tree_of_read hs h hu
    rcases hcases with ⟨notes, kind, value, rfl, -⟩ | ⟨notes, properties, us, rfl, hc⟩
    · rw [Pattern.depth]
      omega
    · have hd : Pattern.depthAll us ≤ (levels + 1) / 2 - 1 := by
        refine Pattern.depthAll_le fun v hv => ?_
        obtain ⟨e, part, m, m', hread, hve⟩ := hc v hv
        have hleft := (tree_of_read hs hread hve).1
        have hdepth := ih (levels - 2) (by omega) hread hve
        omega
      rw [Pattern.depth]
      omega

/-- What a reading gives at last is given with some state. -/
theorem Reading.of_run' {α : Type} {x : Reading α} {n : Nat} {a : α} (h : x.run' n = some a) : ∃ n', x n = some (a, n') := by
  simp only [StateT.run', Option.map_eq_map, Option.map_eq_some_iff] at h
  obtain ⟨⟨b, n'⟩, hx, rfl⟩ := h
  exact ⟨n', hx⟩

/-- The levels of nesting that a format looks into. -/
def Format.levels : Format → Nat
  | json => Json.levels
  | yaml => Yaml.levels

/-- What is read from a JSON text is read in 127 levels. -/
theorem Json.of_parse? {β : Type} {read : Shape Json → Nat → Json → Reading β} {text : String} {b : β}
    (h : parse? read text = some b) : ∃ j n', read shape levels j 0 = some (b, n') := by
  simp only [parse?, bind, Option.bind_eq_some_iff] at h
  obtain ⟨j, -, h⟩ := h
  obtain ⟨n', h⟩ := Reading.of_run' h
  exact ⟨j, n', h⟩

/-- What is read from a YAML text is read in 128 levels. -/
theorem Yaml.of_parse? {β : Type} {read : Shape (Node Nat) → Nat → Node Nat → Reading β} {text : String} {b : β}
    (h : parse? read text = some b) : ∃ tree n n', read (shape tree) levels tree.root n = some (b, n') := by
  simp only [parse?, bind, Option.bind_eq_some_iff] at h
  obtain ⟨tree, -, h⟩ := h
  obtain ⟨n', h⟩ := Reading.of_run' h
  exact ⟨tree, _, n', h⟩

/-- The draft that a text states is read in the levels of its format. -/
theorem Draft.read_of_ofText? {format : Format} {text : String} {d : Draft} (h : Draft.ofText? format text = some d) :
    ∃ (α : Type) (s : Shape α) (part : α) (n n' : Nat), s.Bounded ∧ read s format.levels part n = some (d, n') := by
  cases format with
  | json =>
    obtain ⟨j, n', h⟩ := Json.of_parse? h
    exact ⟨Json, Json.shape, j, 0, n', Json.bounded, h⟩
  | yaml =>
    obtain ⟨tree, n, n', h⟩ := Yaml.of_parse? h
    exact ⟨Yaml.Node Nat, Yaml.shape tree, tree.root, n, n', Yaml.bounded tree, h⟩

/-- The drafts that the text of a list states are read in the levels of its format. -/
theorem Draft.readList_of_listOfText? {format : Format} {text : String} {ds : List Draft}
    (h : Draft.listOfText? format text = some ds) :
    ∃ (α : Type) (s : Shape α) (part : α) (n n' : Nat), s.Bounded ∧ readList s format.levels part n = some (ds, n') := by
  cases format with
  | json =>
    obtain ⟨j, n', h⟩ := Json.of_parse? h
    exact ⟨Json, Json.shape, j, 0, n', Json.bounded, h⟩
  | yaml =>
    obtain ⟨tree, n, n', h⟩ := Yaml.of_parse? h
    exact ⟨Yaml.Node Nat, Yaml.shape tree, tree.root, n, n', Yaml.bounded tree, h⟩

/-- The tree that a text of either format states has at most 128 records and lists around a part. -/
theorem Draft.containers_of_ofText? {format : Format} {text : String} {d : Draft} {u : Pattern}
    (h : Draft.ofText? format text = some d) (hu : d.stated? = some u) : u.containers ≤ 128 := by
  obtain ⟨α, s, part, n, n', hs, h⟩ := read_of_ofText? h
  have hl : format.levels + 2 * 1 ≤ 2 * 64 + 2 := by cases format <;> decide
  exact containersAt_of_read hs 64 format.levels hl h hu

/-- The tree that a text of either format states has at most 64 levels. -/
theorem Draft.depth_of_ofText? {format : Format} {text : String} {d : Draft} {u : Pattern}
    (h : Draft.ofText? format text = some d) (hu : d.stated? = some u) : u.depth ≤ 64 := by
  obtain ⟨α, s, part, n, n', hs, h⟩ := read_of_ofText? h
  have hl : (format.levels + 1) / 2 ≤ 64 := by cases format <;> decide
  exact Nat.le_trans (depth_of_read hs format.levels h hu) hl

/-- A tree that the text of a list states has at most half as many levels as its format looks into, since the list takes one. -/
theorem Draft.depth_of_listOfText? {format : Format} {text : String} {ds : List Draft} {us : List Pattern}
    (h : Draft.listOfText? format text = some ds) (hus : statedAll? ds = some us) :
    ∀ u ∈ us, u.depth ≤ format.levels / 2 := by
  intro u hu
  obtain ⟨α, s, part, n, n', hs, h⟩ := readList_of_listOfText? h
  obtain ⟨d, hd, hstated⟩ := StatedAux.mem_statedAll? hus hu
  obtain ⟨item, m, m', hread⟩ := read_of_readList h d hd
  have hl : (format.levels - 1 + 1) / 2 = format.levels / 2 := by cases format <;> decide
  rw [← hl]
  exact depth_of_read hs (format.levels - 1) hread hstated

end RegexTree
