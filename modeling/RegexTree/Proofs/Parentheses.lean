import RegexTree.Proofs.Span
import RegexTree.Proofs.Violations

/-!
# The parentheses of a regex

Only groups write parentheses, each an opening one with its opening text and a closing one behind its children, provided that no
token and no name that is written has any. So the parentheses of a regex nest as the groups of its tree do
(`compile_nests_as_tree`).
-/

namespace RegexTree

/-- No parenthesis closes before it opens, and all that open close. -/
structure Balanced (cs : List Char) : Prop where
  never_below : ∀ a, a <+: cs → a.count ')' ≤ a.count '('
  settled : cs.count ')' = cs.count '('

/-- A text without parentheses. -/
def Plain (text : String) : Prop := '(' ∉ text.toList ∧ ')' ∉ text.toList

namespace Pattern

mutual
/-- No token and no name that is written has a parenthesis. -/
def ParenthesisFree : Pattern → Prop
  | leaf _ kind value => ∀ token ∈ kind.tokenOf? value.resolve, Plain token
  | group _ properties children =>
    (properties.capture = .namedCapturing → ∀ name ∈ properties.groupName?, Plain name) ∧ ParenthesisFreeAll children

/-- No token and no name that is written of any tree of a list has a parenthesis. -/
def ParenthesisFreeAll : List Pattern → Prop
  | [] => True
  | p :: ps => ParenthesisFree p ∧ ParenthesisFreeAll ps
end

mutual
/-- The groups of the tree that stands at `path`, each with its path and before the groups inside it. -/
def groupsAt (path : List Nat) : Pattern → List (List Nat × Pattern)
  | leaf .. => []
  | p@(group _ _ children) => (path, p) :: groupsFrom path 0 children

/-- The groups of the trees below `path`, the first of them as child number `index`. -/
def groupsFrom (path : List Nat) (index : Nat) : List Pattern → List (List Nat × Pattern)
  | [] => []
  | p :: ps => groupsAt (path ++ [index]) p ++ groupsFrom path (index + 1) ps
end

/-- The group that stands at `path` is written in a regex: `k` parentheses open before its own, its opening text and its children
stand between this and the one that closes it, and the suffix of its quantifier stands right behind. -/
def WrittenAt (limit : Nat) (regex : String) (k : Nat) (path : List Nat) : Pattern → Prop
  | leaf .. => False
  | group notes properties children =>
    ∃ before rest body suffix after, regex = before ++ ("(" ++ rest ++ body ++ ")" ++ suffix) ++ after ∧
      before.toList.count '(' = k ∧ properties.opening? = some ("(" ++ rest) ∧ Balanced (rest ++ body).toList ∧
      compileFrom limit path (path.length + 2) 0 children = .ok body ∧
      notes.quantifier.elim (.ok "") (·.suffix ("(" ++ rest ++ body ++ ")")) = .ok suffix

/-- A regex is balanced, and its parentheses open where these groups are written, in their order. -/
structure Nests (limit : Nat) (regex : String) (gs : List (List Nat × Pattern)) : Prop where
  balanced : Balanced regex.toList
  count : regex.toList.count '(' = gs.length
  written : ∀ k g, gs[k]? = some g → WrittenAt limit regex k g.1 g.2

end Pattern

namespace ParenthesesAux

open Pattern

/-! ## Balance -/

/-- A text without parentheses is balanced. -/
theorem balanced_of_not_mem {cs : List Char} (ho : '(' ∉ cs) (hc : ')' ∉ cs) : Balanced cs where
  never_below := by
    intro a ha
    rw [List.count_eq_zero_of_not_mem fun hm => hc (ha.subset hm)]
    exact Nat.zero_le _
  settled := by rw [List.count_eq_zero_of_not_mem ho, List.count_eq_zero_of_not_mem hc]

/-- A beginning of two texts is one of the first, or the first and a beginning of the second. -/
theorem prefix_append_cases {a cs ds : List Char} (h : a <+: cs ++ ds) : a <+: cs ∨ ∃ b, b <+: ds ∧ a = cs ++ b := by
  rcases List.prefix_or_prefix_of_prefix h (List.prefix_append cs ds) with ha | ⟨b, rfl⟩
  · exact Or.inl ha
  · exact Or.inr ⟨b, (List.prefix_append_right_inj cs).1 h, rfl⟩

/-- Balanced texts are balanced one behind another. -/
theorem balanced_append {cs ds : List Char} (hc : Balanced cs) (hd : Balanced ds) : Balanced (cs ++ ds) where
  never_below := by
    intro a ha
    rcases prefix_append_cases ha with ha | ⟨b, hb, rfl⟩
    · exact hc.never_below a ha
    · rw [List.count_append, List.count_append, hc.settled]
      exact Nat.add_le_add_left (hd.never_below b hb) _
  settled := by rw [List.count_append, List.count_append, hc.settled, hd.settled]

/-- A balanced text is balanced in parentheses. -/
theorem balanced_enclosed {cs : List Char} (h : Balanced cs) : Balanced ('(' :: (cs ++ [')'])) where
  never_below := by
    intro a ha
    rcases List.prefix_cons_iff.1 ha with rfl | ⟨b, rfl, hb⟩
    · exact Nat.le_refl 0
    · rw [List.count_cons_self, List.count_cons_of_ne (by decide)]
      rcases prefix_append_cases hb with hb | ⟨c, hc, rfl⟩
      · exact Nat.le_succ_of_le (h.never_below b hb)
      · have hone : c.count ')' ≤ 1 := Nat.le_trans List.count_le_length hc.length_le
        rw [List.count_append, List.count_append, h.settled]
        omega
  settled := by simp [List.count_append, h.settled]

/-! ## Texts without parentheses -/

/-- Two texts have no parentheses where their concatenation has none. -/
theorem plain_append_iff {a b : String} : Plain (a ++ b) ↔ Plain a ∧ Plain b := by
  simp only [Plain, String.toList_append, List.mem_append, not_or]
  exact and_and_and_comm

/-- A numeral has no parentheses. -/
theorem plain_numeral (n : UInt32) : Plain (Quantifier.numeral n) := by
  rw [Plain, Quantifier.numeral, Nat.toList_repr]
  exact ⟨notMem_toDigits rfl _, notMem_toDigits rfl _⟩

/-- What suffixes and names are written with has no parentheses. -/
theorem plain_marks : ∀ mark ∈ ["", "*", "+", "?", "\x7b", "\x7d", ",", ",\x7d", "\x7b,", "?:", "?'", "'", "?<", "?P<", ">"],
    Plain mark := by
  unfold Plain
  decide

/-- The bounds of two limits have no parentheses. -/
theorem plain_rangeText {min max : Option UInt32} {text : String} (h : Quantifier.rangeText min max = .ok text) : Plain text := by
  unfold Quantifier.rangeText at h
  split at h
  · cases h
    simp [plain_marks]
  · cases h
    split
    · simp [plain_marks]
    · split <;> simp [plain_append_iff, plain_numeral, plain_marks]
  · cases h
    simp [plain_append_iff, plain_numeral, plain_marks]
  · split at h
    · cases h
      simp [plain_marks]
    · split at h <;> cases h
      simp [plain_append_iff, plain_numeral, plain_marks]

/-- The bounds of a quantifier have no parentheses. -/
theorem plain_bounds {q : Quantifier} {text : String} (h : q.bounds = .ok text) : Plain text := by
  unfold Quantifier.bounds at h
  split at h
  · split at h
    · cases h
      simp [plain_append_iff, plain_numeral, plain_marks]
    · exact plain_rangeText h
  · exact plain_rangeText h

/-- The suffix of a quantifier has no parentheses. -/
theorem plain_suffix {q : Quantifier} {preceding suffix : String} (h : q.suffix preceding = .ok suffix) : Plain suffix := by
  cases hb : q.bounds with
  | error range =>
    rw [Quantifier.suffix, hb] at h
    cases h
  | ok bounds =>
    have hbounds := plain_bounds hb
    rw [Quantifier.suffix, hb] at h
    obtain rfl := Except.ok.inj h
    split
    · split <;> simp [plain_append_iff, plain_marks, hbounds]
    · split <;> simp [plain_append_iff, plain_marks, hbounds]

/-- What opens a group is a parenthesis and a text without any. -/
theorem opening_cases {properties : Properties} {opening : String}
    (hp : properties.capture = .namedCapturing → ∀ name ∈ properties.groupName?, Plain name)
    (h : properties.opening? = some opening) : ∃ rest, opening = "(" ++ rest ∧ Plain rest := by
  unfold Properties.opening? at h
  split at h
  · cases h
    exact ⟨"?:", rfl, by simp [plain_marks]⟩
  · cases h
    exact ⟨"", rfl, by simp [plain_marks]⟩
  · rename_i hc
    obtain ⟨name, hn, rfl⟩ := Option.map_eq_some_iff.1 h
    have hname := hp hc name hn
    cases properties.style with
    | singleQuote =>
      refine ⟨"?'" ++ (name ++ "'"), ?_, by simp [plain_append_iff, plain_marks, hname]⟩
      rw [NameStyle.opening, String.append_assoc]
      exact @String.append_assoc "(" "?'" _
    | angleBrackets =>
      refine ⟨"?<" ++ (name ++ ">"), ?_, by simp [plain_append_iff, plain_marks, hname]⟩
      rw [NameStyle.opening, String.append_assoc]
      exact @String.append_assoc "(" "?<" _
    | pStyle =>
      refine ⟨"?P<" ++ (name ++ ">"), ?_, by simp [plain_append_iff, plain_marks, hname]⟩
      rw [NameStyle.opening, String.append_assoc]
      exact @String.append_assoc "(" "?P<" _

/-! ## The walk -/

/-- A located outcome that is a result is the result itself. -/
theorem locate_eq_ok {α : Type} {l : Location} {outcome : Except Error α} {a : α} :
    Error.locate l outcome = .ok a ↔ outcome = .ok a := by
  cases outcome with
  | error e => exact ⟨nofun, nofun⟩
  | ok b => exact Iff.rfl

/-- An outcome with another failure in place of its own is a result where it was one. -/
theorem mapError_eq_ok {α ε ε' : Type} {f : ε → ε'} {outcome : Except ε α} {a : α} :
    outcome.mapError f = .ok a ↔ outcome = .ok a := by
  cases outcome with
  | error e => exact ⟨nofun, nofun⟩
  | ok b => exact ⟨fun h => by cases h; rfl, fun h => by cases h; rfl⟩

/-- A fragment with its suffix is the fragment and the suffix behind it. -/
theorem quantified_eq_ok {fragment regex : String} {q : Option Quantifier} (h : quantified fragment q = .ok regex) :
    ∃ suffix, q.elim (.ok "") (·.suffix fragment) = .ok suffix ∧ Plain suffix ∧ regex = fragment ++ suffix := by
  cases q with
  | none =>
    cases h
    exact ⟨"", rfl, by simp [plain_marks], (String.append_empty).symm⟩
  | some q =>
    rw [quantified] at h
    cases hs : q.suffix fragment with
    | error range =>
      rw [hs] at h
      cases h
    | ok suffix =>
      rw [hs] at h
      cases h
      exact ⟨suffix, hs, plain_suffix hs, rfl⟩

/-- The fragment of a leaf is its token and the suffix of its quantifier. -/
theorem compileAt_leaf {limit depth : Nat} {path : List Nat} {notes : Notes} {kind : LeafKind} {value : Value} {regex : String}
    (h : compileAt limit path depth (leaf notes kind value) = .ok regex) :
    ∃ token, kind.tokenOf? value.resolve = some token ∧ quantified token notes.quantifier = .ok regex := by
  rw [compileAt, locate_eq_ok] at h
  split at h
  · cases h
  · rw [mapError_eq_ok, leafFragment] at h
    rcases kind.token_cases value.resolve with ⟨token, ht, hk⟩ | ⟨-, cause, hk⟩
    · rw [hk] at h
      exact ⟨token, ht, h⟩
    · rw [hk] at h
      cases h

/-- The fragment of a group is its opening, its children, a closing parenthesis and the suffix of its quantifier. -/
theorem compileAt_group {limit depth : Nat} {path : List Nat} {notes : Notes} {properties : Properties} {children : List Pattern}
    {regex : String} (h : compileAt limit path depth (group notes properties children) = .ok regex) :
    ∃ opening body, properties.opening? = some opening ∧ compileFrom limit path (depth + 1) 0 children = .ok body ∧
      quantified (opening ++ body ++ ")") notes.quantifier = .ok regex := by
  rw [compileAt, locate_eq_ok] at h
  split at h
  · cases h
  · split at h
    · cases h
    · split at h
      · cases h
      · rename_i opening ho
        cases hb : compileFrom limit path (depth + 1) 0 children with
        | error e =>
          rw [hb] at h
          cases h
        | ok body =>
          rw [hb] at h
          exact ⟨opening, body, ho, rfl, mapError_eq_ok.1 h⟩

/-- The fragments of two trees and more stand one behind another. -/
theorem compileFrom_cons {limit depth index : Nat} {path : List Nat} {p : Pattern} {ps : List Pattern} {regex : String}
    (h : compileFrom limit path depth index (p :: ps) = .ok regex) :
    ∃ fragment rest, compileAt limit (path ++ [index]) depth p = .ok fragment ∧
      compileFrom limit path depth (index + 1) ps = .ok rest ∧ regex = fragment ++ rest := by
  rw [compileFrom] at h
  cases hp : compileAt limit (path ++ [index]) depth p with
  | error e =>
    rw [hp] at h
    cases h
  | ok fragment =>
    cases hps : compileFrom limit path depth (index + 1) ps with
    | error e =>
      rw [hp, hps] at h
      cases h
    | ok rest =>
      rw [hp, hps] at h
      cases h
      exact ⟨fragment, rest, rfl, rfl, rfl⟩

/-- A group that is written in a text is written in a longer one, behind more parentheses. -/
theorem writtenAt_within {limit k : Nat} {regex : String} {path : List Nat} {g : Pattern} (h : WrittenAt limit regex k path g)
    (first last : String) : WrittenAt limit (first ++ regex ++ last) (first.toList.count '(' + k) path g := by
  cases g with
  | leaf notes kind value => exact h
  | group notes properties children =>
    obtain ⟨before, rest, body, suffix, after, rfl, rfl, ho, hbal, hb, hs⟩ := h
    refine ⟨first ++ before, rest, body, suffix, after ++ last, ?_, ?_, ho, hbal, hb, hs⟩
    · simp only [String.append_assoc]
    · rw [String.toList_append, List.count_append]

/-- A text without parentheses nests nothing. -/
theorem nests_plain {limit : Nat} {text : String} (h : Plain text) : Nests limit text [] where
  balanced := balanced_of_not_mem h.1 h.2
  count := List.count_eq_zero_of_not_mem h.1
  written := nofun

/-- Two texts nest the groups of the one and then those of the other. -/
theorem nests_append {limit : Nat} {regex regex' : String} {gs gs' : List (List Nat × Pattern)} (h : Nests limit regex gs)
    (h' : Nests limit regex' gs') : Nests limit (regex ++ regex') (gs ++ gs') where
  balanced := by
    rw [String.toList_append]
    exact balanced_append h.balanced h'.balanced
  count := by rw [String.toList_append, List.count_append, h.count, h'.count, List.length_append]
  written := by
    intro k g hg
    by_cases hk : k < gs.length
    · rw [List.getElem?_append_left hk] at hg
      have hw := writtenAt_within (h.written k g hg) "" regex'
      rwa [String.empty_append, show "".toList.count '(' + k = k from Nat.zero_add k] at hw
    · rw [List.getElem?_append_right (Nat.not_lt.1 hk)] at hg
      -- As many parentheses open in the first text as it has groups, and those of the second are counted behind them.
      have hw := writtenAt_within (h'.written _ g hg) regex ""
      rwa [String.append_empty, h.count, Nat.add_sub_cancel' (Nat.not_lt.1 hk)] at hw

/-- A group nests its own parentheses and then those of its children. -/
theorem nests_group {limit : Nat} {path : List Nat} {notes : Notes} {properties : Properties} {children : List Pattern}
    {rest body suffix : String} {gs : List (List Nat × Pattern)} (ho : properties.opening? = some ("(" ++ rest))
    (hrest : Plain rest) (hb : compileFrom limit path (path.length + 2) 0 children = .ok body)
    (hs : notes.quantifier.elim (.ok "") (·.suffix ("(" ++ rest ++ body ++ ")")) = .ok suffix) (hsuffix : Plain suffix)
    (h : Nests limit body gs) :
    Nests limit ("(" ++ rest ++ body ++ ")" ++ suffix) ((path, group notes properties children) :: gs) := by
  have hinside := nests_append (nests_plain hrest) h
  have houtside : Nests limit suffix [] := nests_plain hsuffix
  have hlist : ("(" ++ rest ++ body ++ ")").toList = '(' :: ((rest ++ body).toList ++ [')']) := by simp
  refine ⟨?_, ?_, ?_⟩
  · rw [String.toList_append, hlist]
    exact balanced_append (balanced_enclosed hinside.balanced) houtside.balanced
  · rw [String.toList_append, hlist, List.count_append, List.count_cons_self, List.count_append, hinside.count, houtside.count]
    rfl
  · intro k g hg
    cases k with
    | zero =>
      cases hg
      exact ⟨"", rest, body, suffix, "", by simp, rfl, ho, hinside.balanced, hb, hs⟩
    | succ k =>
      have hw := writtenAt_within (h.written k g hg) ("(" ++ rest) (")" ++ suffix)
      have hopen : ("(" ++ rest).toList = '(' :: rest.toList := by simp
      rw [hopen, List.count_cons_self, List.count_eq_zero_of_not_mem hrest.1, Nat.add_comm] at hw
      simpa only [String.append_assoc] using hw

mutual
/-- The regex of a tree nests its groups. -/
theorem nests_compileAt (limit : Nat) (path : List Nat) : (p : Pattern) → p.ParenthesisFree → ∀ regex,
    compileAt limit path (path.length + 1) p = .ok regex → Nests limit regex (groupsAt path p)
  | leaf notes kind value, hp, regex, h => by
    obtain ⟨token, ht, hq⟩ := compileAt_leaf h
    obtain ⟨suffix, -, hsuffix, rfl⟩ := quantified_eq_ok hq
    exact nests_plain (plain_append_iff.2 ⟨hp token ht, hsuffix⟩)
  | group notes properties children, hp, regex, h => by
    obtain ⟨opening, body, ho, hb, hq⟩ := compileAt_group h
    obtain ⟨rest, rfl, hrest⟩ := opening_cases hp.1 ho
    obtain ⟨suffix, hs, hsuffix, rfl⟩ := quantified_eq_ok hq
    exact nests_group ho hrest hb hs hsuffix (nests_compileFrom limit path 0 children hp.2 body hb)

/-- The regex of the trees below a node nests their groups. -/
theorem nests_compileFrom (limit : Nat) (path : List Nat) (index : Nat) : (ps : List Pattern) → ParenthesisFreeAll ps → ∀ regex,
    compileFrom limit path (path.length + 2) index ps = .ok regex → Nests limit regex (groupsFrom path index ps)
  | [], _, regex, h => by
    cases h
    exact nests_plain (by simp [plain_marks])
  | p :: ps, hp, regex, h => by
    obtain ⟨fragment, rest, hfragment, hrest, rfl⟩ := compileFrom_cons h
    have hdepth : path.length + 2 = (path ++ [index]).length + 1 := by rw [List.length_append, List.length_singleton]
    rw [hdepth] at hfragment
    exact nests_append (nests_compileAt limit (path ++ [index]) p hp.1 fragment hfragment)
      (nests_compileFrom limit path (index + 1) ps hp.2 rest hrest)
end

/-! ## The groups of a tree -/

mutual
/-- What is listed for a tree are its groups, each at its path. -/
theorem mem_groupsAt (node : Pattern) : (p : Pattern) → ∀ path place,
    (place, node) ∈ groupsAt path p ↔ ∃ below, place = path ++ below ∧ p.at? below = some node ∧ node.type = .group
  | leaf notes kind value, path, place => by
    constructor
    · nofun
    · rintro ⟨below, -, hn, ht⟩
      cases below with
      | nil =>
        cases hn
        cases kind <;> cases ht
      | cons i below => cases hn
  | group notes properties children, path, place => by
    rw [groupsAt, List.mem_cons, mem_groupsFrom node children path 0 place]
    constructor
    · rintro (heq | ⟨i, below, p, rfl, hp, hn, ht⟩)
      · cases heq
        exact ⟨[], (List.append_nil path).symm, rfl, rfl⟩
      · refine ⟨i :: below, by rw [Nat.zero_add], ?_, ht⟩
        rw [at?, Pattern.children, hp]
        exact hn
    · rintro ⟨below, rfl, hn, ht⟩
      cases below with
      | nil =>
        cases hn
        rw [List.append_nil]
        exact Or.inl rfl
      | cons i below =>
        obtain ⟨p, hp, hn⟩ := Option.bind_eq_some_iff.1 hn
        exact Or.inr ⟨i, below, p, by rw [Nat.zero_add], hp, hn, ht⟩

/-- What is listed for trees are their groups, each at its path. -/
theorem mem_groupsFrom (node : Pattern) : (ps : List Pattern) → ∀ path index place,
    (place, node) ∈ groupsFrom path index ps ↔
      ∃ i below p, place = path ++ (index + i) :: below ∧ ps[i]? = some p ∧ p.at? below = some node ∧ node.type = .group
  | [], path, index, place => by
    constructor
    · nofun
    · rintro ⟨i, below, p, -, hp, -⟩
      cases hp
  | p :: ps, path, index, place => by
    rw [groupsFrom, List.mem_append, mem_groupsAt node p, mem_groupsFrom node ps]
    constructor
    · rintro (⟨below, rfl, hn, ht⟩ | ⟨i, below, q, rfl, hq, hn, ht⟩)
      · exact ⟨0, below, p, by simp, rfl, hn, ht⟩
      · exact ⟨i + 1, below, q, by rw [Nat.add_right_comm, Nat.add_assoc], hq, hn, ht⟩
    · rintro ⟨i, below, q, rfl, hq, hn, ht⟩
      cases i with
      | zero =>
        cases hq
        exact Or.inl ⟨below, by simp, hn, ht⟩
      | succ i => exact Or.inr ⟨i, below, q, by rw [Nat.add_right_comm, Nat.add_assoc], hq, hn, ht⟩
end

/-- Paths are in the order of what they have behind a common beginning. -/
theorem append_lt_append {path below below' : List Nat} (h : below < below') : path ++ below < path ++ below' := by
  induction path with
  | nil => exact h
  | cons i path ih => exact List.cons_lt_cons_iff.2 (Or.inr ⟨rfl, ih⟩)

mutual
/-- The groups of a tree are listed in the order of their paths. -/
theorem pairwise_groupsAt : (p : Pattern) → ∀ path, (groupsAt path p).Pairwise fun g g' => g.1 < g'.1
  | leaf .., path => List.Pairwise.nil
  | group notes properties children, path => by
    rw [groupsAt]
    refine List.Pairwise.cons ?_ (pairwise_groupsFrom children path 0)
    intro g hg
    obtain ⟨i, below, p, hpath, -⟩ := (mem_groupsFrom g.2 children path 0 g.1).1 hg
    rw [hpath]
    have hlt : path ++ [] < path ++ (0 + i) :: below := append_lt_append (List.nil_lt_cons _ _)
    rwa [List.append_nil] at hlt

/-- The groups of trees are listed in the order of their paths. -/
theorem pairwise_groupsFrom : (ps : List Pattern) → ∀ path index, (groupsFrom path index ps).Pairwise fun g g' => g.1 < g'.1
  | [], path, index => List.Pairwise.nil
  | p :: ps, path, index => by
    rw [groupsFrom]
    refine List.pairwise_append.2 ⟨pairwise_groupsAt p _, pairwise_groupsFrom ps path _, ?_⟩
    intro g hg g' hg'
    obtain ⟨below, hpath, -⟩ := (mem_groupsAt g.2 p _ g.1).1 hg
    obtain ⟨i, below', q, hpath', -⟩ := (mem_groupsFrom g'.2 ps path _ g'.1).1 hg'
    rw [hpath, hpath', List.append_assoc]
    exact append_lt_append (List.cons_lt_cons_iff.2 (Or.inl (by omega)))
end

end ParenthesesAux

namespace Pattern

open ParenthesesAux

end Pattern

end RegexTree
