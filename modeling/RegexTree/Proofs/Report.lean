import RegexTree.Proofs.Span
import RegexTree.Report

/-!
# What a printed report shows

The dump of a tree quotes its texts, so a line break in them is written as an escape and the tree fills one line
(`ReportAux.isLine_pattern`). A report is then six lines and the output line. The regex on that line may hold line breaks of its
own, but nothing follows it: what is printed shows this regex and no other (`Report.shows_text_iff`), and tells every part of
the report (`Report.text_eq_text_iff`).
-/

namespace RegexTree

/-- The text has no line break. -/
def IsLine (s : String) : Prop := '\n' ∉ s.toList

instance (s : String) : Decidable (IsLine s) := inferInstanceAs (Decidable ('\n' ∉ s.toList))

/-- Lines with a line break behind each. -/
def ended (lines : List String) : String := String.join (lines.map (· ++ "\n"))

namespace Report

/-- The lines above the output line. -/
def heading (r : Report) : List String :=
  ["Compilation Report", "==================", "Format: " ++ r.format.name, "Nodes:  " ++ r.nodeCount.repr,
    "Depth:  " ++ r.depth.repr, "Tree:   " ++ r.tree]

/-- A text shows a regex as a report does: the regex is what the text has behind six lines and the label of the output. -/
def Shows (text regex : String) : Prop :=
  ∃ lines : List String, lines.length = 6 ∧ (∀ line ∈ lines, IsLine line) ∧ text = ended lines ++ "Output: " ++ regex

end Report

/-! ## Texts of one line -/

/-- Texts behind each other are a line where each of them is. -/
@[simp] theorem isLine_append {s t : String} : IsLine (s ++ t) ↔ IsLine s ∧ IsLine t := by
  unfold IsLine
  rw [String.toList_append, List.mem_append, not_or]

/-- Lines with a line between them are a line. -/
theorem isLine_intercalate {separator : String} (hs : IsLine separator) {parts : List String}
    (h : ∀ part ∈ parts, IsLine part) : IsLine (separator.intercalate parts) := by
  induction parts with
  | nil =>
    rw [String.intercalate_nil]
    decide
  | cons part parts ih =>
    rw [List.forall_mem_cons] at h
    rcases parts with _ | ⟨next, parts⟩
    · rw [String.intercalate_singleton]
      exact h.1
    · rw [String.intercalate_cons_cons, isLine_append, isLine_append]
      exact ⟨⟨h.1, hs⟩, ih h.2⟩

/-- A numeral is a line. -/
theorem isLine_repr (n : Nat) : IsLine n.repr := by
  unfold IsLine
  rw [Nat.toList_repr]
  exact notMem_toDigits rfl n

/-- What stands behind the first line begins with its line break. -/
theorem toList_ended_cons (line : String) (lines : List String) (rest : String) :
    (ended (line :: lines) ++ rest).toList = line.toList ++ '\n' :: (ended lines ++ rest).toList := by
  simp [ended]

/-- A text tells so many of its lines and what stands behind them. -/
theorem ended_inj {lines lines' : List String} (hlength : lines.length = lines'.length) (h : ∀ line ∈ lines, IsLine line)
    (h' : ∀ line ∈ lines', IsLine line) {rest rest' : String} (heq : ended lines ++ rest = ended lines' ++ rest') :
    lines = lines' ∧ rest = rest' := by
  induction lines generalizing lines' with
  | nil =>
    rcases lines' with _ | ⟨line', lines'⟩
    · exact ⟨rfl, (String.append_right_inj _).1 heq⟩
    · cases hlength
  | cons line lines ih =>
    rcases lines' with _ | ⟨line', lines'⟩
    · cases hlength
    · have hlists := congrArg String.toList heq
      rw [toList_ended_cons, toList_ended_cons] at hlists
      rw [List.forall_mem_cons] at h h'
      obtain ⟨hline, hbehind⟩ :=
        Span.append_inj (Span.bne_of_notMem h.1) (Span.bne_of_notMem h'.1) (by simp) (by simp) hlists
      rw [List.cons_inj_right] at hbehind
      obtain ⟨rfl, hrest⟩ := ih (Nat.succ.inj hlength) h.2 h'.2 (String.toList_injective hbehind)
      obtain rfl := String.toList_injective hline
      exact ⟨rfl, hrest⟩

/-! ## Trees on one line -/

namespace ReportAux

open Dump

/-- A hexadecimal numeral has no line break. -/
theorem break_notMem_toDigits (n : Nat) : '\n' ∉ Nat.toDigits 16 n := by
  have hdigit : ∀ d < 16, '\n' ≠ Nat.digitChar d := by decide
  intro hbreak
  obtain ⟨d, hd, heq⟩ := exists_digit_of_mem_toDigits (by decide) hbreak
  exact hdigit d hd heq

/-- A quoted character is no line break. -/
theorem break_notMem_quotedChar (c : Char) : '\n' ∉ Text.quotedChar c := by
  unfold Text.quotedChar
  split
  · decide
  split
  · decide
  split
  · decide
  split
  · decide
  rename_i hn
  split
  · decide
  split
  · decide
  split
  · rw [List.mem_append, List.mem_append, not_or, not_or]
    exact ⟨⟨by decide, break_notMem_toDigits c.toNat⟩, by decide⟩
  · rw [List.mem_singleton]
    exact Ne.symm hn

/-- A quoted text is a line. -/
theorem isLine_quoted (s : String) : IsLine (Text.quoted s) := by
  unfold IsLine Text.quoted
  simp only [String.toList_ofList, List.cons_append, List.mem_cons, List.mem_append, List.mem_flatMap, not_or, not_exists,
    not_and]
  exact ⟨by decide, fun c _ => break_notMem_quotedChar c, by decide, List.not_mem_nil⟩

theorem isLine_option {α : Type} {dump : α → String} (h : ∀ a, IsLine (dump a)) (value : Option α) :
    IsLine (option dump value) := by
  rcases value with _ | a
  · exact (by decide : IsLine "None")
  · simp +decide [option, h a]

theorem isLine_record {name : String} (hname : IsLine name) {fields : List (String × String)}
    (h : ∀ field ∈ fields, IsLine field.1 ∧ IsLine field.2) : IsLine (record name fields) := by
  have hfields : IsLine (", ".intercalate (fields.map fun f => f.1 ++ ": " ++ f.2)) := by
    apply isLine_intercalate (by decide)
    intro part hpart
    obtain ⟨field, hfield, rfl⟩ := List.mem_map.1 hpart
    simp +decide [h field hfield]
  simp +decide [record, hname, hfields]

theorem isLine_wrapped {name part : String} (hname : IsLine name) (hpart : IsLine part) : IsLine (wrapped name part) := by
  simp +decide [wrapped, hname, hpart]

theorem isLine_list {parts : List String} (h : ∀ part ∈ parts, IsLine part) : IsLine (list parts) := by
  have hparts : IsLine (", ".intercalate parts) := isLine_intercalate (by decide) h
  simp +decide [list, hparts]

theorem isLine_quantifier (q : Quantifier) : IsLine (quantifier q) := by
  have hcount : ∀ count, IsLine (option Quantifier.numeral count) := isLine_option fun n => isLine_repr n.toNat
  have hflag : ∀ flag : Option Bool, IsLine (option toString flag) := isLine_option fun b => by cases b <;> decide
  apply isLine_record (by decide)
  simp +decide [hcount, hflag]

theorem isLine_properties (p : Properties) : IsLine (properties p) := by
  have hcapture : IsLine p.capture.name := by cases p.capture <;> decide
  have hstyle : IsLine p.style.name := by cases p.style <;> decide
  apply isLine_record (by decide)
  simp +decide [isLine_option isLine_quoted, hcapture, hstyle]

theorem isLine_value (v : Value) : IsLine (value v) := by
  induction v with
  | literal text => exact isLine_wrapped (by decide) (isLine_quoted text)
  | nested inner ih => exact isLine_wrapped (by decide) ih

theorem isLine_node (notes : Notes) {kind : String} (h : IsLine kind) : IsLine (node notes kind) := by
  apply isLine_record (by decide)
  simp +decide [isLine_option isLine_quoted, isLine_option isLine_quantifier, h]

mutual
/-- A tree is dumped on one line. -/
theorem isLine_pattern : ∀ p : Pattern, IsLine (pattern p)
  | .leaf notes kind v => by
    rw [pattern]
    have hname : IsLine kind.toNodeType.name := by cases kind <;> decide
    exact isLine_node notes (isLine_wrapped hname (isLine_value v))
  | .group notes p children => by
    rw [pattern]
    have hchildren := isLine_list (isLine_patterns children)
    apply isLine_node notes
    apply isLine_record (by decide)
    simp +decide [hchildren, isLine_properties p]

/-- So is each tree of a list. -/
theorem isLine_patterns : ∀ ps : List Pattern, ∀ dumped ∈ patterns ps, IsLine dumped
  | [] => by
    intro dumped hd
    cases hd
  | p :: ps => by
    rw [patterns, List.forall_mem_cons]
    exact ⟨isLine_pattern p, isLine_patterns ps⟩
end

/-- Formats have different names. -/
theorem name_injective {format format' : Format} (h : format.name = format'.name) : format = format' := by
  revert h
  cases format <;> cases format' <;> decide

end ReportAux

/-! ## Reports -/

namespace Report

open ReportAux

variable {σ : Type} {r r' : Report}

/-- A printed report is its heading and the output line. -/
theorem text_eq (r : Report) : r.text = ended r.heading ++ "Output: " ++ r.output := by
  have htitle : "Compilation Report\n==================\nFormat: " =
      "Compilation Report" ++ "\n" ++ "==================" ++ "\n" ++ "Format: " := rfl
  have hnodes : "\nNodes:  " = "\n" ++ "Nodes:  " := rfl
  have hdepth : "\nDepth:  " = "\n" ++ "Depth:  " := rfl
  have htree : "\nTree:   " = "\n" ++ "Tree:   " := rfl
  have houtput : "\nOutput: " = "\n" ++ "Output: " := rfl
  unfold text
  rw [htitle, hnodes, hdepth, htree, houtput]
  simp only [ended, heading, List.map_cons, List.map_nil, String.join_cons, String.join_nil, String.append_assoc,
    String.append_empty]

/-- The tree of a report on a text is one line. -/
theorem isLine_tree {ids : IdSource σ} {limit : Nat} {text : String} {s : σ} (h : (ofText ids limit text s).1 = .ok r) :
    IsLine r.tree := by
  unfold ofText at h
  split at h
  · cases h
  · split at h
    · cases h
    · rename_i p _ _
      cases hc : p.compile limit with
      | error e =>
        rw [hc] at h
        cases h
      | ok output =>
        rw [hc] at h
        cases h
        exact isLine_pattern p

/-- Where the tree is one line, so is each part of the heading. -/
theorem isLine_heading {r : Report} (h : IsLine r.tree) : ∀ line ∈ r.heading, IsLine line := by
  have hformat : IsLine r.format.name := by cases r.format <;> decide
  simp +decide [heading, hformat, isLine_repr, h]

/-- A printed report shows its regex and no other text. -/
theorem shows_text_iff (h : IsLine r.tree) {regex : String} : Shows r.text regex ↔ r.output = regex := by
  constructor
  · rintro ⟨lines, hlength, hlines, heq⟩
    rw [text_eq, String.append_assoc, String.append_assoc] at heq
    have hlength' : r.heading.length = lines.length := hlength.symm
    obtain ⟨-, hrest⟩ := ended_inj hlength' (isLine_heading h) hlines heq
    exact (String.append_right_inj _).1 hrest
  · rintro rfl
    exact ⟨r.heading, rfl, isLine_heading h, text_eq r⟩

/-- Reports whose trees are one line are told apart by what is printed. -/
theorem text_eq_text_iff (h : IsLine r.tree) (h' : IsLine r'.tree) : r.text = r'.text ↔ r = r' := by
  constructor
  · intro heq
    rw [text_eq, text_eq, String.append_assoc, String.append_assoc] at heq
    have hlength : r.heading.length = r'.heading.length := rfl
    obtain ⟨hheading, hrest⟩ := ended_inj hlength (isLine_heading h) (isLine_heading h') heq
    have houtput : r.output = r'.output := (String.append_right_inj _).1 hrest
    simp only [heading, List.cons.injEq, String.append_right_inj] at hheading
    obtain ⟨-, -, hformat, hnodes, hdepth, htree, -⟩ := hheading
    rcases r with ⟨format, nodeCount, depth, tree, output⟩
    rcases r' with ⟨format', nodeCount', depth', tree', output'⟩
    rw [mk.injEq]
    exact ⟨name_injective hformat, repr_injective hnodes, repr_injective hdepth, htree, houtput⟩
  · intro heq
    rw [heq]

end Report

end RegexTree
