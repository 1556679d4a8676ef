import RegexTree.Proofs.Json.Scalar

/-!
# JSON texts, read back

`Document.toJson` is the JSON value that a document is laid out as, and `ofText?_write` says that reading the text of a document
gives this value, in either layout. The documents are regular ones, of which only the numbers matter here: they are counts,
since no other numbers are written.
-/

namespace RegexTree

open Json

namespace Document

/-- The literal of a count. No other numbers are written. -/
def literal : Number.Numeral → NumberLiteral
  | .integer n => .ofNat n.toNat
  | .float _ => .ofNat 0

mutual
/-- The JSON value that the document is laid out as. -/
def toJson : Document → Json
  | null => .null
  | flag value => .flag value
  | number value => .number (literal value)
  | text value => .string (some value)
  | list items => .array (toItems items)
  | record fields => .object (toMembers fields)

/-- The JSON values of a list of documents. -/
def toItems : List Document → List Json
  | [] => []
  | d :: ds => toJson d :: toItems ds

/-- The members of the object that a record is laid out as. -/
def toMembers : List (String × Document) → List (Option String × Json)
  | [] => []
  | (key, d) :: fields => (some key, toJson d) :: toMembers fields
end

end Document

namespace Json

/-! ## White space -/

/-- A line break with its indentation is white space. -/
theorem space_lineBreak (layout : Layout) (level : Nat) : Space (layout.lineBreak level) := by
  cases layout with
  | compact => exact nofun
  | indented =>
    intro c hc
    rcases List.mem_cons.1 hc with rfl | hc
    · rfl
    · rw [List.eq_of_mem_replicate hc]
      rfl

/-- What stands behind a colon is white space. -/
theorem space_gap (layout : Layout) : Space layout.gap := by
  cases layout with
  | compact => exact nofun
  | indented => exact List.forall_mem_singleton.2 rfl

/-! ## Lists and records -/

/-- The items of a list between its brackets. -/
def joinItems (layout : Layout) (level : Nat) : List Document → List Char
  | [] => []
  | d :: ds => write layout level d ++ writeItems layout level ds

/-- The fields of a record between its braces. -/
def joinFields (layout : Layout) (level : Nat) : List (String × Document) → List Char
  | [] => []
  | (key, d) :: fields =>
    quote key ++ ':' :: layout.gap ++ write layout level d ++ writeFields layout level fields

/-- The items after the first stand behind a comma. -/
theorem writeItems_cons (layout : Layout) (level : Nat) (d : Document) (ds : List Document) :
    writeItems layout level (d :: ds) = ',' :: layout.lineBreak level ++ joinItems layout level (d :: ds) := by
  simp only [writeItems, joinItems, List.cons_append, List.append_assoc]

/-- The fields after the first stand behind a comma. -/
theorem writeFields_cons (layout : Layout) (level : Nat) (f : String × Document) (fields : List (String × Document)) :
    writeFields layout level (f :: fields) = ',' :: layout.lineBreak level ++ joinFields layout level (f :: fields) := by
  simp only [writeFields, joinFields, List.cons_append, List.append_assoc]

/-- A list with items is its items in brackets. -/
theorem write_list (layout : Layout) (level : Nat) {ds : List Document} (hne : ds ≠ []) :
    write layout level (.list ds) =
      '[' :: (layout.lineBreak (level + 1) ++ (joinItems layout (level + 1) ds ++ (layout.lineBreak level ++ [']']))) := by
  cases ds with
  | nil => exact absurd rfl hne
  | cons d ds => simp only [write, joinItems, List.cons_append, List.append_assoc]

/-- A record with fields is its fields in braces. -/
theorem write_record (layout : Layout) (level : Nat) {fields : List (String × Document)} (hne : fields ≠ []) :
    write layout level (.record fields) =
      '\x7b' :: (layout.lineBreak (level + 1) ++
        (joinFields layout (level + 1) fields ++ (layout.lineBreak level ++ ['\x7d']))) := by
  cases fields with
  | nil => exact absurd rfl hne
  | cons f fields => simp only [write, joinFields, List.cons_append, List.append_assoc]

/-! ## Texts -/

/-- A count is written as its digits. -/
theorem write_count (layout : Layout) (level n : Nat) : write layout level (.number (.integer n)) = Nat.toDigits 10 n :=
  Number.Numeral.toList_text n

mutual
/-- A document spells its JSON value. -/
theorem spells_write (layout : Layout) (level : Nat) : (d : Document) → d.Regular → Spells d.toJson (write layout level d)
  | .null, _ => .null
  | .flag true, _ => .true
  | .flag false, _ => .false
  | .number value, h => by
    obtain ⟨n, rfl⟩ := h
    rw [write_count]
    exact .number (spellsNumber_toDigits n)
  | .text value, _ => .string (spellsString_quote value)
  | .list [], _ => .emptyArray (show Space [] from nofun)
  | .list (d :: ds), h => by
    have hi := spellsItems_join layout (level + 1) (space_lineBreak layout (level + 1)) (space_lineBreak layout level) (d :: ds)
      h (List.cons_ne_nil d ds)
    rw [write_list layout level (List.cons_ne_nil d ds)]
    simp only [← List.append_assoc]
    simp only [← List.append_assoc] at hi
    exact .array hi
  | .record [], _ => .emptyObject (show Space [] from nofun)
  | .record (f :: fields), h => by
    have hm := spellsMembers_join layout (level + 1) (space_lineBreak layout (level + 1)) (space_lineBreak layout level)
      (f :: fields) h (List.cons_ne_nil f fields)
    rw [write_record layout level (List.cons_ne_nil f fields)]
    simp only [← List.append_assoc]
    simp only [← List.append_assoc] at hm
    exact .object hm

/-- The items of a list spell the items of an array, with white space around them. -/
theorem spellsItems_join (layout : Layout) (level : Nat) {before after : List Char} (hb : Space before) (ha : Space after) :
    (ds : List Document) → Document.RegularItems ds → ds ≠ [] →
      SpellsItems (Document.toItems ds) (before ++ (joinItems layout level ds ++ after))
  | [], _, hne => absurd rfl hne
  | [d], h, _ => by
    rw [joinItems, writeItems, List.append_nil]
    exact .last hb (spells_write layout level d h.1.1) ha
  | d :: e :: ds, h, _ => by
    have hs := spellsItems_join layout level (space_lineBreak layout level) ha (e :: ds) h.2 (List.cons_ne_nil e ds)
    rw [joinItems, writeItems_cons]
    simp only [List.append_assoc, List.cons_append]
    exact SpellsItems.cons hb (spells_write layout level d h.1.1) (show Space [] from nofun) hs

/-- The fields of a record spell the members of an object, with white space around them. -/
theorem spellsMembers_join (layout : Layout) (level : Nat) {before after : List Char} (hb : Space before) (ha : Space after) :
    (fields : List (String × Document)) → Document.RegularFields fields → fields ≠ [] →
      SpellsMembers (Document.toMembers fields) (before ++ (joinFields layout level fields ++ after))
  | [], _, hne => absurd rfl hne
  | [(key, d)], h, _ => by
    rw [joinFields, writeFields, List.append_nil]
    simp only [List.append_assoc, List.cons_append]
    exact SpellsMembers.last hb (spellsString_quote key) (show Space [] from nofun) (space_gap layout)
      (spells_write layout level d h.1.2) ha
  | (key, d) :: f :: fields, h, _ => by
    have hs := spellsMembers_join layout level (space_lineBreak layout level) ha (f :: fields) h.2 (List.cons_ne_nil f fields)
    rw [joinFields, writeFields_cons]
    simp only [List.append_assoc, List.cons_append]
    exact SpellsMembers.cons hb (spellsString_quote key) (show Space [] from nofun) (space_gap layout)
      (spells_write layout level d h.1.2) (show Space [] from nofun) hs
end

/-- The text of a document is read back as its JSON value, in either layout, with white space behind it too. -/
theorem ofText?_write (layout : Layout) {d : Document} (h : d.Regular) {ws : List Char} (hws : ∀ c ∈ ws, isSpace c) :
    ofText? (String.ofList (write layout 0 d ++ ws)) = some d.toJson := by
  rw [ofText?_eq_some_iff, String.toList_ofList]
  exact ⟨[], write layout 0 d, ws, nofun, spells_write layout 0 d h, hws, rfl⟩

end Json

end RegexTree
