import RegexTree.Codec
import RegexTree.Proofs.Json.Text
import RegexTree.Proofs.Presents

/-!
# Drafts of trees, read from JSON

The JSON value that a document is laid out as presents it (`presents`). From the text of a tree, its draft is read if the tree
fits in the levels that are looked into (`ofText?_encode`).
-/

namespace RegexTree.Json

open Document

/-- Parts of written documents are read from their JSON values alone. -/
theorem toItems_eq_map (ds : List Document) : toItems ds = ds.map toJson := by
  induction ds with
  | nil => rfl
  | cons d ds ih => rw [toItems, ih, List.map_cons]

/-- The members of a written record are its fields. -/
theorem fields?_toJson (names : List String) (fields : List (String × Document)) :
    fields? names (Document.record fields).toJson = some (fields.map fun f => (f.1, f.2.toJson)) := by
  simp only [toJson, fields?]
  induction fields with
  | nil => rfl
  | cons f fields ih =>
    simp only [toMembers, List.mapM_cons, ih]
    rfl

/-- An integer within 32 bits is a count. -/
theorem count?_of_numeral {l : NumberLiteral} {n : Int} (h : l.numeral? = some (.integer n)) (hn : 0 ≤ n ∧ n < UInt32.size) :
    count? (.number l) = some (UInt32.ofNat n.toNat) := by
  simp only [count?, h, bind, Option.bind, guard, if_pos hn]
  rfl

/-- A count is read. -/
theorem count?_toJson (n : UInt32) : count? (Document.count n).toJson = some n := by
  have hn : (NumberLiteral.ofNat n.toNat).numeral? = some (.integer n.toNat) :=
    numeral?_ofNat (Nat.le_trans (Nat.le_of_lt n.toNat_lt) (by decide))
  have hc := count?_of_numeral hn ⟨Int.natCast_nonneg _, by exact_mod_cast n.toNat_lt⟩
  rw [Int.toNat_natCast, UInt32.ofNat_toNat] at hc
  simp only [Document.count, toJson, literal, Int.toNat_natCast, hc]

/-- A value is read as its datum if the levels that are left hold its objects. -/
theorem datum?_ofValue (v : Value) (levels : Nat) :
    datum? levels (DraftValue.ofValue v).toDocument.toJson = if v.nesting ≤ levels then some v.toDatum else none := by
  induction v generalizing levels with
  | literal t => cases levels <;> rfl
  | nested inner ih =>
    cases levels with
    | zero => simp [DraftValue.ofValue, DraftValue.toDocument, toJson, datum?, Value.nesting]
    | succ levels =>
      simp only [DraftValue.ofValue, DraftValue.toDocument, toJson, toMembers, datum?, List.mapM_cons, List.mapM_nil, ih,
        Value.nesting, Nat.add_le_add_iff_right]
      split <;> rfl

/-- JSON presents what was written. -/
theorem presents : shape.Presents toJson where
  record names levels fields := by
    refine Shape.record_eq rfl rfl ?_ levels
    simp only [shape, fields?_toJson]
    rfl
  list levels items := by
    refine Shape.list_eq rfl rfl ?_ levels
    rw [← toItems_eq_map]
    rfl
  given
    | .null, h => h.elim
    | .flag _, _ | .number _, _ | .text _, _ | .list _, _ | .record _, _ => rfl
  text _ := rfl
  count n := by
    simp only [shape, count?_toJson]
    rfl
  flag _ := rfl
  choice _ _ := rfl
  datum levels v := by
    simp only [shape, datum?_ofValue]
    split <;> rfl

/-! ## Texts of trees -/

/-- A draft is read from a text as it is read from the JSON value of the text, with white space behind it too. -/
theorem parse?_write {β : Type} (read : Shape Json → Nat → Json → Reading β) (layout : Layout) {d : Document}
    (h : d.Regular) {ws : List Char} (hws : ∀ c ∈ ws, isSpace c) :
    parse? read (String.ofList (write layout 0 d ++ ws)) = (read shape levels d.toJson).run' 0 := by
  simp only [parse?, ofText?_write layout h hws, bind, Option.bind]

/-- A draft is read from a text as it is read from the JSON value of the text. -/
theorem parse?_text {β : Type} (read : Shape Json → Nat → Json → Reading β) (layout : Layout) {d : Document}
    (h : d.Regular) : parse? read (text layout d) = (read shape levels d.toJson).run' 0 := by
  rw [text, ← List.append_nil (write layout 0 d), parse?_write read layout h (show ∀ c ∈ [], isSpace c = true from List.forall_mem_nil _)]

/-- The draft of a tree is read from its text if the tree fits in the levels that are looked into, and else nothing is. -/
theorem ofText?_encode (layout : Layout) (p : Pattern) :
    Draft.ofText? .json (p.encode .json layout) = if p.containers ≤ levels then some p.toDraft else none := by
  have hr := presents.read_toDocument levels 1 levels rfl p
  have he : p.encode .json layout = text layout p.toDraft.toDocument := rfl
  rw [he, Draft.ofText?, parse?_text _ _ (regular_toDraft p), hr, Pattern.containers]
  split <;> rfl

/-- The drafts of a list of trees are read from its text if the trees fit in one level less. -/
theorem listOfText?_encodeList (ps : List Pattern) :
    Draft.listOfText? .json (Pattern.encodeList .json ps) =
      if Pattern.containersAtAll 1 ps < levels then some (Pattern.toDrafts ps) else none := by
  have hr := presents.mapM_read_toDocuments (levels - 1) 1 (levels - 1) rfl ps
  have he : Pattern.encodeList .json ps = text .compact (Document.list (Draft.toDocuments (Pattern.toDrafts ps))) := rfl
  have hc : (Document.list (Draft.toDocuments (Pattern.toDrafts ps))).Regular := regular_toDrafts ps
  have hl : Pattern.containersAtAll 1 ps < levels ↔ Pattern.containersAtAll 1 ps ≤ levels - 1 := by
    simp only [levels]
    omega
  rw [he, Draft.listOfText?, parse?_text _ _ hc, presents.readList_toDocuments (by decide), hr]
  simp only [hl]
  split <;> rfl

end RegexTree.Json
