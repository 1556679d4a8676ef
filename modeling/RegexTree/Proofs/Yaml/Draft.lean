import RegexTree.Codec
import RegexTree.Proofs.Presents
import RegexTree.Proofs.Yaml.Node

/-!
# Drafts of trees, read from YAML

The node of a document presents it (`presents`): counts are written as plain scalars that state them, and a text is written
plain only where nothing else is read from it. From the text of a tree, its draft is read if the tree fits in the levels that
are looked into (`ofText?_encode`).
-/

namespace RegexTree.Yaml

open Document

/-! ## Plain scalars -/

/-- A decimal digit is read as the number it stands for. -/
theorem digitOf?_digit {c : Char} (h : c.isDigit = true) : digitOf? 10 c = some (c.toNat - '0'.toNat) := by
  obtain ⟨h1, h2⟩ := Char.isDigit_iff_toNat.1 h
  have h1 : 0x30 ≤ c.toNat := h1
  have h2 : c.toNat ≤ 0x39 := h2
  have hv : c.toNat - 0x30 < 10 := by omega
  simp only [digitOf?, h1, h2, and_self, if_true, hv]
  rfl

/-- Digits are read as the number they stand for. -/
theorem digitsOf?_digits {cs : List Char} (hne : cs ≠ []) (h : ∀ c ∈ cs, c.isDigit = true) :
    digitsOf? 10 cs = some (Nat.ofDigitChars 10 cs 0) := by
  have hfold : ∀ (ds : List Char) (m : Nat), (∀ c ∈ ds, c.isDigit = true) →
      ds.foldlM (fun n c => (digitOf? 10 c).map (10 * n + ·)) m = some (Nat.ofDigitChars 10 ds m) := by
    intro ds
    induction ds with
    | nil => exact fun _ _ => rfl
    | cons c ds ih =>
      intro m h
      rw [List.forall_mem_cons] at h
      rw [List.foldlM_cons, digitOf?_digit h.1, Nat.ofDigitChars_cons, ← ih _ h.2]
      rfl
  cases cs with
  | nil => exact absurd rfl hne
  | cons c cs => exact hfold (c :: cs) 0 h

/-- A count is read from its digits. -/
theorem natural?_toDigits {n bound : Nat} (h : n ≤ bound) : natural? bound (Nat.toDigits 10 n) = some n := by
  have hv : boundedDigits? 10 bound (Nat.toDigits 10 n) = some n := by
    rw [boundedDigits?, digitsOf?_digits Nat.toDigits_ne_nil (isDigit_toDigits n), Nat.ofDigitChars_toDigits (by decide) (by decide)]
    simp [h]
  have hz := leading_toDigits n
  obtain ⟨c, cs, hcs, hc⟩ := toDigits_eq_cons n
  rw [hcs] at hz hv ⊢
  have hp : '+' ≠ c := by
    rintro rfl
    cases hc
  have hm : c ≠ '-' := by
    rintro rfl
    cases hc
  have hw : withoutPlus (c :: cs) = c :: cs := by simp [withoutPlus, behind?, hp]
  have hs : isSigned (c :: cs) = false := by simp [isSigned, Ne.symm hp, hm]
  have hb : ∀ d, behind? ['0', d] (c :: cs) = none := by
    intro d
    rcases hz with hz | hz
    · have hc0 : '0' ≠ c := by
        rintro rfl
        exact hz rfl
      simp [behind?, hc0]
    · rw [hz]
      rfl
  have hpad : isPadded (c :: cs) = false := by
    rcases hz with hz | hz
    · have hc0 : c ≠ '0' := by
        rintro rfl
        exact hz rfl
      simp [isPadded, hs, hc0]
    · rw [hz]
      rfl
  simp [natural?, hw, markedBases, hb, hs, hpad, hv]

/-- A text that is not ambiguous is read as a text where it is written plain, and states something. -/
theorem plainDatum?_of_unambiguous {cs : List Char} (h : isAmbiguous cs = false) :
    plainDatum? cs = some (.text (String.ofList cs)) ∧ (cs.isEmpty || isNull cs) = false := by
  obtain ⟨t, ht⟩ : ∃ t, plainDatum? cs = some (.text t) := by
    simp only [isAmbiguous, Bool.or_eq_false_iff] at h
    split at h
    · exact ⟨_, ‹_›⟩
    · cases h.2
  have hi : ∀ {n}, integer? cs = some n → n ≠ some (.text t) := by
    rintro n hn rfl
    unfold integer? at hn
    split at hn
    · cases hn
    · cases hn
    · split at hn <;> cases hn
  have hd := ht
  unfold plainDatum? at hd
  split at hd
  · cases hd
  · rename_i he
    refine ⟨?_, by simpa using he⟩
    split at hd
    · cases hd
    · split at hd
      · exact absurd hd (hi ‹_›)
      · split at hd
        · cases hd
        · rw [ht, hd]

/-- Digits do not state null. -/
theorem isNull_of_isDigit {c : Char} (h : c.isDigit = true) (cs : List Char) : isNull (c :: cs) = false := by
  rw [isNull, Bool.eq_false_iff, ne_eq, List.contains_iff_mem]
  intro hm
  have hn : ∀ word ∈ ["~", "null", "Null", "NULL"], word.toList.head?.any Char.isDigit = false := by decide
  have hc := hn _ hm
  rw [String.toList_ofList, List.head?_cons, Option.any_some, h] at hc
  cases hc

/-- A plain scalar that does not state null states something. -/
theorem isGiven?_plain {text : String} (h : (text.toList.isEmpty || isNull text.toList) = false) :
    isGiven? {} .plain text = some true := by
  rw [Bool.or_eq_false_iff] at h
  have ht : text ≠ "" := by
    rintro rfl
    exact absurd h.1 (by decide)
  simp [isGiven?, ht, h.2]

/-- A text that is written plain is not ambiguous. -/
theorem unambiguous_of_styleOf {cs : List Char} (h : styleOf cs = .plain) : isAmbiguous cs = false := by
  rcases Lexer.styleOf_cases cs with ⟨hs, -⟩ | ⟨-, ha, -⟩ | ⟨hs, -⟩ | hs
  · rw [hs] at h
    cases h
  · exact ha
  · rw [hs] at h
    cases h
  · rw [hs] at h
    cases h

/-- A text states something, in the style it is written in. -/
theorem isGiven?_text (t : String) : isGiven? {} (styleOf t.toList) t = some true := by
  by_cases hs : styleOf t.toList = .plain
  · rw [hs]
    exact isGiven?_plain (plainDatum?_of_unambiguous (unambiguous_of_styleOf hs)).2
  · simp [isGiven?, hs]

/-- A text states itself, in the style it is written in. -/
theorem scalarDatum?_text (t : String) : scalarDatum? {} (styleOf t.toList) t = some (.text t) := by
  have hn : localName? none = none := rfl
  by_cases hs : styleOf t.toList = .plain
  · have ht := (plainDatum?_of_unambiguous (unambiguous_of_styleOf hs)).1
    rw [String.ofList_toList] at ht
    simp [scalarDatum?, guard, hn, hs, ht]
  · simp [scalarDatum?, guard, hn, hs]

/-! ## Parts of documents -/

variable (tree : Tree)

/-- The node of a document refers to no other. -/
theorem resolve_toNode (d : Document) : resolve tree d.toNode = pure d.toNode := by
  cases d <;> rfl

/-- The items of a list have the nodes of the documents. -/
theorem toNodes_eq_map {ref : Type} (ds : List Document) : (toNodes ds : List (Node ref)) = ds.map toNode := by
  induction ds with
  | nil => rfl
  | cons d ds ih => rw [toNodes, ih, List.map_cons]

/-- The entries of a record are its fields. -/
theorem fields_toNode (fs : List (String × Document)) :
    fields tree (Document.record fs).toNode = pure (fs.map fun f => (f.1, f.2.toNode)) := by
  rw [fields, resolve_toNode, pure_bind, toNode]
  simp only
  induction fs with
  | nil => rfl
  | cons f fs ih =>
    rw [toEntries, List.mapM_cons, ih]
    rfl

/-- What states something is given. -/
theorem given_toNode {d : Document} (h : d.IsGiven) : given tree d.toNode = pure (some d.toNode) := by
  rw [given, resolve_toNode, pure_bind]
  cases d with
  | null => exact h.elim
  | flag value => cases value <;> rfl
  | number value =>
    obtain ⟨n, rfl⟩ := h
    obtain ⟨c, cs, hcs, hc⟩ := toDigits_eq_cons n
    have hg : isGiven? {} .plain (Number.Numeral.integer n).text = some true := by
      refine isGiven?_plain ?_
      rw [Number.Numeral.toList_text, hcs, isNull_of_isDigit hc]
      rfl
    simp only [toNode, hg]
    rfl
  | text value =>
    simp only [toNode, isGiven?_text]
    rfl
  | list items => rfl
  | record fields => rfl

/-- A count is read. -/
theorem count_toNode (n : UInt32) : count tree (Document.count n).toNode = pure n := by
  have hn : natural? (UInt64.size - 1) (Nat.toDigits 10 n.toNat) = some n.toNat :=
    natural?_toDigits (Nat.le_trans (Nat.le_of_lt n.toNat_lt) (by decide))
  have ht : typedText tree "int" (Document.count n).toNode = pure (Nat.toDigits 10 n.toNat) := by
    rw [← Number.Numeral.toList_text]
    rfl
  simp only [count, ht, pure_bind, hn, guard, if_pos n.toNat_lt, UInt32.ofNat_toNat]

/-- A flag is read. -/
theorem flag_toNode (b : Bool) : flag tree (Document.flag b).toNode = pure b := by
  cases b <;> rfl

/-- A scalar is read as what it states. -/
theorem datum_scalar {marks : Marks Nat} {style : Style} {t : String} {d : Datum} (h : scalarDatum? marks style t = some d)
    (levels : Nat) : datum tree levels (.scalar marks style t) = pure d := by
  have hr : resolve tree (.scalar marks style t) = pure (.scalar marks style t) := rfl
  cases levels with
  | zero => simp only [datum, hr, pure_bind, h]
  | succ levels => simp only [datum, hr, pure_bind, h]

/-- A value is read as its datum if the levels that are left hold its objects. -/
theorem datum_ofValue (v : Value) (levels : Nat) :
    datum tree levels (DraftValue.ofValue v).toDocument.toNode = if v.nesting ≤ levels then pure v.toDatum else failure := by
  induction v generalizing levels with
  | literal t =>
    rw [if_pos (show (Value.literal t).nesting ≤ levels from Nat.zero_le levels)]
    exact datum_scalar tree (scalarDatum?_text t) levels
  | nested inner ih =>
    have hk : scalarDatum? {} .plain "Value" = some (.text "Value") := by
      rw [← (fieldNames_spec "Value" (by decide)).1]
      exact scalarDatum?_text "Value"
    have hr := resolve_toNode tree (DraftValue.ofValue (.nested inner)).toDocument
    have hn : ((DraftValue.ofValue (.nested inner)).toDocument.toNode : Node Nat) =
        .mapping {} [(.scalar {} .plain "Value", (DraftValue.ofValue inner).toDocument.toNode)] := rfl
    cases levels with
    | zero =>
      rw [datum, hr, hn]
      rfl
    | succ levels =>
      have hle : inner.nesting ≤ levels ↔ (Value.nested inner).nesting ≤ levels + 1 := by
        simp only [Value.nesting, Nat.add_le_add_iff_right]
      rw [datum, hr, hn, pure_bind]
      simp only [List.mapM_cons, List.mapM_nil, datum_scalar tree hk, ih, ← hle]
      split <;> rfl

/-- YAML presents what was written. -/
theorem presents : (shape tree).Presents toNode where
  record _ levels fields :=
    Shape.record_eq (resolve_toNode tree (.record fields)) rfl (fields_toNode tree fields) levels
  list levels items := by
    refine Shape.list_eq (resolve_toNode tree (.list items)) rfl ?_ levels
    rw [← toNodes_eq_map]
    rfl
  given _ h := given_toNode tree h
  text _ := rfl
  count n := count_toNode tree n
  flag b := flag_toNode tree b
  choice _ _ := rfl
  datum levels v := datum_ofValue tree v levels

/-! ## Texts of trees -/

/-- The draft of a tree is read from a text with the tokens of the tree if the tree fits in the levels that are looked into, and
else nothing is. -/
theorem ofText?_of_treeTokens {cs : List Char} {p : Pattern}
    (ht : Token.ofChars? cs = some (p.toDraft.toDocument.tokens ++ [.streamEnd])) :
    Draft.ofText? .yaml (String.ofList cs) = if p.containers ≤ levels then some p.toDraft else none := by
  have hr := (presents ⟨p.toDraft.toDocument.toNode, []⟩).read_toDocument levels 1 levels rfl p
  have htree := ofText?_of_tokens (regular_toDraft p) (hasFields_toDraft p) ht
  simp only [Draft.ofText?, parse?, htree, Option.bind_eq_bind, Option.bind_some]
  rw [hr, Pattern.containers]
  split <;> rfl

/-- The draft of a tree is read from its text if the tree fits in the levels that are looked into, and else nothing is. -/
theorem ofText?_encode (layout : Json.Layout) (p : Pattern) :
    Draft.ofText? .yaml (p.encode .yaml layout) = if p.containers ≤ levels then some p.toDraft else none :=
  ofText?_of_treeTokens (ofChars?_write (regular_toDraft p) (hasFields_toDraft p))

end RegexTree.Yaml
