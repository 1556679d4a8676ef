import RegexTree.Error
import RegexTree.Proofs.Resolved
import RegexTree.Proofs.Span

/-!
# Locations, told apart by their texts

The text of a location is its path with its node behind it, and each part shows where it ends: an index where the digits end, the path
at the first space, a kind where the letters end. An identifier may hold anything, the text of another location too, but it stands
between characters that do not depend on it. So no two locations have the same text (`Location.text_inj`).
-/

namespace RegexTree

namespace Location

/-- A path as the text of a location shows it, where the root is a lone slash. -/
def placeText (path : List Nat) : String := if path.isEmpty then "/" else pathText path

/-- The word behind the opening parenthesis: the name of the kind, and `id` where no kind is known. -/
def word : Option NodeType → String
  | some type => type.name
  | none => "id"

/-- What stands behind that word, given whether a kind is known. -/
def detail : Option NodeType → Option String → String
  | some _, some id => ", id '" ++ id ++ "')"
  | some _, none => ")"
  | none, some id => " '" ++ id ++ "')"
  | none, none => ""

end Location

namespace LocationsAux

open Location

/-! ## Paths -/

/-- A path begins with a slash and its first index. -/
theorem toList_pathText_cons (i : Nat) (is : List Nat) :
    (pathText (i :: is)).toList = '/' :: (Nat.toDigits 10 i ++ (pathText is).toList) := by
  simp [pathText]

/-- No digit follows an index. -/
theorem head?_pathText (path : List Nat) : ∀ c ∈ (pathText path).toList.head?, c.isDigit = false := by
  intro c hc
  cases path with
  | nil => cases hc
  | cons i is =>
    rw [toList_pathText_cons] at hc
    cases hc
    rfl

/-- Slashes and numerals tell the indices, and how many there are. -/
theorem pathText_injective {path path' : List Nat} (h : (pathText path).toList = (pathText path').toList) : path = path' := by
  induction path generalizing path' with
  | nil =>
    cases path' with
    | nil => rfl
    | cons j js =>
      rw [toList_pathText_cons] at h
      cases h
  | cons i is ih =>
    cases path' with
    | nil =>
      rw [toList_pathText_cons] at h
      cases h
    | cons j js =>
      rw [toList_pathText_cons, toList_pathText_cons, List.cons_inj_right] at h
      obtain ⟨hi, his⟩ :=
        Span.append_inj (isDigit_toDigits i) (isDigit_toDigits j) (head?_pathText is) (head?_pathText js) h
      rw [toDigits_injective hi, ih his]

/-- The slash of the root has no index behind it. -/
theorem pathText_ne_slash (i : Nat) (is : List Nat) : (pathText (i :: is)).toList ≠ ['/'] := by
  rw [toList_pathText_cons]
  simp [Nat.toDigits_ne_nil]

/-- A path is told by its text, the root among them. -/
theorem placeText_injective {path path' : List Nat} (h : (placeText path).toList = (placeText path').toList) : path = path' := by
  cases path with
  | nil =>
    cases path' with
    | nil => rfl
    | cons j js => exact absurd h.symm (pathText_ne_slash j js)
  | cons i is =>
    cases path' with
    | nil => exact absurd h (pathText_ne_slash i is)
    | cons j js => exact pathText_injective h

/-- A path has no space. -/
theorem space_notMem_pathText (path : List Nat) : ' ' ∉ (pathText path).toList := by
  induction path with
  | nil => decide
  | cons i is ih =>
    rw [toList_pathText_cons, List.mem_cons, List.mem_append, not_or, not_or]
    exact ⟨by decide, notMem_toDigits rfl i, ih⟩

/-- Neither has the root. -/
theorem space_notMem_placeText (path : List Nat) : ' ' ∉ (placeText path).toList := by
  cases path with
  | nil => decide
  | cons i is => exact space_notMem_pathText (i :: is)

/-! ## Nodes -/

/-- The word tells whether a kind is known, and which. -/
theorem ofName?_word (type : Option NodeType) : NodeType.ofName? (word type) = type := by
  cases type with
  | none => decide
  | some type => exact NodeType.ofName?_name type

/-- The word is made of letters. -/
theorem isAlpha_word (type : Option NodeType) : ∀ c ∈ (word type).toList, c.isAlpha = true := by
  rw [← List.all_eq_true]
  rcases type with _ | type
  · decide
  · cases type <;> decide

/-- No letter follows the word. -/
theorem head?_detail (type : Option NodeType) (id : Option String) : ∀ c ∈ (detail type id).toList.head?, c.isAlpha = false := by
  cases type <;> cases id <;> simp [detail]

/-- Behind the same word the detail tells the identifier, whatever it holds. -/
theorem detail_injective {type : Option NodeType} {id id' : Option String}
    (h : (detail type id).toList = (detail type id').toList) : id = id' := by
  cases id with
  | none =>
    cases id' with
    | none => rfl
    | some id' => cases type <;> simp [detail] at h
  | some id =>
    cases id' with
    | none => cases type <;> simp [detail] at h
    | some id' =>
      -- What stands around the identifier depends on the kind alone.
      have hid : id.toList = id'.toList := by cases type <;> simpa [detail] using h
      rw [String.toList_inj.1 hid]

/-- A node of which something is known is a word and its detail behind a space and a parenthesis. -/
theorem toList_nodeText {type : Option NodeType} {id : Option String} (h : type.isSome ∨ id.isSome) :
    (nodeText type id).toList = ' ' :: '(' :: ((word type).toList ++ (detail type id).toList) := by
  cases type with
  | some type => cases id <;> simp [nodeText, word, detail]
  | none =>
    cases id with
    | some id => simp [nodeText, word, detail]
    | none => simp at h

/-- A node of which nothing is known has no text. -/
theorem eq_none_of_unknown {type : Option NodeType} {id : Option String} (h : ¬(type.isSome ∨ id.isSome)) :
    type = none ∧ id = none := by
  simpa using h

/-- A node is told by its text. -/
theorem nodeText_injective {type type' : Option NodeType} {id id' : Option String}
    (h : (nodeText type id).toList = (nodeText type' id').toList) : type = type' ∧ id = id' := by
  by_cases hk : type.isSome ∨ id.isSome
  · rw [toList_nodeText hk] at h
    by_cases hk' : type'.isSome ∨ id'.isSome
    · rw [toList_nodeText hk', List.cons_inj_right, List.cons_inj_right] at h
      obtain ⟨hw, hd⟩ :=
        Span.append_inj (isAlpha_word type) (isAlpha_word type') (head?_detail type id) (head?_detail type' id') h
      obtain rfl : type = type' := by rw [← ofName?_word type, String.toList_inj.1 hw, ofName?_word]
      exact ⟨rfl, detail_injective hd⟩
    · obtain ⟨rfl, rfl⟩ := eq_none_of_unknown hk'
      cases h
  · obtain ⟨rfl, rfl⟩ := eq_none_of_unknown hk
    by_cases hk' : type'.isSome ∨ id'.isSome
    · rw [toList_nodeText hk'] at h
      cases h
    · obtain ⟨rfl, rfl⟩ := eq_none_of_unknown hk'
      exact ⟨rfl, rfl⟩

/-- A node begins with the space that ends the path. -/
theorem head?_nodeText (type : Option NodeType) (id : Option String) :
    ∀ c ∈ (nodeText type id).toList.head?, (c != ' ') = false := by
  intro c hc
  by_cases hk : type.isSome ∨ id.isSome
  · rw [toList_nodeText hk] at hc
    cases hc
    rfl
  · obtain ⟨rfl, rfl⟩ := eq_none_of_unknown hk
    cases hc

/-- A location is its path and its node, one behind the other. -/
theorem toList_text (l : Location) : l.text.toList = (placeText l.path).toList ++ (nodeText l.type l.id).toList :=
  String.toList_append

end LocationsAux

namespace Location

open LocationsAux

/-- Two locations with the same text are the same: the same path of indices, the same kind, if any, and the same identifier, if any,
whatever characters an identifier holds. -/
theorem text_inj {a b : Location} : a.text = b.text ↔ a = b := by
  constructor
  · intro h
    have hl := congrArg String.toList h
    rw [toList_text, toList_text] at hl
    obtain ⟨hp, hn⟩ := Span.append_inj (Span.bne_of_notMem (space_notMem_placeText a.path))
      (Span.bne_of_notMem (space_notMem_placeText b.path)) (head?_nodeText a.type a.id) (head?_nodeText b.type b.id) hl
    obtain ⟨htype, hid⟩ := nodeText_injective hn
    obtain ⟨path, type, id⟩ := a
    obtain ⟨path', type', id'⟩ := b
    rw [mk.injEq]
    exact ⟨placeText_injective hp, htype, hid⟩
  · rintro rfl
    rfl

/-- An identifier may read like the rest of the text of another location. -/
example : text { path := [1, 0], type := some .group, id := some "a') at pattern /1 (id 'a" } =
    "/1/0 (Group, id 'a') at pattern /1 (id 'a')" := by
  decide

end Location

end RegexTree
