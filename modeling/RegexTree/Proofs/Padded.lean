import RegexTree.Proofs.Lines

/-!
# Texts with blanks around them

A JSON text keeps its format when blanks are put around it, whichever blanks these are, since they are trimmed before the format is
looked for. It is read untrimmed, though, and the grammar of JSON has only four blanks: with those around it a text decodes as it does
without them, and with any other it is refused (`padded_json_decodes`).
-/

namespace RegexTree

variable {σ : Type}

namespace PaddedAux

open Json LinesAux Pattern

/-! ## Blanks around a value -/

/-- A text begins with as many blanks as stand before its first character that is none. -/
theorem blanks_inj {u u' cs cs' : List Char} {c c' : Char} (hu : ∀ d ∈ u, Text.isBlank d = true)
    (hu' : ∀ d ∈ u', Text.isBlank d = true) (hc : cs.head? = some c) (hc' : cs'.head? = some c') (hb : Text.isBlank c = false)
    (hb' : Text.isBlank c' = false) (h : u ++ cs = u' ++ cs') : u = u' := by
  have hhead {ds : List Char} {d : Char} (hd : ds.head? = some d) (hdb : Text.isBlank d = false) :
      ∀ e ∈ ds.head?, Text.isBlank e = false := by
    intro e he
    rwa [← Option.some.inj (hd.symm.trans he)]
  exact (Span.append_inj hu hu' (hhead hc hb) (hhead hc' hb') h).1

/-- A value between blanks can be told from the blanks before it and behind it. -/
theorem blanks_around {j j' : Json} {u u' mid mid' v v' : List Char} (h : Spells j mid) (h' : Spells j' mid')
    (hu : ∀ d ∈ u, Text.isBlank d = true) (hu' : ∀ d ∈ u', Text.isBlank d = true) (hv : ∀ d ∈ v, Text.isBlank d = true)
    (hv' : ∀ d ∈ v', Text.isBlank d = true) (heq : u ++ (mid ++ v) = u' ++ (mid' ++ v')) : u = u' ∧ v = v' := by
  obtain ⟨first, last, hf, hl, hfb, hlb⟩ := ends_of_spells h
  obtain ⟨first', last', hf', hl', hfb', hlb'⟩ := ends_of_spells h'
  have hhead {cs ds : List Char} {c : Char} (hc : cs.head? = some c) : (cs ++ ds).head? = some c := by
    rw [List.head?_append, hc]
    rfl
  obtain rfl : u = u' := blanks_inj hu hu' (hhead hf) (hhead hf') hfb hfb' heq
  refine ⟨rfl, ?_⟩
  have hrev : v.reverse ++ mid.reverse = v'.reverse ++ mid'.reverse := by
    rw [← List.reverse_append, ← List.reverse_append, List.append_cancel_left heq]
  refine List.reverse_injective (blanks_inj ?_ ?_ ?_ ?_ hlb hlb' hrev)
  · intro d hd
    exact hv d (List.mem_reverse.1 hd)
  · intro d hd
    exact hv' d (List.mem_reverse.1 hd)
  · rw [List.head?_reverse, hl]
  · rw [List.head?_reverse, hl']

/-- The characters of a text that states a value, with blanks around it: the value between blanks. -/
theorem exists_around {text : String} {j : Json} (h : Json.ofText? text = some j) {u v : String} (hu : Text.isBlankText u)
    (hv : Text.isBlankText v) : ∃ before mid after, Space before ∧ Spells j mid ∧ Space after ∧
      (u ++ text ++ v).toList = u.toList ++ before ++ (mid ++ (after ++ v.toList)) ∧
      (∀ d ∈ u.toList ++ before, Text.isBlank d = true) ∧ ∀ d ∈ after ++ v.toList, Text.isBlank d = true := by
  obtain ⟨before, mid, after, hb, hm, ha, ht⟩ := ofText?_eq_some_iff.1 h
  refine ⟨before, mid, after, hb, hm, ha, ?_, ?_, ?_⟩
  · rw [String.toList_append, String.toList_append, ht]
    simp only [List.append_assoc]
  · exact List.forall_mem_append.2 ⟨List.all_eq_true.1 hu, isBlank_of_space hb⟩
  · exact List.forall_mem_append.2 ⟨isBlank_of_space ha, List.all_eq_true.1 hv⟩

/-! ## Reading -/

/-- A text with blanks around it states the value that it states without them if they are white space of the grammar, and no value
otherwise. -/
theorem ofText?_padded {text : String} {j : Json} (h : Json.ofText? text = some j) {u v : String} (hu : Text.isBlankText u)
    (hv : Text.isBlankText v) :
    Json.ofText? (u ++ text ++ v) = if (u ++ v).toList.all isSpace then some j else none := by
  obtain ⟨before, mid, after, hb, hm, ha, ht, hblank, hblank'⟩ := exists_around h hu hv
  by_cases hs : (u ++ v).toList.all isSpace
  · rw [if_pos hs]
    rw [String.toList_append, List.all_eq_true, List.forall_mem_append] at hs
    refine ofText?_eq_some_iff.2 ⟨u.toList ++ before, mid, after ++ v.toList, ?_, hm, ?_, ht⟩
    · exact List.forall_mem_append.2 ⟨hs.1, hb⟩
    · exact List.forall_mem_append.2 ⟨ha, hs.2⟩
  · rw [if_neg hs, Option.eq_none_iff_forall_ne_some]
    intro j' hj'
    obtain ⟨before', mid', after', hb', hm', ha', ht'⟩ := ofText?_eq_some_iff.1 hj'
    -- The blanks that the grammar takes are all the blanks there are, so those put around the text are among them.
    obtain ⟨rfl, rfl⟩ := blanks_around hm hm' hblank (isBlank_of_space hb') hblank' (isBlank_of_space ha') (ht.symm.trans ht')
    apply hs
    rw [String.toList_append, List.all_eq_true, List.forall_mem_append]
    exact ⟨fun c hc => hb' c (List.mem_append_left _ hc), fun c hc => ha' c (List.mem_append_right _ hc)⟩

/-- A value that stands in two characters is taken for JSON with blanks around it. -/
theorem detectEnclosed_padded {first last : Char} {text : String} {j : Json} (h : Json.ofText? text = some j)
    (hj : ∀ {mid}, Spells j mid → isEnclosed first last mid = true) {u v : String} (hu : Text.isBlankText u)
    (hv : Text.isBlankText v) : Format.detectEnclosed first last (u ++ text ++ v) = some .json := by
  obtain ⟨before, mid, after, -, hm, -, ht, hblank, hblank'⟩ := exists_around h hu hv
  unfold Format.detectEnclosed
  simp only [ht, trim_around hm hblank hblank', hj hm, if_true]

/-- An object with blanks around it is taken for JSON. -/
theorem detect_padded {text : String} {members : List (Option String × Json)} (h : Json.ofText? text = some (.object members))
    {u v : String} (hu : Text.isBlankText u) (hv : Text.isBlankText v) : Format.detect (u ++ text ++ v) = some .json :=
  detectEnclosed_padded h isEnclosed_brace hu hv

/-- An array with blanks around it is taken for a JSON list. -/
theorem detectList_padded {text : String} {items : List Json} (h : Json.ofText? text = some (.array items)) {u v : String}
    (hu : Text.isBlankText u) (hv : Text.isBlankText v) : Format.detectList (u ++ text ++ v) = some .json :=
  detectEnclosed_padded h isEnclosed_bracket hu hv

/-- What a JSON text states is read from the value of the text. -/
theorem parse?_padded {α : Type} (read : Shape Json → Nat → Json → Reading α) {text : String} {j : Json}
    (h : Json.ofText? text = some j) {u v : String} (hu : Text.isBlankText u) (hv : Text.isBlankText v) :
    Json.parse? read (u ++ text ++ v) = if (u ++ v).toList.all isSpace then Json.parse? read text else none := by
  unfold Json.parse?
  rw [ofText?_padded h hu hv, h]
  by_cases hs : (u ++ v).toList.all isSpace
  · rw [if_pos hs, if_pos hs]
  · rw [if_neg hs, if_neg hs]
    rfl

/-- As JSON, a text with blanks around it decodes as without them if they are white space of the grammar, and is refused otherwise. -/
theorem decodeAs_padded (ids : IdSource σ) {text : String} {j : Json} (h : Json.ofText? text = some j) {u v : String}
    (hu : Text.isBlankText u) (hv : Text.isBlankText v) (s : σ) :
    decodeAs ids .json (u ++ text ++ v) s =
      if (u ++ v).toList.all isSpace then decodeAs ids .json text s else (.error (.malformed (.unreadable .json)), s) := by
  unfold decodeAs Draft.ofText?
  simp only [parse?_padded Draft.read h hu hv]
  by_cases hs : (u ++ v).toList.all isSpace
  · rw [if_pos hs, if_pos hs]
  · rw [if_neg hs, if_neg hs]

/-- The same for a list. -/
theorem decodeListAs_padded (ids : IdSource σ) {text : String} {j : Json} (h : Json.ofText? text = some j) {u v : String}
    (hu : Text.isBlankText u) (hv : Text.isBlankText v) (s : σ) :
    decodeListAs ids .json (u ++ text ++ v) s =
      if (u ++ v).toList.all isSpace then decodeListAs ids .json text s else (.error (.malformed (.unreadable .json)), s) := by
  unfold decodeListAs Draft.listOfText?
  simp only [parse?_padded Draft.readList h hu hv]
  by_cases hs : (u ++ v).toList.all isSpace
  · rw [if_pos hs, if_pos hs]
  · rw [if_neg hs, if_neg hs]

/-- An object is taken for JSON. -/
theorem detect_object {text : String} {members : List (Option String × Json)} (h : Json.ofText? text = some (.object members)) :
    Format.detect text = some .json := by
  have hp : Format.detect ("" ++ text ++ "") = some .json := detect_padded h rfl rfl
  rwa [String.empty_append, String.append_empty] at hp

/-- An array is taken for a JSON list. -/
theorem detectList_array {text : String} {items : List Json} (h : Json.ofText? text = some (.array items)) :
    Format.detectList text = some .json := by
  have hp : Format.detectList ("" ++ text ++ "") = some .json := detectList_padded h rfl rfl
  rwa [String.empty_append, String.append_empty] at hp

end PaddedAux

open Pattern PaddedAux

/-- With blanks around it the text of a JSON object is taken for JSON still. If the blanks are white space of the grammar it decodes as
it does without them, to the same outcome with the same identifiers drawn. Otherwise it is refused before any identifier is drawn. The
same holds for the text of a JSON array that is decoded as a list. -/
theorem padded_json_decodes (ids : IdSource σ) {text : String} {j : Json} (h : Json.ofText? text = some j) {u v : String}
    (hu : Text.isBlankText u) (hv : Text.isBlankText v) (s : σ) :
    (∀ members, j = .object members →
      Format.detect text = some .json ∧ Format.detect (u ++ text ++ v) = some .json ∧
        decode ids (u ++ text ++ v) s =
          if (u ++ v).toList.all Json.isSpace then decode ids text s else (.error (.malformed (.unreadable .json)), s)) ∧
      ∀ items, j = .array items →
        Format.detectList text = some .json ∧ Format.detectList (u ++ text ++ v) = some .json ∧
          decodeList ids (u ++ text ++ v) s =
            if (u ++ v).toList.all Json.isSpace then decodeList ids text s
            else (.error (.malformed (.unreadable .json)), s) := by
  constructor
  · rintro members rfl
    have ht := detect_object h
    have hp := detect_padded h hu hv
    refine ⟨ht, hp, ?_⟩
    rw [decode_of_detect ids hp, decode_of_detect ids ht, decodeAs_padded ids h hu hv]
  · rintro items rfl
    have ht := detectList_array h
    have hp := detectList_padded h hu hv
    refine ⟨ht, hp, ?_⟩
    rw [decodeList_of_detectList ids hp, decodeList_of_detectList ids ht, decodeListAs_padded ids h hu hv]

/-- A list behind a tab, which is read, and behind a no-break space, which is not. -/
theorem padded_json_decodes_list :
    let text := "[\x7b\"Type\":\"Literal\",\"Value\":\"a\"\x7d]"
    let p : Pattern := .leaf { id := some "pattern-1" } .literal (.literal "a")
    (∃ items, Json.ofText? text = some (.array items)) ∧ Text.isBlankText "\t" ∧ Text.isBlankText "\u00a0" ∧ Text.isBlankText "\n" ∧
      decodeList .counting ("\t" ++ text ++ "\n") {} = (.ok [p], { next := 2 }) ∧
      decodeList .counting ("\u00a0" ++ text ++ "\n") {} = (.error (.malformed (.unreadable .json)), {}) := by
  intro text p
  have hj : Json.ofText? text =
      some (.array [.object [(some "Type", .string (some "Literal")), (some "Value", .string (some "a"))]]) := by
    rw [Json.ofText?]
    simp only [text, String.reduceToList]
    rfl
  have hblank : Text.isBlankText "\t" ∧ Text.isBlankText "\u00a0" ∧ Text.isBlankText "\n" := ⟨rfl, rfl, rfl⟩
  obtain ⟨-, hread⟩ := padded_json_decodes .counting hj hblank.1 hblank.2.2 {}
  obtain ⟨-, hrefused⟩ := padded_json_decodes .counting hj hblank.2.1 hblank.2.2 {}
  have hlist : decodeList .counting text {} = (.ok [p], { next := 2 }) := by
    rw [decodeList_of_detectList .counting (hread _ rfl).1, decodeListAs, Draft.listOfText?, Json.parse?, hj]
    rfl
  refine ⟨⟨_, hj⟩, hblank.1, hblank.2.1, hblank.2.2, ?_, ?_⟩
  · exact (hread _ rfl).2.2.trans hlist
  · exact (hrefused _ rfl).2.2

/-- An object that is accepted, and is refused with a no-break space in front of it, which is a blank that is trimmed before the format
is looked for. -/
theorem padded_json_refused :
    let text := "\x7b\"Type\":\"Literal\",\"Value\":\"a\"\x7d"
    let p : Pattern := .leaf { id := some "pattern-1" } .literal (.literal "a")
    (∃ members, Json.ofText? text = some (.object members)) ∧ decodeAs .counting .json text {} = (.ok p, { next := 2 }) ∧
      decode .counting text {} = (.ok p, { next := 2 }) ∧ Text.isBlankText "\u00a0" ∧
      Format.detect ("\u00a0" ++ text ++ "") = some .json ∧
      decode .counting ("\u00a0" ++ text ++ "") {} = (.error (.malformed (.unreadable .json)), {}) := by
  intro text p
  have hj : Json.ofText? text = some (.object [(some "Type", .string (some "Literal")), (some "Value", .string (some "a"))]) := by
    rw [Json.ofText?]
    simp only [text, String.reduceToList]
    rfl
  have hread : decodeAs .counting .json text {} = (.ok p, { next := 2 }) := by
    rw [decodeAs, Draft.ofText?, Json.parse?, hj]
    rfl
  have hblank : Text.isBlankText "\u00a0" := rfl
  have hdetect : Format.detect ("\u00a0" ++ text ++ "") = some .json := detect_padded hj hblank rfl
  refine ⟨⟨_, hj⟩, hread, (decode_of_detect .counting (detect_object hj) {}).trans hread, hblank, hdetect, ?_⟩
  rw [decode_of_detect .counting hdetect, decodeAs_padded .counting hj hblank rfl]
  rfl

end RegexTree
