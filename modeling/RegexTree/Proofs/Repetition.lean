import RegexTree.Proofs.Span
import RegexTree.Proofs.Violations

/-!
# What a suffix says

A suffix is read as regexes are: nothing for once, an operator or counts in braces for anything else. The suffix of a quantifier
reads as the repetition that the quantifier asks for, with a question mark behind it where the quantifier is lazy
(`suffix_says_repetition`).
-/

namespace RegexTree

/-- How many times something may repeat: no fewer than the least, and no more than the most if there is one. -/
structure Repetition where
  least : Nat
  most : Option Nat
  deriving DecidableEq

namespace Repetition

/-- The count that decimal digits write, of which there is at least one. -/
def count? (cs : List Char) : Option Nat :=
  if !cs.isEmpty && cs.all Char.isDigit then some (Nat.ofDigitChars 10 cs 0) else none

/-- What stands between braces: one count, or two with a comma between them, one of which may be missing. -/
def ofCounts? (cs : List Char) : Option Repetition :=
  let first := cs.takeWhile (· != ',')
  match cs.dropWhile (· != ',') with
  | [] => (count? first).map fun n => ⟨n, some n⟩
  | _ :: second =>
    if first.isEmpty then (count? second).map (⟨0, some ·⟩)
    else if second.isEmpty then (count? first).map (⟨·, none⟩)
    else do return ⟨← count? first, some (← count? second)⟩

/-- What a suffix says that is not lazy. -/
def ofText? (text : String) : Option Repetition :=
  match text.toList with
  | [] => some ⟨1, some 1⟩
  | ['*'] => some ⟨0, none⟩
  | ['+'] => some ⟨1, none⟩
  | ['?'] => some ⟨0, some 1⟩
  | '\x7b' :: cs => if cs.getLast? = some '\x7d' then ofCounts? cs.dropLast else none
  | _ => none

end Repetition

/-- How many times a quantifier lets something repeat that is written as `preceding`. A positive exact count comes first, then the
limits. Without any count it is any number of times for a greedy quantifier, unless an operator stands before. Otherwise it is once. -/
def Quantifier.repetition (q : Quantifier) (preceding : String) : Repetition :=
  let n := (q.exactly.getD 0).toNat
  if 0 < n then ⟨n, some n⟩
  else if q.min.isSome ∨ q.max.isSome then ⟨(q.min.getD 0).toNat, q.max.map UInt32.toNat⟩
  else if q.greedy = some true ∧ q.exactly = none ∧ !preceding.toList.getLast?.any (['*', '+', '?'].contains ·) then ⟨0, none⟩
  else ⟨1, some 1⟩

namespace RepetitionAux

open Repetition

/-! ## Counts -/

/-- The digits of a count write it. -/
theorem count?_toDigits (n : Nat) : count? (Nat.toDigits 10 n) = some n := by
  have hd : (Nat.toDigits 10 n).all Char.isDigit := List.all_eq_true.2 (isDigit_toDigits n)
  have hne : (Nat.toDigits 10 n).isEmpty = false := by
    rw [List.isEmpty_eq_false_iff]
    exact Nat.toDigits_ne_nil
  rw [count?, hne, hd, Nat.ofDigitChars_toDigits (by decide) (by decide)]
  rfl

/-- A numeral goes as far as the next comma. -/
theorem split_toDigits (n : Nat) (rest : List Char) (h : ∀ c ∈ rest.head?, c = ',') :
    (Nat.toDigits 10 n ++ rest).takeWhile (· != ',') = Nat.toDigits 10 n ∧
      (Nat.toDigits 10 n ++ rest).dropWhile (· != ',') = rest := by
  have hd := Span.bne_of_notMem (notMem_toDigits (c := ',') rfl n)
  have hr : ∀ c ∈ rest.head?, (c != ',') = false := by
    intro c hc
    rw [h c hc]
    rfl
  exact ⟨Span.takeWhile_append hd hr, Span.dropWhile_append hd hr⟩

/-- One count. -/
theorem ofCounts?_one (n : Nat) : ofCounts? (Nat.toDigits 10 n) = some ⟨n, some n⟩ := by
  obtain ⟨ht, hd⟩ := split_toDigits n [] (by simp)
  rw [List.append_nil] at ht hd
  rw [ofCounts?, ht, hd, count?_toDigits]
  rfl

/-- A least count and no other. -/
theorem ofCounts?_least (n : Nat) : ofCounts? (Nat.toDigits 10 n ++ [',']) = some ⟨n, none⟩ := by
  obtain ⟨ht, hd⟩ := split_toDigits n [','] (by simp)
  rw [ofCounts?, ht, hd]
  simp [count?_toDigits, Nat.toDigits_ne_nil]

/-- A greatest count and no other. -/
theorem ofCounts?_most (n : Nat) : ofCounts? (',' :: Nat.toDigits 10 n) = some ⟨0, some n⟩ := by
  simp [ofCounts?, count?_toDigits]

/-- Two counts. -/
theorem ofCounts?_two (n m : Nat) : ofCounts? (Nat.toDigits 10 n ++ ',' :: Nat.toDigits 10 m) = some ⟨n, some m⟩ := by
  obtain ⟨ht, hd⟩ := split_toDigits n (',' :: Nat.toDigits 10 m) (by simp)
  rw [ofCounts?, ht, hd]
  simp [count?_toDigits, Nat.toDigits_ne_nil]

/-- Counts in braces. -/
theorem ofText?_braces {text : String} (cs : List Char) (h : text.toList = '\x7b' :: (cs ++ ['\x7d'])) :
    ofText? text = ofCounts? cs := by
  simp [ofText?, h]

/-- A numeral is the digits of its count. -/
theorem toList_numeral (n : UInt32) : (Quantifier.numeral n).toList = Nat.toDigits 10 n.toNat := by
  rw [Quantifier.numeral, Nat.toList_repr]

/-! ## Suffixes -/

/-- Limits read as themselves. -/
theorem ofText?_rangeText {min max : Option UInt32} {text : String} (h : Quantifier.rangeText min max = .ok text)
    (hs : min.isSome ∨ max.isSome) : ofText? text = some ⟨(min.getD 0).toNat, max.map UInt32.toNat⟩ := by
  unfold Quantifier.rangeText at h
  split at h
  · simp at hs
  · rename_i min
    cases h
    split
    · rename_i h0
      subst h0
      rfl
    · split
      · rename_i h1
        subst h1
        rfl
      · rw [ofText?_braces (Nat.toDigits 10 min.toNat ++ [','])]
        · exact ofCounts?_least min.toNat
        · simp [toList_numeral]
  · rename_i max
    cases h
    rw [ofText?_braces (',' :: Nat.toDigits 10 max.toNat)]
    · exact ofCounts?_most max.toNat
    · simp [toList_numeral]
  · rename_i min max
    split at h
    · rename_i h01
      cases h
      rw [h01.1, h01.2]
      rfl
    · split at h <;> cases h
      rw [ofText?_braces (Nat.toDigits 10 min.toNat ++ ',' :: Nat.toDigits 10 max.toNat)]
      · exact ofCounts?_two min.toNat max.toNat
      · simp [toList_numeral]

/-- An exact count reads as itself. -/
theorem ofText?_exactly (n : UInt32) :
    ofText? ("\x7b" ++ Quantifier.numeral n ++ "\x7d") = some ⟨n.toNat, some n.toNat⟩ := by
  rw [ofText?_braces (Nat.toDigits 10 n.toNat) (by simp [toList_numeral]), ofCounts?_one]

/-- A positive exact count is the bounds. -/
theorem bounds_of_exactly {q : Quantifier} {n : UInt32} (h : q.exactly = some n) (hn : 0 < n) :
    q.bounds = .ok ("\x7b" ++ Quantifier.numeral n ++ "\x7d") := by
  rw [Quantifier.bounds, h]
  exact if_pos hn

/-- A positive exact count is one that is stated. -/
theorem exists_of_exactly {q : Quantifier} (h : 0 < (q.exactly.getD 0).toNat) : ∃ n, q.exactly = some n ∧ 0 < n := by
  cases hx : q.exactly with
  | none =>
    rw [hx] at h
    cases h
  | some n =>
    rw [hx] at h
    exact ⟨n, rfl, h⟩

/-- An exact count of nothing is passed over. -/
theorem bounds_eq_rangeText {q : Quantifier} (h : ¬0 < (q.exactly.getD 0).toNat) :
    q.bounds = Quantifier.rangeText q.min q.max := by
  unfold Quantifier.bounds
  split
  · rename_i n hn
    rw [hn] at h
    exact if_neg h
  · rfl

/-- An operator stands last. -/
theorem endsInRepetition_eq (preceding : String) :
    Quantifier.endsInRepetition preceding = preceding.toList.getLast?.any (['*', '+', '?'].contains ·) := by
  unfold Quantifier.endsInRepetition
  cases preceding.toList.getLast? with
  | none => rfl
  | some c =>
    show (_ || _ || _) = _
    rw [Option.any_some, List.contains_cons, List.contains_cons, List.contains_cons, List.contains_nil, Bool.or_false,
      Bool.or_assoc]

/-- A star is allowed for a greedy quantifier without any count, where no operator stands before. -/
theorem allowsStar_iff {q : Quantifier} {preceding : String} :
    q.allowsStar preceding = true ↔
      (q.greedy = some true ∧ q.exactly = none ∧ !preceding.toList.getLast?.any (['*', '+', '?'].contains ·)) ∧
        q.min = none ∧ q.max = none := by
  simp only [Quantifier.allowsStar, Bool.and_eq_true, beq_iff_eq, Bool.not_eq_true', Option.isNone_iff_eq_none,
    endsInRepetition_eq]
  constructor
  · rintro ⟨⟨⟨⟨hg, hx⟩, hmin⟩, hmax⟩, he⟩
    exact ⟨⟨hg, hx, he⟩, hmin, hmax⟩
  · rintro ⟨⟨hg, hx, he⟩, hmin, hmax⟩
    exact ⟨⟨⟨⟨hg, hx⟩, hmin⟩, hmax⟩, he⟩

/-- An exact count, also of nothing, keeps the star away. -/
theorem not_allowsStar_of_exactly {q : Quantifier} {n : UInt32} (h : q.exactly = some n) (preceding : String) :
    ¬q.allowsStar preceding = true := by
  rw [allowsStar_iff, h]
  rintro ⟨⟨-, hn, -⟩, -⟩
  cases hn

/-- A limit keeps the star away. -/
theorem not_allowsStar_of_limits {q : Quantifier} (h : q.min.isSome ∨ q.max.isSome) (preceding : String) :
    ¬q.allowsStar preceding = true := by
  rw [allowsStar_iff]
  rintro ⟨-, hmin, hmax⟩
  rw [hmin, hmax] at h
  rcases h with h | h <;> cases h

/-- The bounds of a quantifier, with the star behind them where it is allowed, say the repetition that the quantifier asks for. -/
theorem ofText?_bounds {q : Quantifier} {bounds : String} (h : q.bounds = .ok bounds) (preceding : String) :
    ofText? (if q.allowsStar preceding then bounds ++ "*" else bounds) = some (q.repetition preceding) := by
  unfold Quantifier.repetition
  -- An exact count of nothing leaves the limits to be read, but it still keeps the star away.
  by_cases hx : 0 < (q.exactly.getD 0).toNat
  · obtain ⟨n, hn, hpos⟩ := exists_of_exactly hx
    rw [bounds_of_exactly hn hpos] at h
    cases h
    rw [if_neg (not_allowsStar_of_exactly hn preceding), ofText?_exactly, hn]
    exact congrArg some (if_pos (show 0 < n.toNat from hpos)).symm
  · rw [bounds_eq_rangeText hx] at h
    simp only [if_neg hx]
    by_cases hs : q.min.isSome ∨ q.max.isSome
    · rw [if_neg (not_allowsStar_of_limits hs preceding), if_pos hs]
      exact ofText?_rangeText h hs
    · obtain ⟨hmin, hmax⟩ := not_or.1 hs
      rw [Option.not_isSome_iff_eq_none] at hmin hmax
      rw [hmin, hmax] at h
      cases h
      rw [if_neg hs]
      by_cases hg : q.greedy = some true ∧ q.exactly = none ∧ !preceding.toList.getLast?.any (['*', '+', '?'].contains ·)
      · rw [if_pos (allowsStar_iff.2 ⟨hg, hmin, hmax⟩), if_pos hg]
        rfl
      · rw [if_neg (fun ha => hg (allowsStar_iff.1 ha).1), if_neg hg]
        rfl

/-- A suffix that ends in a question mark is one, unless it is lazy. -/
theorem eq_question_of_ofText? {text : String} {r : Repetition} (h : ofText? text = some r)
    (hq : text.toList.getLast? = some '?') : text = "?" := by
  unfold ofText? at h
  rw [← String.toList_inj]
  split at h
  · rename_i ht
    rw [ht] at hq
    cases hq
  · rename_i ht
    rw [ht] at hq
    cases hq
  · rename_i ht
    rw [ht] at hq
    cases hq
  · assumption
  · rename_i cs ht
    split at h
    · rename_i hc
      rw [ht, List.getLast?_cons, hc] at hq
      cases hq
    · cases h
  · cases h

/-- The suffix of a quantifier whose range is not inverted. -/
theorem suffix_eq {q : Quantifier} {bounds : String} (h : q.bounds = .ok bounds) (preceding : String) :
    ∃ said, Repetition.ofText? said = some (q.repetition preceding) ∧
      q.suffix preceding = .ok (if q.lazy = some true ∧ said ≠ "?" then said ++ "?" else said) := by
  have hr := ofText?_bounds h preceding
  refine ⟨_, hr, ?_⟩
  have hq : (if q.allowsStar preceding then bounds ++ "*" else bounds).toList.getLast? = some '?' ↔
      (if q.allowsStar preceding then bounds ++ "*" else bounds) = "?" := by
    constructor
    · exact eq_question_of_ofText? hr
    · intro he
      rw [he]
      rfl
  rw [Quantifier.suffix, h]
  show Except.ok _ = Except.ok _
  generalize (if q.allowsStar preceding then bounds ++ "*" else bounds) = said at hq ⊢
  congr 1
  simp [← hq]

/-- What is said by the suffix of a quantifier that is not lazy. -/
theorem ofText?_suffix {q : Quantifier} {preceding text : String} (hl : q.lazy ≠ some true)
    (h : q.suffix preceding = .ok text) : ofText? text = some (q.repetition preceding) := by
  rcases ViolationAux.bounds_cases q with ⟨-, bounds, hb⟩ | ⟨range, -, hb⟩
  · obtain ⟨said, hr, hs⟩ := suffix_eq hb preceding
    rw [h, if_neg (fun hx => hl hx.1)] at hs
    cases hs
    exact hr
  · rw [Quantifier.suffix, hb] at h
    cases h

/-- An inverted range is one whose maximum is below its minimum, where no positive exact count is stated. -/
theorem inverted?_eq_some {q : Quantifier} {range : Quantifier.BadRange} :
    q.inverted? = some range ↔
      (q.exactly = none ∨ q.exactly = some 0) ∧ q.min = some range.min ∧ q.max = some range.max ∧ range.max < range.min := by
  have hx : (!q.exactly.any (0 < ·)) = true ↔ q.exactly = none ∨ q.exactly = some 0 := by
    cases q.exactly with
    | none => simp
    | some n => simp [UInt32.pos_iff_ne_zero]
  unfold Quantifier.inverted?
  split
  · rename_i min max hmin hmax
    rw [hmin, hmax]
    constructor
    · intro h
      split at h
      · rename_i hr
        cases h
        exact ⟨hx.1 hr.2, rfl, rfl, hr.1⟩
      · cases h
    · rintro ⟨he, hmin, hmax, hlt⟩
      cases hmin
      cases hmax
      exact if_pos ⟨hlt, hx.2 he⟩
  · rename_i hne
    constructor
    · intro h
      cases h
    · rintro ⟨-, hmin, hmax, -⟩
      exact absurd hmax (hne _ _ hmin)

end RepetitionAux

namespace Quantifier

open RepetitionAux

/-- A quantifier has no suffix just where its maximum is below its minimum and no positive exact count is stated; then it fails with
these two. Otherwise its suffix says the repetition it asks for, and behind it stands a question mark where the quantifier is lazy and
what is said is not a question mark itself. So quantifiers that are not lazy ask for the same where their suffixes behind one text are
the same. -/
theorem suffix_says_repetition (q : Quantifier) (preceding : String) :
    (∀ range, q.suffix preceding = .error range ↔
      (q.exactly = none ∨ q.exactly = some 0) ∧ q.min = some range.min ∧ q.max = some range.max ∧ range.max < range.min) ∧
      ((∃ range, q.suffix preceding = .error range) ∨
        ∃ said, q.suffix preceding = .ok (if q.lazy = some true ∧ said ≠ "?" then said ++ "?" else said) ∧
          Repetition.ofText? said = some (q.repetition preceding)) ∧
      ∀ (q' : Quantifier) text, q.lazy ≠ some true → q'.lazy ≠ some true → q.suffix preceding = .ok text →
        q'.suffix preceding = .ok text → q.repetition preceding = q'.repetition preceding := by
  refine ⟨?_, ?_, ?_⟩
  · intro range
    rw [← inverted?_eq_some]
    rcases ViolationAux.bounds_cases q with ⟨hn, bounds, hb⟩ | ⟨range', hr, hb⟩
    · rw [hn, suffix, hb]
      constructor <;> intro h <;> cases h
    · rw [hr, suffix, hb]
      constructor <;> intro h <;> cases h <;> rfl
  · rcases ViolationAux.bounds_cases q with ⟨-, bounds, hb⟩ | ⟨range, -, hb⟩
    · obtain ⟨said, hr, hs⟩ := suffix_eq hb preceding
      exact Or.inr ⟨said, hs, hr⟩
    · exact Or.inl ⟨range, by rw [suffix, hb]; rfl⟩
  · intro q' text hl hl' h h'
    have hq := ofText?_suffix hl h
    rw [ofText?_suffix hl' h'] at hq
    exact (Option.some.inj hq).symm

/-- An exact count of nothing is passed over, so the two limits behind it ask for what they ask for alone. -/
theorem suffix_says_repetition_of_limits :
    let q : Quantifier := { exactly := some 0, min := some 2, max := some 9, lazy := some false, greedy := some true }
    q.lazy ≠ some true ∧ (between 2 9).lazy ≠ some true ∧ q.suffix "a" = .ok "\x7b2,9\x7d" ∧
      (between 2 9).suffix "a" = .ok "\x7b2,9\x7d" ∧ q.repetition "a" = (between 2 9).repetition "a" ∧
      Repetition.ofText? "\x7b2,9\x7d" = some ⟨2, some 9⟩ := by
  intro q
  obtain ⟨-, -, h⟩ := suffix_says_repetition q "a"
  exact ⟨by decide, by decide, rfl, rfl, h (between 2 9) "\x7b2,9\x7d" (by decide) (by decide) rfl rfl, by rfl⟩

end Quantifier

end RegexTree
