/-!
# Spans and numerals

A span is a stretch of characters that pass a test, with a rest behind it that does not begin with one. The test shows where the rest
begins, so the two can be told apart again (`Span.append_inj`). A numeral is a span of digits, which tell its number.
-/

namespace RegexTree

namespace Span

variable {test : Char → Bool} {cs cs' rest rest' : List Char}

/-- The characters that pass are taken as far as the rest. -/
theorem takeWhile_append (h : ∀ c ∈ cs, test c = true) (hr : ∀ c ∈ rest.head?, test c = false) :
    (cs ++ rest).takeWhile test = cs := by
  rw [List.takeWhile_append_of_pos h]
  cases rest with
  | nil => exact List.append_nil cs
  | cons c rest => rw [List.takeWhile_cons_of_neg (Bool.eq_false_iff.1 (hr c rfl)), List.append_nil]

/-- Without the characters that pass there is the rest. -/
theorem dropWhile_append (h : ∀ c ∈ cs, test c = true) (hr : ∀ c ∈ rest.head?, test c = false) :
    (cs ++ rest).dropWhile test = rest := by
  rw [List.dropWhile_append_of_pos h]
  cases rest with
  | nil => rfl
  | cons c rest => exact List.dropWhile_cons_of_neg (Bool.eq_false_iff.1 (hr c rfl))

/-- A text tells its span and the rest. -/
theorem append_inj (h : ∀ c ∈ cs, test c = true) (h' : ∀ c ∈ cs', test c = true) (hr : ∀ c ∈ rest.head?, test c = false)
    (hr' : ∀ c ∈ rest'.head?, test c = false) (heq : cs ++ rest = cs' ++ rest') : cs = cs' ∧ rest = rest' := by
  constructor
  · rw [← takeWhile_append h hr, heq, takeWhile_append h' hr']
  · rw [← dropWhile_append h hr, heq, dropWhile_append h' hr']

/-- Characters among which one is missing are a span up to it. -/
theorem bne_of_notMem {stop : Char} (h : stop ∉ cs) : ∀ c ∈ cs, (c != stop) = true := by
  intro c hc
  rw [bne_iff_ne]
  rintro rfl
  exact h hc

end Span

/-! ## Numerals -/

/-- A numeral of any base is made of the digits of the base. -/
theorem exists_digit_of_mem_toDigits {base n : Nat} {c : Char} (hb : 1 < base) (hc : c ∈ Nat.toDigits base n) :
    ∃ d < base, c = Nat.digitChar d := by
  induction n using Nat.strongRecOn with
  | _ n ih =>
    rw [Nat.toDigits_eq_if hb] at hc
    split at hc
    · rename_i hn
      exact ⟨n, hn, List.mem_singleton.1 hc⟩
    · rename_i hn
      rcases List.mem_append.1 hc with hc | hc
      · exact ih (n / base) (Nat.div_lt_self (by omega) hb) hc
      · exact ⟨n % base, Nat.mod_lt n (by omega), List.mem_singleton.1 hc⟩

/-- A numeral is made of digits. -/
theorem isDigit_toDigits (n : Nat) : ∀ c ∈ Nat.toDigits 10 n, c.isDigit = true := by
  intro c hc
  exact Nat.isDigit_of_mem_toDigits (by decide) (by decide) hc

/-- A character that is no digit is not in a numeral. -/
theorem notMem_toDigits {c : Char} (h : c.isDigit = false) (n : Nat) : c ∉ Nat.toDigits 10 n := by
  intro hc
  cases h.symm.trans (isDigit_toDigits n c hc)

/-- A numeral tells its number. -/
theorem toDigits_injective {n m : Nat} (h : Nat.toDigits 10 n = Nat.toDigits 10 m) : n = m := by
  calc n = Nat.ofDigitChars 10 (Nat.toDigits 10 n) 0 := Nat.ofDigitChars_ten_toDigits.symm
    _ = Nat.ofDigitChars 10 (Nat.toDigits 10 m) 0 := by rw [h]
    _ = m := Nat.ofDigitChars_ten_toDigits

/-- So does a numeral as a text. -/
theorem repr_injective {n m : Nat} (h : n.repr = m.repr) : n = m := by
  apply toDigits_injective
  rw [← Nat.toList_repr, h, Nat.toList_repr]

/-- The digits of a positive number begin with no zero. -/
theorem head?_toDigits {n : Nat} (h : 0 < n) : (Nat.toDigits 10 n).head? ≠ some '0' := by
  induction n using Nat.strongRecOn with
  | _ n ih =>
    rw [Nat.toDigits_eq_if (by decide)]
    split
    · rename_i hn
      simp
      omega
    · rename_i hn
      have := ih (n / 10) (by omega) (by omega)
      obtain ⟨d, ds, hds⟩ := List.exists_cons_of_ne_nil (Nat.toDigits_ne_nil (n := n / 10) (b := 10))
      rw [hds] at this ⊢
      exact this

/-- A zero leads no other digits. -/
theorem leading_toDigits (n : Nat) : (Nat.toDigits 10 n).head? ≠ some '0' ∨ Nat.toDigits 10 n = ['0'] := by
  cases n with
  | zero => exact Or.inr rfl
  | succ n => exact Or.inl (head?_toDigits (Nat.succ_pos n))

/-- A natural number has a first digit. -/
theorem toDigits_eq_cons (n : Nat) : ∃ c cs, Nat.toDigits 10 n = c :: cs ∧ c.isDigit := by
  obtain ⟨c, cs, hcs⟩ := List.exists_cons_of_ne_nil (Nat.toDigits_ne_nil (n := n) (b := 10))
  have hc : c ∈ Nat.toDigits 10 n := by simp [hcs]
  exact ⟨c, cs, hcs, isDigit_toDigits n c hc⟩

end RegexTree
