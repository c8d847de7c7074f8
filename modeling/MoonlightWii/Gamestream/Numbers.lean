import MoonlightWii.Foundation.TextRun
import MoonlightWii.Gamestream.Errors

/-!
# Printing and reading numbers

What `atoi` makes of a text that starts with digits, and of the text that `%d`
prints.
-/

set_option autoImplicit false

namespace MoonlightWii.Gamestream.Numbers

open Foundation.TextRun
open MoonlightWii.Gamestream.Errors

theorem digit_bounds {char : Char} (digit : char.isDigit = true) :
    48 ≤ char.toNat ∧ char.toNat ≤ 57 := by
  simp only [Char.isDigit, ge_iff_le, Bool.and_eq_true, decide_eq_true_eq] at digit
  exact ⟨UInt32.le_iff_toNat_le.mp digit.1, UInt32.le_iff_toNat_le.mp digit.2⟩

theorem not_isSpace_of_digit {char : Char} (digit : char.isDigit = true) :
    isSpace char = false := by
  have bounds := digit_bounds digit
  have notBlank : char ≠ ' ' := by
    rintro rfl
    exact absurd digit (by decide)
  simp only [isSpace, beq_eq_false_iff_ne.mpr notBlank, Bool.false_or, Bool.and_eq_false_iff,
    decide_eq_false_iff_not]
  omega

theorem digitsValue_eq (digits : CString) :
    digitsValue digits = (Nat.ofDigitChars 10 digits 0 : Nat) := by
  have fold (start : Nat) :
      digits.foldl (fun (value : Int) (digit : Char) =>
          value * 10 + (digit.toNat - '0'.toNat : Nat)) (start : Int) =
        (Nat.ofDigitChars 10 digits start : Nat) := by
    induction digits generalizing start with
    | nil => rfl
    | cons digit digits ih =>
        have next : (start : Int) * 10 + (digit.toNat - '0'.toNat : Nat) =
            (10 * start + (digit.toNat - '0'.toNat) : Nat) := by
          omega
        rw [List.foldl_cons, next, ih, Nat.ofDigitChars_cons]
  exact fold 0

theorem atoi_digits {digits rest : CString} (nonempty : digits ≠ [])
    (all : ∀ char ∈ digits, char.isDigit = true)
    (stops : Stops Char.isDigit rest) :
    atoi (digits ++ rest) = clampLong (digitsValue digits) := by
  obtain ⟨first, later, known⟩ := List.exists_cons_of_ne_nil nonempty
  have digit : first.isDigit = true := all first (by rw [known]; exact List.mem_cons_self)
  have start : (digits ++ rest).dropWhile isSpace = digits ++ rest := by
    rw [known]
    exact dropWhile_stopped (stops_cons (not_isSpace_of_digit digit) _)
  have read := takeWhile_run all stops
  rw [atoi, start]
  rw [known] at read ⊢
  rw [List.cons_append] at read ⊢
  split
  · rename_i same
    cases (List.cons.inj same).1
    exact absurd digit (by decide)
  · rename_i same
    cases (List.cons.inj same).1
    exact absurd digit (by decide)
  · rw [read]

/-- What stands behind a number, from the first letter that is no digit on, is not read. -/
theorem atoi_append {text rest : CString} (nonempty : text ≠ []) (start : Stops isSpace text)
    (stops : Stops Char.isDigit rest) : atoi (text ++ rest) = atoi text := by
  obtain ⟨first, later, known⟩ := List.exists_cons_of_ne_nil nonempty
  subst known
  have first_stops (others : CString) : Stops isSpace (first :: others) :=
    stops_cons (start first rfl) others
  have read := takeWhile_append_stopped later stops
  have whole := takeWhile_append_stopped (first :: later) stops
  rw [List.cons_append] at whole ⊢
  unfold atoi
  rw [dropWhile_stopped (first_stops (later ++ rest)), dropWhile_stopped (first_stops later)]
  by_cases minus : first = '-'
  · subst minus
    simp only [read]
  · by_cases plus : first = '+'
    · subst plus
      simp only [read]
    · split
      · rename_i same
        exact absurd (List.cons.inj same).1 minus
      · rename_i same
        exact absurd (List.cons.inj same).1 plus
      · split
        · rename_i same
          exact absurd (List.cons.inj same).1 minus
        · rename_i same
          exact absurd (List.cons.inj same).1 plus
        · rw [whole]

theorem atoi_minus_digits {digits rest : CString} (all : ∀ char ∈ digits, char.isDigit = true)
    (stops : Stops Char.isDigit rest) :
    atoi ('-' :: (digits ++ rest)) = clampLong (-digitsValue digits) := by
  have start : ('-' :: (digits ++ rest)).dropWhile isSpace = '-' :: (digits ++ rest) :=
    dropWhile_stopped (stops_cons (by decide) _)
  rw [atoi, start]
  simp only [takeWhile_run all stops]

/-! ## `%d` -/

theorem natDecimal_digits (n : Nat) : ∀ char ∈ n.repr.toList, char.isDigit = true := by
  intro char member
  rw [Nat.toList_repr] at member
  exact Nat.isDigit_of_mem_toDigits (by decide) (by decide) member

theorem natDecimal_nonempty (n : Nat) : n.repr.toList ≠ [] := by
  rw [Nat.toList_repr]
  exact Nat.toDigits_ne_nil

theorem natDecimal_value (n : Nat) : digitsValue n.repr.toList = n := by
  rw [digitsValue_eq, Nat.toList_repr, Nat.ofDigitChars_ten_toDigits]

theorem decimal_negSucc (n : Nat) : decimal (Int.negSucc n) = '-' :: (n + 1).repr.toList := by
  simp [decimal, Int.repr]

theorem clampLong_of_range {value : Int} (low : -2147483648 ≤ value) (high : value ≤ 2147483647) :
    clampLong value = value := by
  unfold clampLong
  rw [if_neg (by omega), if_neg (by omega)]

/-- `atoi` reads back what `%d` has printed. -/
theorem atoi_decimal {value : Int} {rest : CString} (low : -2147483648 ≤ value)
    (high : value ≤ 2147483647) (stops : Stops Char.isDigit rest) :
    atoi (decimal value ++ rest) = value := by
  cases value with
  | ofNat n =>
      have read := atoi_digits (natDecimal_nonempty n) (natDecimal_digits n) stops
      rw [natDecimal_value] at read
      exact read.trans (clampLong_of_range low high)
  | negSucc n =>
      rw [decimal_negSucc, List.cons_append, atoi_minus_digits (natDecimal_digits (n + 1)) stops,
        natDecimal_value]
      exact clampLong_of_range low high

/-- `%d` prints a sign or digits, never a blank or an empty text. -/
theorem decimal_length {value : Int} (low : -2147483648 ≤ value) (high : value ≤ 2147483647) :
    (decimal value).length ≤ 11 := by
  have short (n : Nat) (bound : n ≤ 2147483648) : n.repr.toList.length ≤ 10 := by
    rw [String.length_toList, Nat.length_repr_le_iff (by decide)]
    omega
  cases value with
  | ofNat n =>
      rw [Int.ofNat_eq_natCast] at high
      have bound := short n (by omega)
      exact Nat.le_trans bound (by decide)
  | negSucc n =>
      have bound := short (n + 1) (by omega)
      rw [decimal_negSucc, List.length_cons]
      omega

theorem decimal_chars (value : Int) :
    decimal value ≠ [] ∧ ∀ char ∈ decimal value, char = '-' ∨ char.isDigit = true := by
  cases value with
  | ofNat n =>
      exact ⟨natDecimal_nonempty n, fun char member => .inr (natDecimal_digits n char member)⟩
  | negSucc n =>
      rw [decimal_negSucc]
      refine ⟨List.cons_ne_nil _ _, fun char member => ?_⟩
      rcases List.mem_cons.mp member with minus | digit
      · exact .inl minus
      · exact .inr (natDecimal_digits (n + 1) char digit)

end MoonlightWii.Gamestream.Numbers
