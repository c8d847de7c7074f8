import Mathlib.Data.List.Infix

/-!
# The first place where a text matches

`firstAt` is the first position whose remaining text passes a test; `locate` is
the case of a fixed word.  A word that is found in the beginning of a text is
found at the same place in the whole, and text without the first letter of the
word can be skipped.
-/

set_option autoImplicit false

namespace Foundation.FirstMatch

universe u

variable {α : Type u}

def firstAt (test : List α → Bool) (text : List α) : Option Nat :=
  text.tails.findIdx? test

theorem firstAt_cons (test : List α → Bool) (first : α) (rest : List α) :
    firstAt test (first :: rest) =
      if test (first :: rest) then some 0 else (firstAt test rest).map (· + 1) := by
  simp [firstAt, List.findIdx?_cons]

theorem firstAt_some_iff (test : List α → Bool) (text : List α) (place : Nat) :
    firstAt test text = some place ↔
      place ≤ text.length ∧ test (text.drop place) = true ∧
        ∀ earlier < place, test (text.drop earlier) = false := by
  rw [firstAt, List.findIdx?_eq_some_iff_getElem]
  simp only [List.length_tails, List.getElem_tails, Bool.not_eq_true]
  constructor
  · rintro ⟨inside, found, before⟩
    exact ⟨by omega, found, fun earlier lt => before earlier lt⟩
  · rintro ⟨inside, found, before⟩
    exact ⟨by omega, found, fun earlier lt => before earlier lt⟩

/-- Text in which no position passes the test is skipped. -/
theorem firstAt_skip (test : List α → Bool) (skipped rest : List α)
    (fails : ∀ before after, skipped = before ++ after → after ≠ [] →
      test (after ++ rest) = false) :
    firstAt test (skipped ++ rest) = (firstAt test rest).map (· + skipped.length) := by
  induction skipped with
  | nil => simp
  | cons first skipped ih =>
      have here : test (first :: (skipped ++ rest)) = false :=
        fails [] (first :: skipped) rfl (List.cons_ne_nil _ _)
      have later := ih fun before after cut nonempty =>
        fails (first :: before) after (by rw [cut]; rfl) nonempty
      rw [List.cons_append, firstAt_cons, here, later]
      cases firstAt test rest with
      | none => rfl
      | some place => simp [Nat.add_assoc]

/-! ## A fixed word -/

section Word

variable [DecidableEq α]

def locate (word text : List α) : Option Nat := firstAt (fun rest => decide (word <+: rest)) text

theorem locate_some_iff (word text : List α) (place : Nat) :
    locate word text = some place ↔
      place ≤ text.length ∧ word <+: text.drop place ∧
        ∀ earlier < place, ¬ word <+: text.drop earlier := by
  rw [locate, firstAt_some_iff]
  simp only [decide_eq_true_eq, decide_eq_false_iff_not]

theorem locate_end {word text : List α} {place : Nat} (found : locate word text = some place) :
    place + word.length ≤ text.length := by
  obtain ⟨inside, here, _⟩ := (locate_some_iff word text place).mp found
  have fits := here.length_le
  rw [List.length_drop] at fits
  omega

theorem locate_append {word text : List α} {place : Nat} (found : locate word text = some place)
    (rest : List α) : locate word (text ++ rest) = some place := by
  have inside := locate_end found
  obtain ⟨_, here, before⟩ := (locate_some_iff word text place).mp found
  refine (locate_some_iff word _ place).mpr ⟨by rw [List.length_append]; omega, ?_, ?_⟩
  · rw [List.drop_append_of_le_length (by omega)]
    exact here.trans (List.prefix_append _ _)
  · intro earlier lt match_
    rw [List.drop_append_of_le_length (by omega)] at match_
    refine before earlier lt (List.prefix_of_prefix_length_le match_ (List.prefix_append _ _) ?_)
    rw [List.length_drop]
    omega

theorem locate_append_none {word text : List α} (rest : List α)
    (missing : locate word (text ++ rest) = none) : locate word text = none := by
  cases found : locate word text with
  | none => rfl
  | some place =>
      rw [locate_append found rest] at missing
      cases missing

/-- Text without the first letter of the word is skipped. -/
theorem locate_skip {letter : α} {word : List α} (skipped rest : List α)
    (absent : letter ∉ skipped) :
    locate (letter :: word) (skipped ++ rest) =
      (locate (letter :: word) rest).map (· + skipped.length) := by
  refine firstAt_skip _ skipped rest fun before after cut nonempty => ?_
  cases after with
  | nil => exact absurd rfl nonempty
  | cons first later =>
      have other : letter ≠ first := by
        rintro rfl
        exact absent (by rw [cut]; simp)
      simp [List.cons_prefix_cons, other]

theorem locate_isSome_iff (word text : List α) :
    (locate word text).isSome = true ↔ word <:+: text := by
  rw [locate, firstAt, List.findIdx?_isSome, List.any_eq_true, List.infix_iff_prefix_suffix]
  simp only [List.mem_tails, decide_eq_true_eq]
  constructor
  · rintro ⟨rest, inside, here⟩
    exact ⟨rest, here, inside⟩
  · rintro ⟨rest, here, inside⟩
    exact ⟨rest, inside, here⟩

end Word

end Foundation.FirstMatch
