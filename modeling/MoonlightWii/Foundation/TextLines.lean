import Mathlib.Data.List.Basic

/-!
# The lines of a text

Every line keeps its end; the last one may come without.  A text either has no end
of a line or begins with a whole line, and facts about texts are proved along this.
-/

set_option autoImplicit false

namespace Foundation.TextLines

universe u

variable {α : Type u} [DecidableEq α] {ends : α}

def textLines (ends : α) : List α → List (List α)
  | [] => []
  | letter :: rest =>
      if letter = ends then [letter] :: textLines ends rest
      else
        match textLines ends rest with
        | [] => [[letter]]
        | line :: lines => (letter :: line) :: lines

theorem textLines_line (line rest : List α) (whole : ends ∉ line) :
    textLines ends (line ++ ends :: rest) = (line ++ [ends]) :: textLines ends rest := by
  induction line with
  | nil => rw [List.nil_append, textLines, if_pos rfl, List.nil_append]
  | cons letter line ih =>
      have other : letter ≠ ends := fun same => whole (same ▸ List.mem_cons_self)
      have later := ih fun member => whole (List.mem_cons_of_mem _ member)
      rw [List.cons_append, textLines, if_neg other, later]
      rfl

theorem textLines_fragment (last : List α) (whole : ends ∉ last) (nonempty : last ≠ []) :
    textLines ends last = [last] := by
  induction last with
  | nil => exact absurd rfl nonempty
  | cons letter last ih =>
      have other : letter ≠ ends := fun same => whole (same ▸ List.mem_cons_self)
      rw [textLines, if_neg other]
      cases last with
      | nil => rfl
      | cons second last =>
          rw [ih (fun member => whole (List.mem_cons_of_mem _ member)) (List.cons_ne_nil _ _)]

/-- A property of texts without a line end that whole lines in front preserve holds
of every text. -/
theorem lines_induction {motive : List α → Prop} (ends : α)
    (fragment : ∀ last, ends ∉ last → motive last)
    (line : ∀ line rest, ends ∉ line → motive rest → motive (line ++ ends :: rest))
    (text : List α) : motive text := by
  induction size : text.length using Nat.strongRecOn generalizing text with
  | ind count ih =>
      by_cases found : ends ∈ text
      · obtain ⟨first, rest, split, whole⟩ := List.eq_append_cons_of_mem found
        have shorter : rest.length < count := by
          rw [← size, split, List.length_append, List.length_cons]
          omega
        rw [split]
        exact line first rest whole (ih rest.length shorter rest rfl)
      · exact fragment text found

theorem textLines_join (text : List α) : (textLines ends text).flatten = text := by
  induction text using lines_induction ends with
  | fragment last whole =>
      by_cases empty : last = []
      · rw [empty]
        rfl
      · rw [textLines_fragment last whole empty, List.flatten_singleton]
  | line line rest whole ih =>
      rw [textLines_line line rest whole, List.flatten_cons, ih, List.append_assoc]
      rfl

end Foundation.TextLines
