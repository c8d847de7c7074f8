import Mathlib.Algebra.BigOperators.Group.Finset.Basic
import Mathlib.Algebra.BigOperators.Group.Finset.Piecewise
import Mathlib.Data.Finset.Option

/-!
# A partial map into places

Some members have a place, and no two members share one.  A set of members gives
the set of their places; a set of places is read back as the set of the members
that hold them.  Places that came from members are as many as the members they
are read back to.  Without the second assumption a place counts once for every
member that names it.
-/

set_option autoImplicit false

namespace Foundation.PartialIndex

universe u v

variable {α : Type u} {β : Type v}

/-- No two members share a place. -/
def Separates (index : α → Option β) : Prop :=
  ∀ first second place, index first = some place → index second = some place → first = second

section Sets

variable [DecidableEq β] (index : α → Option β)

def places (members : Finset α) : Finset β :=
  members.biUnion fun member => (index member).toFinset

/-- Whether the member has a place, and the place is one of these. -/
def holds (taken : Finset β) (member : α) : Bool :=
  (index member).any fun place => decide (place ∈ taken)

def holders (within : Finset α) (taken : Finset β) : Finset α :=
  within.filter fun member => holds index taken member

theorem mem_places (members : Finset α) (place : β) :
    place ∈ places index members ↔ ∃ member ∈ members, index member = some place := by
  simp [places]

theorem holds_iff (taken : Finset β) (member : α) :
    holds index taken member = true ↔ ∃ place, index member = some place ∧ place ∈ taken := by
  cases placed : index member <;> simp [holds, placed]

@[simp] theorem holds_empty (member : α) : holds index ∅ member = false := by
  cases placed : index member <;> simp [holds, placed]

theorem mem_holders (within : Finset α) (taken : Finset β) (member : α) :
    member ∈ holders index within taken ↔
      member ∈ within ∧ ∃ place, index member = some place ∧ place ∈ taken := by
  rw [holders, Finset.mem_filter, holds_iff]

/-- Reading places back that came from `members` gives members only. -/
theorem holder_is_member (separates : Separates index) (members : Finset α) (taken : Finset β)
    (came : taken ⊆ places index members) (member : α) :
    holds index taken member = true ↔
      member ∈ members ∧ ∃ place, index member = some place ∧ place ∈ taken := by
  rw [holds_iff]
  constructor
  · rintro ⟨place, placed, inTaken⟩
    obtain ⟨source, inMembers, sourcePlaced⟩ := (mem_places index members place).mp (came inTaken)
    have same := separates source member place sourcePlaced placed
    exact ⟨same ▸ inMembers, place, placed, inTaken⟩
  · rintro ⟨-, found⟩
    exact found

theorem card_holders (separates : Separates index) (members within : Finset α)
    (inside : members ⊆ within) (taken : Finset β) (came : taken ⊆ places index members) :
    (holders index within taken).card = taken.card := by
  have placeOf : ∀ member ∈ holders index within taken,
      ∃ place, index member = some place ∧ place ∈ taken := by
    intro member held
    exact ((mem_holders index within taken member).mp held).2
  refine Finset.card_bij (fun member held => (placeOf member held).choose) ?_ ?_ ?_
  · intro member held
    exact (placeOf member held).choose_spec.2
  · intro first firstHeld second secondHeld same
    have firstPlaced := (placeOf first firstHeld).choose_spec.1
    have secondPlaced := (placeOf second secondHeld).choose_spec.1
    exact separates first second _ firstPlaced (same ▸ secondPlaced)
  · intro place inTaken
    obtain ⟨member, inMembers, placed⟩ := (mem_places index members place).mp (came inTaken)
    have held : member ∈ holders index within taken :=
      (mem_holders index within taken member).mpr ⟨inside inMembers, place, placed, inTaken⟩
    refine ⟨member, held, ?_⟩
    have chosen := (placeOf member held).choose_spec.1
    exact Option.some.inj (chosen.symm.trans placed)

end Sets

section Counts

variable [DecidableEq β] (index : α → Option β)

/-- How many members of the list name this place. -/
def naming (members : List α) (place : β) : Nat :=
  members.countP fun member => decide (index member = some place)

/-- Every place counts once for each member that names it. -/
theorem countP_holds (taken : Finset β) (members : List α) :
    members.countP (holds index taken) = ∑ place ∈ taken, naming index members place := by
  induction members with
  | nil => simp [naming]
  | cons first rest ih =>
      have one : (∑ place ∈ taken, if index first = some place then 1 else 0) =
          if holds index taken first = true then 1 else 0 := by
        cases placed : index first with
        | none => simp [holds, placed]
        | some place =>
            simp only [holds, placed, Option.any_some, Option.some.injEq, decide_eq_true_eq]
            exact Finset.sum_ite_eq taken place fun _ => 1
      have split : ∀ place, naming index (first :: rest) place =
          naming index rest place + if index first = some place then 1 else 0 := by
        intro place
        simp [naming, List.countP_cons]
      rw [List.countP_cons, ih, Finset.sum_congr rfl fun place _ => split place,
        Finset.sum_add_distrib, one]

end Counts

end Foundation.PartialIndex
