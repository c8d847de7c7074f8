import Mathlib.Data.List.Basic

/-!
# The last write wins

A fold whose steps either overwrite one field of the state or leave it, and when
such a fold ends where it began.
-/

set_option autoImplicit false

namespace Foundation.LastWrite

universe u v w

variable {σ : Type u} {ε : Type v} {α : Type w}

/-- The last of the events that write anything writes this value. -/
def LastIs (read : ε → Option α) (value : α) (events : List ε) : Prop :=
  ∀ last ∈ (events.filterMap read).getLast?, last = value

/-- No event writes anything. -/
def Never (read : ε → Option α) (events : List ε) : Prop :=
  ∀ event ∈ events, read event = none

/-- The field holds what the last writing event wrote. -/
theorem foldl_field {step : σ → ε → σ} {field : σ → α} {read : ε → Option α}
    (writes : ∀ state event, field (step state event) = (read event).getD (field state))
    (events : List ε) (state : σ) :
    field (events.foldl step state) =
      (events.filterMap read).getLast?.getD (field state) := by
  induction events generalizing state with
  | nil => rfl
  | cons event events ih =>
      rw [List.foldl_cons, ih, writes]
      cases written : read event with
      | none => rw [List.filterMap_cons_none written, Option.getD_none]
      | some value =>
          rw [List.filterMap_cons_some written, Option.getD_some, List.getLast?_cons]
          rfl

theorem foldl_unchanged {step : σ → ε → σ} {field : σ → α} {events : List ε}
    (keeps : ∀ event ∈ events, ∀ state, field (step state event) = field state) (state : σ) :
    field (events.foldl step state) = field state := by
  induction events generalizing state with
  | nil => rfl
  | cons event events ih =>
      have later := ih (fun other member => keeps other (List.mem_cons_of_mem _ member))
      rw [List.foldl_cons, later, keeps event List.mem_cons_self]

/-- A field that is not as it was has been changed by one of the steps. -/
theorem foldl_changed {step : σ → ε → σ} {field : σ → α} {events : List ε} {state : σ}
    (changed : field (events.foldl step state) ≠ field state) :
    ∃ event ∈ events, ∃ before, field (step before event) ≠ field before := by
  by_contra none
  apply changed
  apply foldl_unchanged
  intro event member before
  by_contra other
  exact none ⟨event, member, before, other⟩

/-- A relation that every step respects holds between the first value of the field and the
last. -/
theorem foldl_related {step : σ → ε → σ} {field : σ → α} {relation : α → α → Prop}
    (reflexive : ∀ value, relation value value)
    (transitive : ∀ first second third, relation first second → relation second third →
      relation first third)
    {events : List ε}
    (related : ∀ event ∈ events, ∀ state, relation (field state) (field (step state event)))
    (state : σ) : relation (field state) (field (events.foldl step state)) := by
  induction events generalizing state with
  | nil => exact reflexive (field state)
  | cons event events ih =>
      have later := ih (fun other member => related other (List.mem_cons_of_mem _ member))
      exact transitive _ _ _ (related event List.mem_cons_self state) (later (step state event))

theorem getD_eq_iff_lastIs (read : ε → Option α) (value : α) (events : List ε) :
    (events.filterMap read).getLast?.getD value = value ↔ LastIs read value events := by
  unfold LastIs
  cases (events.filterMap read).getLast? with
  | none => simp
  | some last => simp

/-- Events that can only depart from the value must not write at all. -/
theorem lastIs_iff_never {read : ε → Option α} {value : α}
    (departs : ∀ event, read event ≠ some value) (events : List ε) :
    LastIs read value events ↔ Never read events := by
  constructor
  · intro last event member
    cases written : (events.filterMap read).getLast? with
    | none =>
        rw [List.getLast?_eq_none_iff, List.filterMap_eq_nil_iff] at written
        exact written event member
    | some final =>
        obtain ⟨other, -, found⟩ := List.mem_filterMap.mp (List.mem_of_getLast? written)
        rw [last final written] at found
        exact absurd found (departs other)
  · intro never last final
    rw [List.filterMap_eq_nil_iff.mpr never] at final
    cases final

end Foundation.LastWrite
