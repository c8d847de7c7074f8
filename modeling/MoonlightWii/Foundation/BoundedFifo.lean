import Mathlib.Data.List.Basic

/-!
# Bounded queues and what refines them

The specification is a list that takes a new item only while fewer than
`capacity` are held.  An implementation is observed through the items it
accepts and the results of its `pop` calls; it refines the specification when
its abstraction to a list commutes with both operations.
-/

set_option autoImplicit false

namespace Foundation.BoundedFifo

universe u v

variable {Item : Type u} {State : Type v}

inductive Call (Item : Type u) where
  | push (item : Item)
  | pop

structure Operations (State : Type v) (Item : Type u) where
  accepts : State → Bool
  push : State → Item → State
  pop : State → Option Item × State

/-- A state with what its callers have seen so far, oldest first. -/
structure History (State : Type v) (Item : Type u) where
  state : State
  accepted : List Item
  returned : List (Option Item)

def History.delivered (history : History State Item) : List Item :=
  history.returned.filterMap id

def perform (operations : Operations State Item) (history : History State Item) :
    Call Item → History State Item
  | .push item =>
      { history with
        state := operations.push history.state item
        accepted :=
          if operations.accepts history.state then history.accepted ++ [item]
          else history.accepted }
  | .pop =>
      { history with
        state := (operations.pop history.state).2
        returned := history.returned ++ [(operations.pop history.state).1] }

def performAll (operations : Operations State Item) (history : History State Item)
    (calls : List (Call Item)) : History State Item :=
  calls.foldl (perform operations) history

/-- The history before the first call. -/
def opened (state : State) : History State Item :=
  ⟨state, [], []⟩

/-! ## The specification -/

def fifo (capacity : Nat) : Operations (List Item) Item where
  accepts items := items.length != capacity
  push items item := if items.length = capacity then items else items ++ [item]
  pop items := (items.head?, items.tail)

/-- No item is lost, doubled or reordered: what was accepted is what was
delivered, followed by what is still held. -/
def Conserved (items : List Item) (history : History (List Item) Item) : Prop :=
  items ++ history.accepted = history.delivered ++ history.state

theorem fifo_perform_conserved (capacity : Nat) (items : List Item)
    (history : History (List Item) Item) (call : Call Item)
    (conserved : Conserved items history) :
    Conserved items (perform (fifo capacity) history call) := by
  unfold Conserved History.delivered at *
  cases call with
  | push item =>
      by_cases full : history.state.length = capacity
      · simpa [perform, fifo, full] using conserved
      · have accepted : (history.state.length != capacity) = true := by simpa using full
        simp only [perform, fifo, accepted, if_neg full, if_true]
        rw [← List.append_assoc, conserved, List.append_assoc]
  | pop =>
      cases held : history.state with
      | nil => simpa [perform, fifo, held] using conserved
      | cons oldest rest =>
          rw [held] at conserved
          simp [perform, fifo, held, conserved]

theorem fifo_conserved (capacity : Nat) (items : List Item) (calls : List (Call Item)) :
    ∀ history : History (List Item) Item, Conserved items history →
      Conserved items (performAll (fifo capacity) history calls) := by
  induction calls with
  | nil => intro history conserved; exact conserved
  | cons call rest inductionHypothesis =>
      intro history conserved
      exact inductionHypothesis _
        (fifo_perform_conserved capacity items history call conserved)

/-! ## Refinement -/

/-- The abstraction commutes with both operations and with the decision to
accept. -/
structure Refines (operations : Operations State Item) (capacity : Nat)
    (contents : State → List Item) : Prop where
  accepts : ∀ state, operations.accepts state = (fifo capacity).accepts (contents state)
  push : ∀ state item,
    contents (operations.push state item) = (fifo capacity).push (contents state) item
  pop : ∀ state,
    (operations.pop state).1 = (contents state).head? ∧
      contents (operations.pop state).2 = (contents state).tail

/-- The same history, seen through the abstraction. -/
def History.abstract (contents : State → List Item) (history : History State Item) :
    History (List Item) Item :=
  ⟨contents history.state, history.accepted, history.returned⟩

theorem perform_refines {operations : Operations State Item} {capacity : Nat}
    {contents : State → List Item} (refines : Refines operations capacity contents)
    (history : History State Item) (call : Call Item) :
    (perform operations history call).abstract contents =
      perform (fifo capacity) (history.abstract contents) call := by
  cases call with
  | push item =>
      simp only [perform, History.abstract, refines.accepts, refines.push]
      rfl
  | pop =>
      obtain ⟨returned, remaining⟩ := refines.pop history.state
      simp only [perform, History.abstract, returned, remaining, fifo]

theorem performAll_refines {operations : Operations State Item} {capacity : Nat}
    {contents : State → List Item} (refines : Refines operations capacity contents)
    (calls : List (Call Item)) :
    ∀ history : History State Item,
      (performAll operations history calls).abstract contents =
        performAll (fifo capacity) (history.abstract contents) calls := by
  induction calls with
  | nil => intro history; rfl
  | cons call rest inductionHypothesis =>
      intro history
      have stepped := perform_refines refines history call
      simp only [performAll, List.foldl_cons] at inductionHypothesis ⊢
      rw [inductionHypothesis, stepped]

end Foundation.BoundedFifo
