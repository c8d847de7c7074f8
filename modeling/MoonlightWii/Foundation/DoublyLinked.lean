import Mathlib.Logic.Function.Basic
import Mathlib.Data.List.Basic

/-!
# Doubly linked lists

Entries in memory that are linked forward and backward, as the list of their addresses.
-/

set_option autoImplicit false

namespace Foundation.DoublyLinked

universe u

variable {Address : Type u}

structure Links (Address : Type u) where
  flink : Address → Option Address
  blink : Address → Option Address

/-- The entries are linked in this order, behind another or none. -/
def Linked (links : Links Address) : Option Address → List Address → Prop
  | _, [] => True
  | before, address :: rest =>
    links.blink address = before ∧ links.flink address = rest.head? ∧
      Linked links (some address) rest

/-- The entries found by following the forward links. -/
def walk (links : Links Address) : ℕ → Option Address → List Address
  | 0, _ => []
  | _ + 1, none => []
  | steps + 1, some address => address :: walk links steps (links.flink address)

variable {links other : Links Address} {before : Option Address} {addresses : List Address}

theorem Linked.congr (linked : Linked links before addresses)
    (same : ∀ address ∈ addresses, other.flink address = links.flink address ∧
      other.blink address = links.blink address) : Linked other before addresses := by
  induction addresses generalizing before with
  | nil => trivial
  | cons address rest ih =>
      obtain ⟨backward, forward, linked⟩ := linked
      obtain ⟨flink, blink⟩ := same address List.mem_cons_self
      exact ⟨blink.trans backward, flink.trans forward,
        ih linked fun other member => same other (List.mem_cons_of_mem _ member)⟩

theorem walk_linked (linked : Linked links before addresses) :
    walk links addresses.length addresses.head? = addresses := by
  induction addresses generalizing before with
  | nil => rfl
  | cons address rest ih =>
      obtain ⟨_, forward, linked⟩ := linked
      change address :: walk links rest.length (links.flink address) = _
      rw [forward, ih linked]

variable [DecidableEq Address]

/-- Clearing the backward link of the entry that becomes the first. -/
def clearBlink (links : Links Address) : Option Address → Links Address
  | none => links
  | some first => { links with blink := Function.update links.blink first none }

theorem Linked.removeHead {first : Address}
    (linked : Linked links before (first :: addresses)) (distinct : addresses.Nodup) :
    Linked (clearBlink links addresses.head?) none addresses := by
  cases addresses with
  | nil => trivial
  | cons next rest =>
      obtain ⟨_, _, _, forward, linked⟩ := linked
      have absent := (List.nodup_cons.mp distinct).1
      refine ⟨Function.update_self .., forward, linked.congr fun address member => ⟨rfl, ?_⟩⟩
      have differs : address ≠ next := by
        rintro rfl
        exact absent member
      exact Function.update_of_ne differs ..

/-- Linking an entry behind the last. -/
def append (links : Links Address) (last : Option Address) (entry : Address) : Links Address where
  flink := match last with
    | none => Function.update links.flink entry none
    | some last => Function.update (Function.update links.flink entry none) last (some entry)
  blink := Function.update links.blink entry last

theorem Linked.append {entry : Address} (linked : Linked links before addresses)
    (distinct : addresses.Nodup) (absent : entry ∉ addresses) (some_before : addresses ≠ []) :
    Linked (DoublyLinked.append links addresses.getLast? entry) before (addresses ++ [entry]) := by
  induction addresses generalizing before with
  | nil => exact absurd rfl some_before
  | cons address rest ih =>
      obtain ⟨backward, forward, linked⟩ := linked
      have differs : address ≠ entry := fun same => absent (same ▸ List.mem_cons_self)
      have outside : entry ∉ rest := fun member => absent (List.mem_cons_of_mem _ member)
      obtain ⟨apart, distinct⟩ := List.nodup_cons.mp distinct
      cases rest with
      | nil =>
          refine ⟨?_, Function.update_self .., Function.update_self .., ?_, trivial⟩
          · exact (Function.update_of_ne differs ..).trans backward
          · exact (Function.update_of_ne differs.symm ..).trans (Function.update_self ..)
      | cons next rest =>
          refine ⟨?_, ?_, ?_⟩
          · exact (Function.update_of_ne differs ..).trans backward
          · rw [List.getLast?_cons_cons]
            have last_apart : ∀ last, (next :: rest).getLast? = some last → address ≠ last :=
              fun last found same => apart (same ▸ List.mem_of_getLast? found)
            cases found : (next :: rest).getLast? with
            | none => exact (Function.update_of_ne differs ..).trans forward
            | some last =>
                exact (Function.update_of_ne (last_apart last found) ..).trans
                  ((Function.update_of_ne differs ..).trans forward)
          · rw [List.getLast?_cons_cons]
            exact ih linked distinct outside (List.cons_ne_nil _ _)

theorem linked_singleton (links : Links Address) (entry : Address) :
    Linked (DoublyLinked.append links none entry) none [entry] :=
  ⟨Function.update_self .., Function.update_self .., trivial⟩

end Foundation.DoublyLinked
