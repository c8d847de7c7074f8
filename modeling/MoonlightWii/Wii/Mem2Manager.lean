import Mathlib.Data.List.Pairwise
import Mathlib.Data.Nat.Bitwise
import Mathlib.Logic.Function.Basic
import MoonlightWii.Foundation.RegionStack

/-!
# Areas of the second memory (`mem2_manager.c`)

Areas are taken from the upper end of the arena, and the bound of the arena before is
kept with each.  Addresses are 32 bits wide, and the subtraction of the size wraps.
-/

set_option autoImplicit false

namespace MoonlightWii.Wii.Mem2Manager

open Foundation.RegionStack

/-- `st_mem2_area` without the heap inside the area. -/
structure Area where
  heapPtr : UInt32
  size : UInt32
  oldArena2hi : UInt32
  deriving DecidableEq

def noArea : Area := ⟨0, 0, 0⟩

structure Mem2 where
  inited : Bool
  areas : Nat → Area
  arena2Lo : UInt32
  arena2Hi : UInt32

/-- The state in which the program starts. -/
def start (arena2Lo arena2Hi : UInt32) : Mem2 := ⟨false, fun _ => noArea, arena2Lo, arena2Hi⟩

/-- `ROUNDDOWN32` -/
def roundDown32 (v : UInt32) : UInt32 := (v - 0x1f) &&& ~~~0x1f

section Calls

variable (mem2Max : Nat)

def initMem2Areas (mem : Mem2) : Mem2 :=
  { mem with inited := true, areas := fun i => if i < mem2Max then noArea else mem.areas i }

/-- An area that was taken later is still there. -/
def lowerArea (mem : Mem2) (area : Nat) : Bool :=
  (List.range mem2Max).any fun i =>
    i != area && (mem.areas i).oldArena2hi != 0 &&
      decide ((mem.areas i).oldArena2hi < (mem.areas area).oldArena2hi)

def removeMem2Area (mem : Mem2) (area : Nat) : Bool × Mem2 :=
  if mem2Max ≤ area ∨ (mem.areas area).size = 0 then (false, mem)
  else if lowerArea mem2Max mem area then (false, mem)
  else
    (true, { mem with
      arena2Hi := (mem.areas area).oldArena2hi
      areas := Function.update mem.areas area noArea })

/-- `AddMem2Area` once the area is not in use. -/
def takeMem2Area (mem : Mem2) (size : UInt32) (index : Nat) : Bool × Mem2 :=
  let heapPtr := roundDown32 (mem.arena2Hi - size)
  if heapPtr < mem.arena2Lo then
    (false, { mem with
      areas := Function.update mem.areas index
        { mem.areas index with oldArena2hi := 0, heapPtr := 0 } })
  else
    (true, { mem with
      arena2Hi := heapPtr
      areas := Function.update mem.areas index ⟨heapPtr, size, mem.arena2Hi⟩ })

def addMem2Area (mem : Mem2) (size : UInt32) (index : Nat) : Bool × Mem2 :=
  let ready := if mem.inited then mem else initMem2Areas mem2Max mem
  if mem2Max ≤ index ∨ size = 0 then (false, ready)
  else if (ready.areas index).size = size then (true, ready)
  else if (ready.areas index).size = 0 then takeMem2Area ready size index
  else
    let removed := removeMem2Area mem2Max ready index
    if removed.1 then takeMem2Area removed.2 size index else (false, removed.2)

inductive Call where
  | add (size : UInt32) (index : Nat)
  | remove (area : Nat)

def step (mem : Mem2) : Call → Bool × Mem2
  | .add size index => addMem2Area mem2Max mem size index
  | .remove area => removeMem2Area mem2Max mem area

end Calls

/-! ## What the areas should be -/

/-- The live areas lie in the arena, apart from each other and above its bound. -/
structure Sound (original : UInt32) (mem : Mem2) : Prop where
  inside : ∀ i, (mem.areas i).size ≠ 0 →
    mem.arena2Lo.toNat ≤ (mem.areas i).heapPtr.toNat ∧
      (mem.areas i).heapPtr.toNat + (mem.areas i).size.toNat ≤ original.toNat
  apart : ∀ i j, i ≠ j → (mem.areas i).size ≠ 0 → (mem.areas j).size ≠ 0 →
    (mem.areas i).heapPtr.toNat + (mem.areas i).size.toNat ≤ (mem.areas j).heapPtr.toNat ∨
      (mem.areas j).heapPtr.toNat + (mem.areas j).size.toNat ≤ (mem.areas i).heapPtr.toNat
  bound : ∀ i, (mem.areas i).size ≠ 0 → mem.arena2Hi.toNat ≤ (mem.areas i).heapPtr.toNat
  restored : (∀ i, (mem.areas i).size = 0) → mem.arena2Hi = original

/-- A call that returns false changes nothing. -/
def Kept (mem : Mem2) (result : Bool × Mem2) : Prop :=
  result.1 = false → result.2.areas = mem.areas ∧ result.2.arena2Hi = mem.arena2Hi

/-- Every call of a run keeps what it should. -/
def Holds (mem2Max : Nat) (original : UInt32) : List Call → Mem2 → Prop
  | [], mem => Sound original mem
  | call :: calls, mem =>
      Sound original mem ∧ Kept mem (step mem2Max mem call) ∧
        Holds mem2Max original calls (step mem2Max mem call).2

/-! ## Calls without wrapping and without a failed change of size -/

/-- The bound below which the area would be taken. -/
def boundFor (mem : Mem2) (index : Nat) : UInt32 :=
  if (mem.areas index).size = 0 then mem.arena2Hi else (mem.areas index).oldArena2hi

def Accepted (mem : Mem2) (size : UInt32) (index : Nat) : Prop :=
  mem.arena2Lo ≤ roundDown32 (boundFor mem index - size)

/-- `AddMem2Area` comes to take the area. -/
structure Takes (mem2Max : Nat) (mem : Mem2) (size : UInt32) (index : Nat) : Prop where
  index_lt : index < mem2Max
  nonzero : size ≠ 0
  other : (mem.areas index).size ≠ size
  removable : (mem.areas index).size ≠ 0 → lowerArea mem2Max mem index = false

instance (mem2Max : Nat) (mem : Mem2) (size : UInt32) (index : Nat) :
    Decidable (Takes mem2Max mem size index) :=
  decidable_of_iff (index < mem2Max ∧ size ≠ 0 ∧ (mem.areas index).size ≠ size ∧
      ((mem.areas index).size ≠ 0 → lowerArea mem2Max mem index = false))
    ⟨fun all => ⟨all.1, all.2.1, all.2.2.1, all.2.2.2⟩,
      fun takes => ⟨takes.index_lt, takes.nonzero, takes.other, takes.removable⟩⟩

/-- A size that wraps around is not accepted, and a live area changes its size only when
the new one is. -/
def Safe (mem2Max : Nat) (mem : Mem2) : Call → Prop
  | .add size index => Takes mem2Max mem size index →
      (Accepted mem size index → size.toNat + 31 ≤ (boundFor mem index).toNat) ∧
        ((mem.areas index).size ≠ 0 → Accepted mem size index)
  | .remove _ => True

instance (mem2Max : Nat) (mem : Mem2) : DecidablePred (Safe mem2Max mem)
  | .add size index =>
      inferInstanceAs (Decidable (Takes mem2Max mem size index →
        (mem.arena2Lo ≤ roundDown32 (boundFor mem index - size) →
          size.toNat + 31 ≤ (boundFor mem index).toNat) ∧
        ((mem.areas index).size ≠ 0 →
          mem.arena2Lo ≤ roundDown32 (boundFor mem index - size))))
  | .remove _ => inferInstanceAs (Decidable True)

def AllSafe (mem2Max : Nat) : List Call → Mem2 → Prop
  | [], _ => True
  | call :: calls, mem =>
      Safe mem2Max mem call ∧ AllSafe mem2Max calls (step mem2Max mem call).2

def decideAllSafe (mem2Max : Nat) : (calls : List Call) → (mem : Mem2) →
    Decidable (AllSafe mem2Max calls mem)
  | [], _ => isTrue trivial
  | call :: calls, mem =>
      have := decideAllSafe mem2Max calls (step mem2Max mem call).2
      inferInstanceAs (Decidable (Safe mem2Max mem call ∧
        AllSafe mem2Max calls (step mem2Max mem call).2))

instance (mem2Max : Nat) (calls : List Call) (mem : Mem2) :
    Decidable (AllSafe mem2Max calls mem) :=
  decideAllSafe mem2Max calls mem

/-! ## Addresses -/

theorem and_roundMask (w : Nat) (small : w < 2 ^ 32) : w &&& 4294967264 = w / 32 * 32 := by
  apply Nat.eq_of_testBit_eq
  intro i
  have mask : (4294967264 : Nat) = (2 ^ 27 - 1) * 2 ^ 5 := by decide
  have shift : w / 32 * 32 = w / 2 ^ 5 * 2 ^ 5 := rfl
  rw [Nat.testBit_and, mask, shift, Nat.testBit_mul_two_pow, Nat.testBit_mul_two_pow,
    Nat.testBit_two_pow_sub_one, Nat.testBit_div_two_pow]
  by_cases high : 5 ≤ i
  · by_cases inside : i < 32
    · have near : i - 5 < 27 := by omega
      simp [high, near]
    · have large : w < 2 ^ i :=
        Nat.lt_of_lt_of_le small (Nat.pow_le_pow_right (by decide) (Nat.le_of_not_lt inside))
      have outside := Nat.testBit_lt_two_pow large
      simp [high, outside]
  · simp [high]

theorem roundDown32_toNat (v : UInt32) :
    (roundDown32 v).toNat = (v - 0x1f).toNat / 32 * 32 := by
  rw [roundDown32, UInt32.toNat_and]
  exact and_roundMask _ (v - 0x1f).toNat_lt

/-- Without wrapping, the area and 31 bytes fit below the bound. -/
theorem roundDown32_fits {bound size : UInt32} (fits : size.toNat + 31 ≤ bound.toNat) :
    (roundDown32 (bound - size)).toNat + size.toNat + 31 ≤ bound.toNat := by
  have below := bound.toNat_lt
  rw [roundDown32_toNat, UInt32.toNat_sub, UInt32.toNat_sub]
  change ((2 ^ 32 - 31 + (2 ^ 32 - size.toNat + bound.toNat) % 2 ^ 32) % 2 ^ 32) / 32 * 32 + _ + _ ≤ _
  omega

/-- With wrapping, the area would end near the end of all addresses, or beyond. -/
theorem roundDown32_wraps {bound size : UInt32} (wraps : bound.toNat < size.toNat + 31) :
    2 ^ 32 + bound.toNat ≤ (roundDown32 (bound - size)).toNat + size.toNat + 62 := by
  have below := bound.toNat_lt
  have small := size.toNat_lt
  rw [roundDown32_toNat, UInt32.toNat_sub, UInt32.toNat_sub]
  change _ ≤ ((2 ^ 32 - 31 + (2 ^ 32 - size.toNat + bound.toNat) % 2 ^ 32) % 2 ^ 32) / 32 * 32 + _ + _
  omega

/-! ## The areas as a stack -/

def region (mem : Mem2) (i : Nat) : Region where
  start := (mem.areas i).heapPtr.toNat
  size := (mem.areas i).size.toNat
  upper := (mem.areas i).oldArena2hi.toNat

/-- The live areas, the lowest one first. -/
structure Stack (mem2Max : Nat) (original : UInt32) (mem : Mem2) (live : List Nat) : Prop where
  distinct : live.Nodup
  index_lt : ∀ i ∈ live, i < mem2Max
  stacked : Stacked original.toNat (live.map (region mem)) mem.arena2Hi.toNat
  unused : ∀ i, i ∉ live → mem.areas i = noArea
  arena : mem.arena2Lo.toNat ≤ mem.arena2Hi.toNat
  inited : mem.inited = false → live = []

/-- One area was taken below the other. -/
def Below (mem : Mem2) (i j : Nat) : Prop :=
  (mem.areas i).oldArena2hi.toNat ≤ (mem.areas j).heapPtr.toNat ∨
    (mem.areas j).oldArena2hi.toNat ≤ (mem.areas i).heapPtr.toNat

instance (mem : Mem2) : Std.Symm (Below mem) := ⟨fun _ _ => Or.symm⟩

section Stack

variable {mem2Max : Nat} {original : UInt32} {mem : Mem2} {live : List Nat}

theorem size_ne_zero_iff (size : UInt32) : size ≠ 0 ↔ 0 < size.toNat := by
  rw [Nat.pos_iff_ne_zero, Ne, Ne, ← UInt32.toNat_inj]
  rfl

theorem Stack.region_inside (stack : Stack mem2Max original mem live) {i : Nat}
    (member : i ∈ live) :
    mem.arena2Hi.toNat ≤ (mem.areas i).heapPtr.toNat ∧ (mem.areas i).size ≠ 0 ∧
      (mem.areas i).heapPtr.toNat + (mem.areas i).size.toNat ≤ (mem.areas i).oldArena2hi.toNat ∧
      (mem.areas i).oldArena2hi.toNat ≤ original.toNat := by
  obtain ⟨above, some_size, inside, below⟩ :=
    stacked_inside stack.stacked (region mem i) (List.mem_map_of_mem member)
  exact ⟨above, (size_ne_zero_iff _).mpr some_size, inside, below⟩

theorem Stack.live_iff (stack : Stack mem2Max original mem live) (i : Nat) :
    (mem.areas i).size ≠ 0 ↔ i ∈ live := by
  constructor
  · intro some_size
    by_contra other
    rw [stack.unused i other] at some_size
    exact some_size rfl
  · intro member
    exact (stack.region_inside member).2.1

theorem Stack.sound (stack : Stack mem2Max original mem live) : Sound original mem := by
  have apart := List.pairwise_map.mp (stacked_apart stack.stacked)
  constructor
  · intro i some_size
    obtain ⟨above, -, inside, below⟩ := stack.region_inside ((stack.live_iff i).mp some_size)
    have arena := stack.arena
    omega
  · intro i j differ size_i size_j
    have live_i := (stack.live_iff i).mp size_i
    have live_j := (stack.live_iff j).mp size_j
    have inside_i := (stack.region_inside live_i).2.2.1
    have inside_j := (stack.region_inside live_j).2.2.1
    have ordered : live.Pairwise (Below mem) := apart.imp Or.inl
    rcases ordered.forall live_i live_j differ with below | below
    · omega
    · omega
  · intro i some_size
    exact (stack.region_inside ((stack.live_iff i).mp some_size)).1
  · intro unused
    have empty : live = [] := by
      apply List.eq_nil_iff_forall_not_mem.mpr
      intro i member
      exact (stack.live_iff i).mpr member (unused i)
    have stacked := stack.stacked
    rw [empty] at stacked
    exact UInt32.toNat_inj.mp (stacked_top stacked)

theorem region_update_other {i j : Nat} {area : Area} {bound : UInt32} (other : j ≠ i) :
    region { mem with arena2Hi := bound, areas := Function.update mem.areas i area } j =
      region mem j := by
  unfold region
  simp only [Function.update_of_ne other]

theorem map_region_update {i : Nat} {area : Area} {bound : UInt32} (absent : i ∉ live) :
    live.map (region { mem with arena2Hi := bound, areas := Function.update mem.areas i area }) =
      live.map (region mem) := by
  apply List.map_congr_left
  intro j member
  apply region_update_other
  rintro rfl
  exact absent member

/-! ## Removing an area -/

theorem lowerArea_eq_true {area : Nat} :
    lowerArea mem2Max mem area = true ↔ ∃ i < mem2Max, i ≠ area ∧
      (mem.areas i).oldArena2hi ≠ 0 ∧
        (mem.areas i).oldArena2hi < (mem.areas area).oldArena2hi := by
  simp [lowerArea, and_assoc]

/-- Only the lowest area has none below it. -/
theorem Stack.lowest (stack : Stack mem2Max original mem live) {area : Nat}
    (member : area ∈ live) (removable : lowerArea mem2Max mem area = false) :
    ∃ rest, live = area :: rest := by
  cases live with
  | nil => cases member
  | cons lowest rest =>
      rcases List.mem_cons.mp member with rfl | later
      · exact ⟨rest, rfl⟩
      · exfalso
        have differ : lowest ≠ area := by
          rintro rfl
          exact (List.nodup_cons.mp stack.distinct).1 later
        have apart := (List.pairwise_cons.mp (stacked_apart stack.stacked)).1 (region mem area)
          (List.mem_map_of_mem later)
        obtain ⟨-, some_size, inside, -⟩ := stack.region_inside member
        obtain ⟨-, lowest_size, lowest_inside, -⟩ := stack.region_inside List.mem_cons_self
        have size := (size_ne_zero_iff _).mp some_size
        have lowest_positive := (size_ne_zero_iff _).mp lowest_size
        change (mem.areas lowest).oldArena2hi.toNat ≤ (mem.areas area).heapPtr.toNat at apart
        have below : lowerArea mem2Max mem area = true := by
          apply lowerArea_eq_true.mpr
          refine ⟨lowest, stack.index_lt lowest List.mem_cons_self, differ, ?_, ?_⟩
          · rw [size_ne_zero_iff]
            omega
          · rw [UInt32.lt_iff_toNat_lt]
            omega
        rw [removable] at below
        cases below

/-- The areas without the lowest one. -/
def removed (mem : Mem2) (area : Nat) : Mem2 :=
  { mem with
    arena2Hi := (mem.areas area).oldArena2hi
    areas := Function.update mem.areas area noArea }

theorem Stack.remove (stack : Stack mem2Max original mem live) {area : Nat} {rest : List Nat}
    (lowest : live = area :: rest) : Stack mem2Max original (removed mem area) rest := by
  subst lowest
  obtain ⟨absent, distinct⟩ := List.nodup_cons.mp stack.distinct
  obtain ⟨bound, stacked⟩ := stacked_give_back stack.stacked
  have inside := (stack.region_inside List.mem_cons_self).2.2.1
  have above := (stack.region_inside List.mem_cons_self).1
  constructor
  · exact distinct
  · exact fun i member => stack.index_lt i (List.mem_cons_of_mem _ member)
  · unfold removed
    rw [map_region_update absent]
    exact stacked
  · intro i unused
    by_cases same : i = area
    · subst same
      exact Function.update_self _ _ _
    · have other : i ∉ area :: rest := by
        rw [List.mem_cons, not_or]
        exact ⟨same, unused⟩
      exact (Function.update_of_ne same _ _).trans (stack.unused i other)
  · have arena := stack.arena
    change mem.arena2Lo.toNat ≤ (mem.areas area).oldArena2hi.toNat
    omega
  · intro fresh
    cases stack.inited fresh

theorem removeMem2Area_stack (stack : Stack mem2Max original mem live) (area : Nat) :
    (removeMem2Area mem2Max mem area = (false, mem) ∧
      ((mem.areas area).size ≠ 0 → lowerArea mem2Max mem area = true)) ∨
      ∃ rest, live = area :: rest ∧ lowerArea mem2Max mem area = false ∧
        removeMem2Area mem2Max mem area = (true, removed mem area) := by
  unfold removeMem2Area
  by_cases unused : mem2Max ≤ area ∨ (mem.areas area).size = 0
  · rw [if_pos unused]
    refine Or.inl ⟨rfl, ?_⟩
    intro some_size
    have index_lt := stack.index_lt area ((stack.live_iff area).mp some_size)
    rcases unused with outside | empty
    · omega
    · exact absurd empty some_size
  · rw [if_neg unused]
    rw [not_or] at unused
    cases lower : lowerArea mem2Max mem area with
    | true => exact Or.inl ⟨rfl, fun _ => rfl⟩
    | false =>
        obtain ⟨rest, lowest⟩ := stack.lowest ((stack.live_iff area).mp unused.2) lower
        exact Or.inr ⟨rest, lowest, rfl, rfl⟩

/-! ## Taking an area -/

def taken (mem : Mem2) (size : UInt32) (index : Nat) : Mem2 :=
  { mem with
    arena2Hi := roundDown32 (mem.arena2Hi - size)
    areas := Function.update mem.areas index
      ⟨roundDown32 (mem.arena2Hi - size), size, mem.arena2Hi⟩ }

theorem takeMem2Area_refused {size : UInt32} {index : Nat} (unused : mem.areas index = noArea)
    (refused : ¬mem.arena2Lo ≤ roundDown32 (mem.arena2Hi - size)) :
    takeMem2Area mem size index = (false, mem) := by
  unfold takeMem2Area
  rw [if_pos (UInt32.not_le.mp refused), unused]
  have same : Function.update mem.areas index noArea = mem.areas := by
    rw [← unused]
    exact Function.update_eq_self index mem.areas
  change (false, { mem with areas := Function.update mem.areas index noArea }) = (false, mem)
  rw [same]

theorem takeMem2Area_accepted {size : UInt32} {index : Nat}
    (accepted : mem.arena2Lo ≤ roundDown32 (mem.arena2Hi - size)) :
    takeMem2Area mem size index = (true, taken mem size index) := by
  unfold takeMem2Area
  rw [if_neg (UInt32.not_lt.mpr accepted)]
  rfl

theorem Stack.take (stack : Stack mem2Max original mem live) {size : UInt32} {index : Nat}
    (absent : index ∉ live) (index_lt : index < mem2Max) (nonzero : size ≠ 0)
    (inited : mem.inited = true)
    (accepted : mem.arena2Lo ≤ roundDown32 (mem.arena2Hi - size))
    (fits : size.toNat + 31 ≤ mem.arena2Hi.toNat) :
    Stack mem2Max original (taken mem size index) (index :: live) := by
  have region_index : region (taken mem size index) index =
      ⟨(roundDown32 (mem.arena2Hi - size)).toNat, size.toNat, mem.arena2Hi.toNat⟩ := by
    simp only [region, taken, Function.update_self]
  constructor
  · exact List.nodup_cons.mpr ⟨absent, stack.distinct⟩
  · intro i member
    rcases List.mem_cons.mp member with rfl | earlier
    · exact index_lt
    · exact stack.index_lt i earlier
  · rw [List.map_cons, region_index]
    unfold taken
    rw [map_region_update absent]
    have below := roundDown32_fits fits
    have inside : (roundDown32 (mem.arena2Hi - size)).toNat + size.toNat ≤ mem.arena2Hi.toNat :=
      by omega
    exact @Stacked.take _ ⟨_, _, _⟩ _ stack.stacked ((size_ne_zero_iff size).mp nonzero) inside
  · intro i unused
    rw [List.mem_cons, not_or] at unused
    exact (Function.update_of_ne unused.1 _ _).trans (stack.unused i unused.2)
  · exact UInt32.le_iff_toNat_le.mp accepted
  · intro fresh
    rw [show (taken mem size index).inited = mem.inited from rfl, inited] at fresh
    cases fresh

/-- An area whose address has wrapped reaches over the arena or over the lowest area. -/
theorem Stack.wrapped (stack : Stack mem2Max original mem live) {size : UInt32} {index : Nat}
    (absent : index ∉ live) (nonzero : size ≠ 0)
    (wraps : mem.arena2Hi.toNat < size.toNat + 31) :
    ¬Sound original (taken mem size index) := by
  intro sound
  have area : (taken mem size index).areas index =
      ⟨roundDown32 (mem.arena2Hi - size), size, mem.arena2Hi⟩ := Function.update_self _ _ _
  have large := roundDown32_wraps wraps
  have inside := (sound.inside index (by rw [area]; exact nonzero)).2
  rw [area] at inside
  change (roundDown32 (mem.arena2Hi - size)).toNat + size.toNat ≤ original.toNat at inside
  have stacked := stack.stacked
  cases live with
  | nil =>
      have bound := stacked_top stacked
      omega
  | cons low rest =>
      have differ : low ≠ index := by
        rintro rfl
        exact absent List.mem_cons_self
      have same : (taken mem size index).areas low = mem.areas low :=
        Function.update_of_ne differ _ _
      have start := (stacked_give_back stacked).1
      change mem.arena2Hi.toNat = (mem.areas low).heapPtr.toNat at start
      have low_size := (stack.region_inside List.mem_cons_self).2.1
      have low_positive := (size_ne_zero_iff _).mp low_size
      have bound := sound.bound low (by rw [same]; exact low_size)
      have apart := sound.apart index low differ.symm (by rw [area]; exact nonzero)
        (by rw [same]; exact low_size)
      rw [same] at bound
      rw [same, area] at apart
      change (roundDown32 (mem.arena2Hi - size)).toNat ≤ (mem.areas low).heapPtr.toNat at bound
      change (roundDown32 (mem.arena2Hi - size)).toNat + size.toNat ≤
          (mem.areas low).heapPtr.toNat ∨
        (mem.areas low).heapPtr.toNat + (mem.areas low).size.toNat ≤
          (roundDown32 (mem.arena2Hi - size)).toNat at apart
      have end_bound := inside
      have original_small := original.toNat_lt
      omega

/-! ## Adding an area -/

theorem Stack.ready_eq (stack : Stack mem2Max original mem live) :
    (if mem.inited then mem else initMem2Areas mem2Max mem) = { mem with inited := true } := by
  cases fresh : mem.inited with
  | true =>
      rw [if_pos rfl, ← fresh]
  | false =>
      have empty := stack.inited fresh
      have cleared : (fun i => if i < mem2Max then noArea else mem.areas i) = mem.areas := by
        funext i
        have unused := stack.unused i (by rw [empty]; exact List.not_mem_nil)
        rw [unused, ite_self]
      rw [if_neg Bool.false_ne_true]
      unfold initMem2Areas
      rw [cleared]

theorem Stack.initialised (stack : Stack mem2Max original mem live) :
    Stack mem2Max original { mem with inited := true } live := by
  refine ⟨stack.distinct, stack.index_lt, stack.stacked, stack.unused, stack.arena, ?_⟩
  intro fresh
  cases fresh

theorem addMem2Area_idle (stack : Stack mem2Max original mem live) {size : UInt32} {index : Nat}
    (idle : ¬Takes mem2Max mem size index) :
    (addMem2Area mem2Max mem size index).2 = { mem with inited := true } := by
  unfold addMem2Area
  rw [stack.ready_eq]
  by_cases invalid : mem2Max ≤ index ∨ size = 0
  · rw [if_pos invalid]
  rw [if_neg invalid]
  rw [not_or, Nat.not_le] at invalid
  by_cases same : (mem.areas index).size = size
  · rw [if_pos same]
  rw [if_neg same]
  by_cases empty : (mem.areas index).size = 0
  · exact absurd ⟨invalid.1, invalid.2, same, fun live => absurd empty live⟩ idle
  rw [if_neg empty]
  rcases removeMem2Area_stack stack.initialised index with ⟨kept, -⟩ | ⟨_, _, removable, _⟩
  · rw [kept, if_neg Bool.false_ne_true]
  · exact absurd ⟨invalid.1, invalid.2, same, fun _ => removable⟩ idle

/-- The areas from which the new one is taken. -/
structure Base (mem2Max : Nat) (original : UInt32) (mem : Mem2) (index : Nat) (base : Mem2)
    (others : List Nat) : Prop where
  stack : Stack mem2Max original base others
  absent : index ∉ others
  inited : base.inited = true
  arena2Lo : base.arena2Lo = mem.arena2Lo
  bound : base.arena2Hi = boundFor mem index
  unchanged : (mem.areas index).size = 0 → base.areas = mem.areas

theorem addMem2Area_takes (stack : Stack mem2Max original mem live) {size : UInt32} {index : Nat}
    (takes : Takes mem2Max mem size index) :
    ∃ base others, Base mem2Max original mem index base others ∧
      addMem2Area mem2Max mem size index = takeMem2Area base size index := by
  unfold addMem2Area
  rw [stack.ready_eq, if_neg, if_neg takes.other]
  · by_cases empty : (mem.areas index).size = 0
    · refine ⟨{ mem with inited := true }, live, ⟨stack.initialised, ?_, rfl, rfl, ?_, ?_⟩, ?_⟩
      · intro member
        exact (stack.live_iff index).mpr member empty
      · exact (if_pos empty).symm
      · exact fun _ => rfl
      · rw [if_pos empty]
    · have removable := takes.removable empty
      rcases removeMem2Area_stack stack.initialised index with ⟨_, lower⟩ | ⟨rest, lowest, _, done⟩
      · have lower_area : lowerArea mem2Max mem index = true := lower empty
        rw [removable] at lower_area
        cases lower_area
      · refine ⟨removed { mem with inited := true } index, rest,
          ⟨stack.initialised.remove lowest, ?_, rfl, rfl, ?_, ?_⟩, ?_⟩
        · have distinct := stack.distinct
          rw [lowest] at distinct
          exact (List.nodup_cons.mp distinct).1
        · exact (if_neg empty).symm
        · exact fun unused => absurd unused empty
        · rw [if_neg empty, done, if_pos rfl]
  · rw [not_or, Nat.not_le]
    exact ⟨takes.index_lt, takes.nonzero⟩

/-! ## Runs -/

theorem kept_of_true {after : Mem2} : Kept mem (true, after) := by
  intro failed
  cases failed

theorem step_safe (stack : Stack mem2Max original mem live) {call : Call}
    (safe : Safe mem2Max mem call) :
    Kept mem (step mem2Max mem call) ∧
      ∃ live', Stack mem2Max original (step mem2Max mem call).2 live' := by
  cases call with
  | remove area =>
      change Kept mem (removeMem2Area mem2Max mem area) ∧
        ∃ live', Stack mem2Max original (removeMem2Area mem2Max mem area).2 live'
      rcases removeMem2Area_stack stack area with ⟨kept, -⟩ | ⟨rest, lowest, -, done⟩
      · rw [kept]
        exact ⟨fun _ => ⟨rfl, rfl⟩, live, stack⟩
      · rw [done]
        exact ⟨kept_of_true, rest, stack.remove lowest⟩
  | add size index =>
      change Kept mem (addMem2Area mem2Max mem size index) ∧
        ∃ live', Stack mem2Max original (addMem2Area mem2Max mem size index).2 live'
      by_cases takes : Takes mem2Max mem size index
      · obtain ⟨fits, resizes⟩ := safe takes
        obtain ⟨base, others, from_base, added⟩ := addMem2Area_takes stack takes
        have unused := from_base.stack.unused index from_base.absent
        rw [added]
        unfold Accepted at fits resizes
        rw [← from_base.bound, ← from_base.arena2Lo] at fits resizes
        by_cases accepted : base.arena2Lo ≤ roundDown32 (base.arena2Hi - size)
        · rw [takeMem2Area_accepted accepted]
          exact ⟨kept_of_true, index :: others,
            from_base.stack.take from_base.absent takes.index_lt takes.nonzero from_base.inited
              accepted (fits accepted)⟩
        · rw [takeMem2Area_refused unused accepted]
          have empty : (mem.areas index).size = 0 := by
            by_contra some_size
            exact accepted (resizes some_size)
          have bound := from_base.bound
          unfold boundFor at bound
          rw [if_pos empty] at bound
          exact ⟨fun _ => ⟨from_base.unchanged empty, bound⟩, others, from_base.stack⟩
      · unfold Kept
        rw [addMem2Area_idle stack takes]
        exact ⟨fun _ => ⟨rfl, rfl⟩, live, stack.initialised⟩

theorem step_unsafe (stack : Stack mem2Max original mem live) {call : Call}
    (not_safe : ¬Safe mem2Max mem call) (kept : Kept mem (step mem2Max mem call)) :
    ¬Sound original (step mem2Max mem call).2 := by
  cases call with
  | remove area => exact absurd trivial not_safe
  | add size index =>
      change ¬(Takes mem2Max mem size index → _) at not_safe
      rw [Classical.not_imp] at not_safe
      obtain ⟨takes, not_safe⟩ := not_safe
      obtain ⟨base, others, from_base, added⟩ := addMem2Area_takes stack takes
      have unused := from_base.stack.unused index from_base.absent
      change Kept mem (addMem2Area mem2Max mem size index) at kept
      change ¬Sound original (addMem2Area mem2Max mem size index).2
      rw [added] at kept ⊢
      unfold Accepted at not_safe
      rw [← from_base.bound, ← from_base.arena2Lo] at not_safe
      by_cases accepted : base.arena2Lo ≤ roundDown32 (base.arena2Hi - size)
      · rw [takeMem2Area_accepted accepted]
        apply from_base.stack.wrapped from_base.absent takes.nonzero
        by_contra fits
        exact not_safe ⟨fun _ => Nat.le_of_not_lt fits, fun _ => accepted⟩
      · -- The area that was to change its size has been removed.
        rw [takeMem2Area_refused unused accepted] at kept
        have same := (kept rfl).1
        have empty : (mem.areas index).size = 0 := by
          rw [← same, unused]
          rfl
        exact absurd ⟨fun fits => absurd fits accepted, fun live => absurd empty live⟩ not_safe

theorem Holds.sound {calls : List Call} (holds : Holds mem2Max original calls mem) :
    Sound original mem := by
  cases calls with
  | nil => exact holds
  | cons call calls => exact holds.1

theorem Stack.holds_iff (stack : Stack mem2Max original mem live) (calls : List Call) :
    Holds mem2Max original calls mem ↔ AllSafe mem2Max calls mem := by
  induction calls generalizing mem live with
  | nil => exact ⟨fun _ => trivial, fun _ => stack.sound⟩
  | cons call calls ih =>
      constructor
      · rintro ⟨-, kept, rest⟩
        have safe : Safe mem2Max mem call := by
          by_contra not_safe
          exact step_unsafe stack not_safe kept rest.sound
        obtain ⟨-, live', next⟩ := step_safe stack safe
        exact ⟨safe, (ih next).mp rest⟩
      · rintro ⟨safe, rest⟩
        obtain ⟨kept, live', next⟩ := step_safe stack safe
        exact ⟨stack.sound, kept, (ih next).mpr rest⟩

end Stack

theorem start_stack {mem2Max : Nat} {lo hi : UInt32} (arena : lo ≤ hi) :
    Stack mem2Max hi (start lo hi) [] := by
  constructor
  · exact List.nodup_nil
  · exact fun i member => by cases member
  · exact Stacked.empty
  · exact fun i _ => rfl
  · exact UInt32.le_iff_toNat_le.mp arena
  · exact fun _ => rfl

/-- The areas stay in the arena and failed calls change nothing exactly as long as no
address wraps and no change of size fails. -/
theorem mem2_areas_hold_iff (mem2Max : Nat) (lo hi : UInt32) (calls : List Call)
    (arena : lo ≤ hi) :
    Holds mem2Max hi calls (start lo hi) ↔ AllSafe mem2Max calls (start lo hi) :=
  (start_stack arena).holds_iff calls

/-- The second area can be removed before the first one only when it is the lower. -/
theorem mem2_areas_hold_for_two :
    Holds 2 0x933E0000
      [.add 0x100000 0, .add 0x200000 1, .remove 0, .add 0x300000 1, .remove 1, .remove 0]
      (start 0x90002000 0x933E0000) :=
  (mem2_areas_hold_iff 2 0x90002000 0x933E0000 _ (by decide)).mpr (by decide)

/-- A size of 3 GiB is accepted, and the area lies above the arena; a change to a size
that does not fit returns false after the area has been removed. -/
theorem large_size_accepted :
    ¬Holds 1 0x933E0000 [.add 0xC0000000 0] (start 0x90002000 0x933E0000) ∧
      ¬Holds 1 0x933E0000 [.add 0x100000 0, .add 0x8000000 0]
        (start 0x90002000 0x933E0000) := by
  constructor
  · rintro ⟨-, -, sound⟩
    have inside := (sound.inside 0 (by decide)).2
    revert inside
    decide
  · rintro ⟨-, -, -, kept, -⟩
    have same := congrArg Area.size (congrFun (kept (by decide)).1 0)
    revert same
    decide

end MoonlightWii.Wii.Mem2Manager
