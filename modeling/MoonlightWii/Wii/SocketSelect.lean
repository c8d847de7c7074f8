import MoonlightWii.Foundation.PartialIndex
import Mathlib.Data.Finset.Range

/-!
# select over public handles

`socket()` hands out public handles, while `net_select` knows the indices inside the
network layer.  `select` puts the requested handles below `nfds` into sets of indices,
calls `net_select` and reads the sets it left back into sets of handles.
-/

set_option autoImplicit false

namespace MoonlightWii.Wii.SocketSelect

open Foundation.PartialIndex

/-! ## Handles -/

structure Handle where
  device : Nat
  fileStruct : Int32

/-- The index inside the network layer of a public handle, if it is a socket; the callers
treat every negative result alike. -/
def toNetFd (getHandle : Int → Option Handle) (devoptabName : Nat → String) (fd : Int) :
    Option Nat :=
  match getHandle fd with
  | none => none
  | some h =>
      if devoptabName h.device ≠ "soc" then none
      else if h.fileStruct < 0 then none
      else some h.fileStruct.toInt.toNat

abbrev FdSet := Finset Nat

structure TimeVal where
  tvSec : Int
  tvUsec : Int
  deriving DecidableEq

/-- The three sets that `net_select` reads and overwrites. -/
structure FdSets where
  readfds : FdSet
  writefds : FdSet
  exceptfds : FdSet
  deriving DecidableEq

def FdSets.zero : FdSets := ⟨∅, ∅, ∅⟩

def FdSets.bits (sets : FdSets) : Nat :=
  sets.readfds.card + sets.writefds.card + sets.exceptfds.card

def FdSets.Within (sets asked : FdSets) : Prop :=
  sets.readfds ⊆ asked.readfds ∧ sets.writefds ⊆ asked.writefds ∧
    sets.exceptfds ⊆ asked.exceptfds

/-- What one call of `net_select` returns, and what it leaves in the sets. -/
structure NetAnswer where
  ret : Int
  sets : FdSets
  deriving DecidableEq

abbrev NetSelect := Int → FdSets → Option TimeVal → NetAnswer

/-- The documented behaviour of `net_select`. -/
def Honest (netSelect : NetSelect) : Prop :=
  ∀ nfds asked timeout, (netSelect nfds asked timeout).ret < 0 ∨
    (netSelect nfds asked timeout).sets.Within asked ∧
      (netSelect nfds asked timeout).ret = (netSelect nfds asked timeout).sets.bits

/-- The sets left after the call, which an error empties. -/
def NetAnswer.reported (answer : NetAnswer) : FdSets :=
  if answer.ret < 0 then FdSets.zero else answer.sets

/-! ## The call -/

/-- The indices requested so far, with the highest index met. -/
structure Gathered where
  maxfd : Nat
  given : FdSets

def putIf (wanted : Bool) (nfd : Nat) (set : FdSet) : FdSet := if wanted then insert nfd set else set

def gatherOne (toNet : Int → Option Nat) (saved : FdSets) (state : Gathered) (fd : Nat) :
    Gathered :=
  match toNet fd with
  | none => state
  | some nfd =>
      { maxfd := if state.maxfd < nfd then nfd else state.maxfd
        given :=
          { readfds := putIf (fd ∈ saved.readfds) nfd state.given.readfds
            writefds := putIf (fd ∈ saved.writefds) nfd state.given.writefds
            exceptfds := putIf (fd ∈ saved.exceptfds) nfd state.given.exceptfds } }

def gather (toNet : Int → Option Nat) (saved : FdSets) (nfds : Int) : Gathered :=
  (List.range nfds.toNat).foldl (gatherOne toNet saved) ⟨0, FdSets.zero⟩

/-- One of the three loops after the call: a saved set is overwritten below `nfds`. -/
def handBack (toNet : Int → Option Nat) (nfds : Int) (reported saved : FdSet) : FdSet :=
  (List.range nfds.toNat).foldl
    (fun set fd =>
      match toNet (fd : Nat) with
      | none => set.erase fd
      | some nfd => if nfd ∈ reported then insert fd set else set.erase fd)
    saved

/-- The wait in microseconds after an error. -/
def honouredWait (timeout : Option TimeVal) : Option UInt32 :=
  match timeout with
  | none => none
  | some tv =>
      let ms := Int32.ofInt (tv.tvSec * 1000 + tv.tvUsec.tdiv 1000)
      if 0 < ms then some (ms * 1000).toUInt32 else none

structure SelectResult where
  ret : Int
  readfds : Option FdSet
  writefds : Option FdSet
  exceptfds : Option FdSet
  slept : Option UInt32
  deriving DecidableEq

/-- The sets that `select` saves; an absent one counts as empty. -/
def savedSets (readfds writefds exceptfds : Option FdSet) : FdSets :=
  ⟨readfds.getD ∅, writefds.getD ∅, exceptfds.getD ∅⟩

def select (toNet : Int → Option Nat) (netSelect : NetSelect) (nfds : Int)
    (readfds writefds exceptfds : Option FdSet) (timeout : Option TimeVal) : SelectResult :=
  let asked := gather toNet (savedSets readfds writefds exceptfds) nfds
  let answer := netSelect (asked.maxfd + 1) asked.given timeout
  { ret := if answer.ret < 0 then 0 else answer.ret
    readfds := readfds.map (handBack toNet nfds answer.reported.readfds)
    writefds := writefds.map (handBack toNet nfds answer.reported.writefds)
    exceptfds := exceptfds.map (handBack toNet nfds answer.reported.exceptfds)
    slept := if answer.ret < 0 then honouredWait timeout else none }

/-! ## What is given to net_select -/

theorem mem_putIf (wanted : Bool) (nfd place : Nat) (set : FdSet) :
    place ∈ putIf wanted nfd set ↔ place ∈ set ∨ wanted = true ∧ nfd = place := by
  cases wanted with
  | false => simp [putIf]
  | true => simp [putIf, or_comm, eq_comm]

section Gather

variable (toNet : Int → Option Nat)

/-- The requested handles below `nfds`. -/
def below (nfds : Int) (set : FdSet) : FdSet := set.filter fun fd => (fd : Int) < nfds

theorem mem_below (nfds : Int) (set : FdSet) (fd : Nat) :
    fd ∈ below nfds set ↔ fd ∈ set ∧ (fd : Int) < nfds := Finset.mem_filter

/-- The index of a public handle that is not negative. -/
def handleIndex (fd : Nat) : Option Nat := toNet fd

/-- One of the three sets, the others left out: what the loop over the handles puts in it. -/
theorem mem_gathered (part : FdSets → FdSet) (saved : FdSets)
    (one : ∀ state fd, part (gatherOne toNet saved state fd).given =
      match toNet (fd : Nat) with
      | none => part state.given
      | some nfd => putIf (fd ∈ part saved) nfd (part state.given))
    (fds : List Nat) (state : Gathered) (place : Nat) :
    place ∈ part (fds.foldl (gatherOne toNet saved) state).given ↔
      place ∈ part state.given ∨
        ∃ fd ∈ fds, fd ∈ part saved ∧ handleIndex toNet fd = some place := by
  induction fds generalizing state with
  | nil => simp
  | cons fd fds ih =>
      rw [List.foldl_cons, ih, one]
      cases known : toNet fd with
      | none => simp [handleIndex, known]
      | some nfd =>
          simp only [mem_putIf, decide_eq_true_eq, List.mem_cons, exists_eq_or_imp, handleIndex,
            known, Option.some.injEq, or_assoc]

theorem given_part (part : FdSets → FdSet) (empty : part FdSets.zero = ∅) (saved : FdSets)
    (one : ∀ state fd, part (gatherOne toNet saved state fd).given =
      match toNet (fd : Nat) with
      | none => part state.given
      | some nfd => putIf (fd ∈ part saved) nfd (part state.given))
    (nfds : Int) :
    part (gather toNet saved nfds).given = places (handleIndex toNet) (below nfds (part saved)) := by
  ext place
  rw [gather, mem_gathered toNet part saved one, mem_places, empty]
  simp only [Finset.notMem_empty, false_or, List.mem_range, mem_below]
  constructor
  · rintro ⟨fd, low, asked, placed⟩
    exact ⟨fd, ⟨asked, by omega⟩, placed⟩
  · rintro ⟨fd, ⟨asked, low⟩, placed⟩
    exact ⟨fd, by omega, asked, placed⟩

theorem given_eq (saved : FdSets) (nfds : Int) :
    (gather toNet saved nfds).given =
      { readfds := places (handleIndex toNet) (below nfds saved.readfds)
        writefds := places (handleIndex toNet) (below nfds saved.writefds)
        exceptfds := places (handleIndex toNet) (below nfds saved.exceptfds) } := by
  have reads := given_part toNet FdSets.readfds rfl saved (fun state fd => by
    unfold gatherOne; cases toNet fd <;> rfl) nfds
  have writes := given_part toNet FdSets.writefds rfl saved (fun state fd => by
    unfold gatherOne; cases toNet fd <;> rfl) nfds
  have excepts := given_part toNet FdSets.exceptfds rfl saved (fun state fd => by
    unfold gatherOne; cases toNet fd <;> rfl) nfds
  rw [← reads, ← writes, ← excepts]

end Gather

theorem handleIndex_separates {toNet : Int → Option Nat} (separates : Separates toNet) :
    Separates (handleIndex toNet) := by
  intro first second place firstPlaced secondPlaced
  exact Int.ofNat.inj (separates first second place firstPlaced secondPlaced)

/-! ## What is handed back -/

section HandBack

variable (toNet : Int → Option Nat)

theorem mem_handBack_fold (reported : FdSet) (fds : List Nat) (set : FdSet) (fd : Nat) :
    fd ∈ fds.foldl
        (fun set fd =>
          match toNet (fd : Nat) with
          | none => set.erase fd
          | some nfd => if nfd ∈ reported then insert fd set else set.erase fd)
        set ↔
      if fd ∈ fds then holds (handleIndex toNet) reported fd = true else fd ∈ set := by
  induction fds generalizing set with
  | nil => simp
  | cons first fds ih =>
      rw [List.foldl_cons, ih]
      by_cases later : fd ∈ fds
      · rw [if_pos later, if_pos (List.mem_cons_of_mem first later)]
      · rw [if_neg later]
        by_cases here : fd = first
        · subst here
          rw [if_pos List.mem_cons_self, holds, handleIndex]
          cases known : toNet fd with
          | none => simp
          | some nfd =>
              by_cases ready : nfd ∈ reported
              · simp [ready]
              · simp [ready]
        · rw [if_neg (by simp [here, later])]
          cases known : toNet first with
          | none => simp [here]
          | some nfd =>
              by_cases ready : nfd ∈ reported
              · simp [ready, here]
              · simp [ready, here]

theorem mem_handBack (nfds : Int) (reported saved : FdSet) (fd : Nat) :
    fd ∈ handBack toNet nfds reported saved ↔
      if (fd : Int) < nfds then holds (handleIndex toNet) reported fd = true else fd ∈ saved := by
  rw [handBack, mem_handBack_fold]
  by_cases low : (fd : Int) < nfds
  · rw [if_pos low, if_pos (List.mem_range.mpr (by omega))]
  · rw [if_neg low, if_neg (by rw [List.mem_range]; omega)]

theorem below_handBack (nfds : Int) (reported saved : FdSet) :
    below nfds (handBack toNet nfds reported saved) =
      holders (handleIndex toNet) (Finset.range nfds.toNat) reported := by
  ext fd
  rw [mem_below, mem_handBack, holders, Finset.mem_filter, Finset.mem_range]
  constructor
  · rintro ⟨held, low⟩
    rw [if_pos low] at held
    exact ⟨by omega, held⟩
  · rintro ⟨low, held⟩
    have low : (fd : Int) < nfds := by omega
    rw [if_pos low]
    exact ⟨held, low⟩

end HandBack

/-! ## The whole call -/

/-- The number of handles below `nfds` in a set that may be absent. -/
def ready (nfds : Int) (set : Option FdSet) : Nat := (below nfds (set.getD ∅)).card

/-- One set of the caller and what it holds after the call: below `nfds` the requested
handles whose index was reported, from `nfds` on what the caller had there. -/
structure ReadBack (toNet : Int → Option Nat) (nfds : Int) (reported : FdSet)
    (asked returned : Option FdSet) : Prop where
  absent : asked = none → returned = none
  present : ∀ saved, asked = some saved → ∃ set, returned = some set ∧
    (∀ fd : Nat, (fd : Int) < nfds →
      (fd ∈ set ↔ fd ∈ saved ∧ ∃ nfd, toNet fd = some nfd ∧ nfd ∈ reported)) ∧
    ∀ fd : Nat, nfds ≤ fd → (fd ∈ set ↔ fd ∈ saved)
  counted : ready nfds returned = reported.card

theorem readBack_handBack {toNet : Int → Option Nat} (separates : Separates toNet) (nfds : Int)
    (reported : FdSet) (asked : Option FdSet)
    (came : reported ⊆ places (handleIndex toNet) (below nfds (asked.getD ∅))) :
    ReadBack toNet nfds reported asked (asked.map (handBack toNet nfds reported)) := by
  have apart := handleIndex_separates separates
  refine ⟨fun none => by rw [none]; rfl, ?_, ?_⟩
  · intro saved some
    rw [some] at came ⊢
    refine ⟨_, rfl, ?_, ?_⟩
    · intro fd low
      rw [mem_handBack, if_pos low, holder_is_member _ apart _ _ came, Option.getD_some, mem_below]
      exact and_congr_left fun _ => and_iff_left low
    · intro fd high
      rw [mem_handBack, if_neg (by omega)]
  · cases asked with
    | none =>
        have empty : reported = ∅ := Finset.subset_empty.mp came
        rw [empty]
        rfl
    | some saved =>
        have inside : below nfds saved ⊆ Finset.range nfds.toNat := by
          intro fd low
          have low := ((mem_below nfds saved fd).mp low).2
          exact Finset.mem_range.mpr (by omega)
        rw [ready, Option.map_some, Option.getD_some, below_handBack]
        exact card_holders _ apart _ _ inside _ came

/-- What an honest `net_select` reports came from the sets it was given. -/
theorem reported_within {netSelect : NetSelect} (honest : Honest netSelect) (nfds : Int)
    (asked : FdSets) (timeout : Option TimeVal) :
    (netSelect nfds asked timeout).reported.Within asked := by
  rw [NetAnswer.reported]
  split
  · exact ⟨Finset.empty_subset _, Finset.empty_subset _, Finset.empty_subset _⟩
  · rename_i kept
    obtain failed | ⟨within, -⟩ := honest nfds asked timeout
    · exact absurd failed kept
    · exact within

theorem ret_reported {netSelect : NetSelect} (honest : Honest netSelect) (nfds : Int)
    (asked : FdSets) (timeout : Option TimeVal) :
    (if (netSelect nfds asked timeout).ret < 0 then 0 else (netSelect nfds asked timeout).ret) =
      ((netSelect nfds asked timeout).reported.bits : Int) := by
  rw [NetAnswer.reported]
  split
  · rfl
  · rename_i kept
    obtain failed | ⟨-, counted⟩ := honest nfds asked timeout
    · exact absurd failed kept
    · exact counted

/-- What `net_select` leaves for `select` in one call. -/
def selectAnswer (toNet : Int → Option Nat) (netSelect : NetSelect) (nfds : Int)
    (readfds writefds exceptfds : Option FdSet) (timeout : Option TimeVal) : NetAnswer :=
  let asked := gather toNet (savedSets readfds writefds exceptfds) nfds
  netSelect (asked.maxfd + 1) asked.given timeout

theorem select_reads_back (toNet : Int → Option Nat) (separates : Separates toNet)
    (netSelect : NetSelect) (honest : Honest netSelect) (nfds : Int)
    (readfds writefds exceptfds : Option FdSet) (timeout : Option TimeVal) :
    let answer := selectAnswer toNet netSelect nfds readfds writefds exceptfds timeout
    let result := select toNet netSelect nfds readfds writefds exceptfds timeout
    ReadBack toNet nfds answer.reported.readfds readfds result.readfds ∧
      ReadBack toNet nfds answer.reported.writefds writefds result.writefds ∧
      ReadBack toNet nfds answer.reported.exceptfds exceptfds result.exceptfds ∧
      result.ret =
        ready nfds result.readfds + ready nfds result.writefds + ready nfds result.exceptfds ∧
      (answer.ret < 0 → result.ret = 0 ∧ ready nfds result.readfds = 0 ∧
        ready nfds result.writefds = 0 ∧ ready nfds result.exceptfds = 0) := by
  intro answer result
  have within : answer.reported.Within
      (gather toNet (savedSets readfds writefds exceptfds) nfds).given :=
    reported_within honest _ _ timeout
  rw [given_eq] at within
  have reads := readBack_handBack separates nfds answer.reported.readfds readfds within.1
  have writes := readBack_handBack separates nfds answer.reported.writefds writefds within.2.1
  have excepts := readBack_handBack separates nfds answer.reported.exceptfds exceptfds within.2.2
  have counted : result.ret = (answer.reported.bits : Int) := ret_reported honest _ _ timeout
  have bits : result.ret =
      ready nfds result.readfds + ready nfds result.writefds + ready nfds result.exceptfds := by
    rw [counted, FdSets.bits]
    push_cast
    exact congrArg₂ (· + ·)
      (congrArg₂ (· + ·) (congrArg _ reads.counted.symm) (congrArg _ writes.counted.symm))
      (congrArg _ excepts.counted.symm)
  refine ⟨reads, writes, excepts, bits, ?_⟩
  intro failed
  have none : answer.reported = FdSets.zero := if_pos failed
  have zero : result.ret = 0 := by rw [counted, none]; rfl
  refine ⟨zero, ?_, ?_, ?_⟩ <;> omega

/-! ## A table with two sockets -/

/-- Handles 3 and 4 are the sockets with the indices 1 and 0, handle 0 is a console. -/
def twoSockets (fd : Int) : Option Nat :=
  toNetFd
    (fun fd =>
      if fd = 0 then some ⟨0, 7⟩
      else if fd = 3 then some ⟨5, 1⟩
      else if fd = 4 then some ⟨5, 0⟩
      else none)
    (fun device => if device = 5 then "soc" else "stdin") fd

theorem twoSockets_eq (fd : Int) :
    twoSockets fd = if fd = 3 then some 1 else if fd = 4 then some 0 else none := by
  unfold twoSockets toNetFd
  by_cases zero : fd = 0
  · subst zero
    rfl
  · by_cases three : fd = 3
    · subst three
      rfl
    · by_cases four : fd = 4
      · subst four
        rfl
      · simp [zero, three, four]

theorem twoSockets_separates : Separates twoSockets := by
  intro first second place
  rw [twoSockets_eq, twoSockets_eq]
  intro firstPlaced secondPlaced
  split_ifs at firstPlaced secondPlaced <;> simp_all <;> omega

/-- Everything that was asked for is ready. -/
def allReady : NetSelect := fun _ asked _ => ⟨asked.bits, asked⟩

theorem allReady_honest : Honest allReady := fun _ _ _ =>
  Or.inr ⟨⟨Finset.Subset.refl _, Finset.Subset.refl _, Finset.Subset.refl _⟩, rfl⟩

def linkDown : NetSelect := fun _ asked _ => ⟨-5, asked⟩

theorem linkDown_honest : Honest linkDown := fun _ _ _ => Or.inl (Int.negSucc_lt_zero 4)

theorem select_reads_back_two :
    (select twoSockets allReady 5 (some {0, 3, 7}) (some {3, 4}) none none).ret =
      ready 5 (select twoSockets allReady 5 (some {0, 3, 7}) (some {3, 4}) none none).readfds +
      ready 5 (select twoSockets allReady 5 (some {0, 3, 7}) (some {3, 4}) none none).writefds +
      ready 5 (select twoSockets allReady 5 (some {0, 3, 7}) (some {3, 4}) none none).exceptfds :=
  (select_reads_back twoSockets twoSockets_separates allReady allReady_honest 5
    (some {0, 3, 7}) (some {3, 4}) none none).2.2.2.1

/-- A failed call empties the sets below `nfds` only: handle 4 was in the caller's set, is
not below 4 and is there afterwards. -/
theorem select_error_keeps_high_handle :
    Separates twoSockets ∧ Honest linkDown ∧
      (selectAnswer twoSockets linkDown 4 (some {3, 4}) none none none).ret < 0 ∧
      (select twoSockets linkDown 4 (some {3, 4}) none none none).readfds = some {4} ∧
      (some {4} : Option FdSet) ≠ some ∅ :=
  ⟨twoSockets_separates, linkDown_honest, by decide, by decide, by decide⟩

end MoonlightWii.Wii.SocketSelect
