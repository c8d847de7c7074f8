import MoonlightWii.Wii.SocketSelect

/-!
# poll on top of net_select

The entries of `poll` are merged into the three sets of `net_select`, which know
sockets only, and are filled in from what it leaves there.  So an entry hears
everything that is reported of its socket, asked or not, and the result counts the
reports of sockets, not the entries.
-/

set_option autoImplicit false

namespace MoonlightWii.Wii.SocketPoll

open Foundation.PartialIndex
open MoonlightWii.Wii.SocketSelect

/-- The bits of an event mask. -/
inductive PollBit where
  | pollin
  | pollpri
  | pollout
  | pollerr
  | pollhup
  | pollnval
  | unnamed (bit : Fin 10)
  deriving DecidableEq

abbrev Events := Finset PollBit

structure PollFd where
  fd : Int
  events : Events
  revents : Events
  deriving DecidableEq

def netFdOf (toNet : Int → Option Nat) (entry : PollFd) : Option Nat :=
  if entry.fd < 0 then none else toNet entry.fd

def asksExcept (entry : PollFd) : Bool :=
  decide (PollBit.pollerr ∈ entry.events) || decide (PollBit.pollhup ∈ entry.events)

def askOne (toNet : Int → Option Nat) (state : Gathered) (entry : PollFd) : Gathered :=
  match netFdOf toNet entry with
  | none => state
  | some nfd =>
      { maxfd := if state.maxfd < nfd then nfd else state.maxfd
        given :=
          { readfds := putIf (PollBit.pollin ∈ entry.events) nfd state.given.readfds
            writefds := putIf (PollBit.pollout ∈ entry.events) nfd state.given.writefds
            exceptfds := putIf (asksExcept entry) nfd state.given.exceptfds } }

def ask (toNet : Int → Option Nat) (fds : List PollFd) : Gathered :=
  fds.foldl (askOne toNet) ⟨0, FdSets.zero⟩

def clearOne (entry : PollFd) : PollFd := { entry with revents := ∅ }

def orIf (set : Bool) (bit : PollBit) (revents : Events) : Events :=
  if set then insert bit revents else revents

/-- The second loop, for one entry. -/
def reportOne (toNet : Int → Option Nat) (reported : FdSets) (entry : PollFd) : PollFd :=
  match netFdOf toNet entry with
  | none => entry
  | some nfd =>
      { entry with
        revents :=
          orIf (nfd ∈ reported.exceptfds) .pollerr
            (orIf (nfd ∈ reported.writefds) .pollout
              (orIf (nfd ∈ reported.readfds) .pollin entry.revents)) }

def timeoutVal (timeout : Int32) : Option TimeVal :=
  if 0 ≤ timeout then some ⟨timeout.toInt.tdiv 1000, timeout.toInt.tmod 1000 * 1000⟩ else none

structure PollResult where
  ret : Int
  fds : List PollFd
  slept : Option UInt32
  deriving DecidableEq

def poll (toNet : Int → Option Nat) (netSelect : NetSelect) (fds : List PollFd)
    (timeout : Int32) : PollResult :=
  let asked := ask toNet fds
  let answer := netSelect (asked.maxfd + 1) asked.given (timeoutVal timeout)
  { ret := if answer.ret < 0 then 0 else answer.ret
    fds := (fds.map clearOne).map (reportOne toNet answer.reported)
    slept := if answer.ret < 0 ∧ 0 ≤ timeout then some (timeout * 1000).toUInt32 else none }

/-- What `net_select` leaves for `poll` in one call. -/
def pollAnswer (toNet : Int → Option Nat) (netSelect : NetSelect) (fds : List PollFd)
    (timeout : Int32) : NetAnswer :=
  netSelect ((ask toNet fds).maxfd + 1) (ask toNet fds).given (timeoutVal timeout)

/-! ## What poll is asked to do -/

/-- What an entry may hear: nothing that it did not ask for except an error, and of what it
asked for exactly what is reported of its socket. -/
structure EntryKept (toNet : Int → Option Nat) (reported : FdSets) (before after : PollFd) :
    Prop where
  fd : after.fd = before.fd
  events : after.events = before.events
  asked : after.revents ⊆ insert .pollerr before.events
  pollin : PollBit.pollin ∈ before.events →
    (PollBit.pollin ∈ after.revents ↔
      ∃ nfd, netFdOf toNet before = some nfd ∧ nfd ∈ reported.readfds)
  pollout : PollBit.pollout ∈ before.events →
    (PollBit.pollout ∈ after.revents ↔
      ∃ nfd, netFdOf toNet before = some nfd ∧ nfd ∈ reported.writefds)

def hears (entry : PollFd) : Bool := decide (entry.revents ≠ ∅)

structure PollKept (toNet : Int → Option Nat) (answer : NetAnswer) (fds : List PollFd)
    (result : PollResult) : Prop where
  entries : List.Forall₂ (EntryKept toNet answer.reported) fds result.fds
  counted : result.ret = result.fds.countP hears
  failed : answer.ret < 0 → result.ret = 0

def FdSets.sockets (sets : FdSets) : FdSet := sets.readfds ∪ sets.writefds ∪ sets.exceptfds

/-- Nothing is reported of a socket that one of its entries has not asked for, and the
reports are as many as the entries that name a reported socket. -/
structure Agreed (toNet : Int → Option Nat) (reported : FdSets) (fds : List PollFd) : Prop where
  pollin : ∀ entry ∈ fds, ∀ nfd, netFdOf toNet entry = some nfd → nfd ∈ reported.readfds →
    PollBit.pollin ∈ entry.events
  pollout : ∀ entry ∈ fds, ∀ nfd, netFdOf toNet entry = some nfd → nfd ∈ reported.writefds →
    PollBit.pollout ∈ entry.events
  balanced : reported.bits =
    ∑ nfd ∈ FdSets.sockets reported, naming (netFdOf toNet) fds nfd

/-! ## One entry -/

section Entry

variable (toNet : Int → Option Nat) (reported : FdSets)

def answerOne (entry : PollFd) : PollFd := reportOne toNet reported (clearOne entry)

theorem netFdOf_clearOne (entry : PollFd) : netFdOf toNet (clearOne entry) = netFdOf toNet entry :=
  rfl

theorem answerOne_fd (entry : PollFd) : (answerOne toNet reported entry).fd = entry.fd := by
  rw [answerOne, reportOne]
  cases netFdOf toNet (clearOne entry) <;> rfl

theorem answerOne_events (entry : PollFd) :
    (answerOne toNet reported entry).events = entry.events := by
  rw [answerOne, reportOne]
  cases netFdOf toNet (clearOne entry) <;> rfl

theorem mem_orIf (set : Bool) (bit other : PollBit) (revents : Events) :
    other ∈ orIf set bit revents ↔ set = true ∧ other = bit ∨ other ∈ revents := by
  cases set with
  | false => simp [orIf]
  | true => simp [orIf]

/-- The bits of an entry after the call: those of the sets its socket is reported in. -/
theorem mem_revents (entry : PollFd) (bit : PollBit) :
    bit ∈ (answerOne toNet reported entry).revents ↔
      ∃ nfd, netFdOf toNet entry = some nfd ∧
        (nfd ∈ reported.readfds ∧ bit = .pollin ∨ nfd ∈ reported.writefds ∧ bit = .pollout ∨
          nfd ∈ reported.exceptfds ∧ bit = .pollerr) := by
  rw [answerOne, reportOne, netFdOf_clearOne]
  cases known : netFdOf toNet entry with
  | none => simp [clearOne]
  | some nfd =>
      simp only [mem_orIf, clearOne, Finset.notMem_empty, or_false, decide_eq_true_eq,
        Option.some.injEq, exists_eq_left']
      constructor
      · rintro (except | write | read)
        · exact Or.inr (Or.inr except)
        · exact Or.inr (Or.inl write)
        · exact Or.inl read
      · rintro (read | write | except)
        · exact Or.inr (Or.inr read)
        · exact Or.inr (Or.inl write)
        · exact Or.inl except

theorem pollin_mem (entry : PollFd) :
    PollBit.pollin ∈ (answerOne toNet reported entry).revents ↔
      ∃ nfd, netFdOf toNet entry = some nfd ∧ nfd ∈ reported.readfds := by
  rw [mem_revents]
  simp

theorem pollout_mem (entry : PollFd) :
    PollBit.pollout ∈ (answerOne toNet reported entry).revents ↔
      ∃ nfd, netFdOf toNet entry = some nfd ∧ nfd ∈ reported.writefds := by
  rw [mem_revents]
  simp

/-- An entry hears something when its socket is reported in one of the sets. -/
theorem hears_answerOne (entry : PollFd) :
    hears (answerOne toNet reported entry) = holds (netFdOf toNet) (FdSets.sockets reported) entry := by
  rw [Bool.eq_iff_iff, holds_iff, hears, decide_eq_true_eq, ← Finset.nonempty_iff_ne_empty]
  constructor
  · rintro ⟨bit, heard⟩
    obtain ⟨nfd, named, why⟩ := (mem_revents toNet reported entry bit).mp heard
    refine ⟨nfd, named, ?_⟩
    rw [FdSets.sockets, Finset.mem_union, Finset.mem_union]
    obtain ⟨read, -⟩ | ⟨write, -⟩ | ⟨except, -⟩ := why
    · exact Or.inl (Or.inl read)
    · exact Or.inl (Or.inr write)
    · exact Or.inr except
  · rintro ⟨nfd, named, taken⟩
    rw [FdSets.sockets, Finset.mem_union, Finset.mem_union] at taken
    obtain (read | write) | except := taken
    · exact ⟨_, (mem_revents toNet reported entry _).mpr ⟨nfd, named, Or.inl ⟨read, rfl⟩⟩⟩
    · exact ⟨_, (mem_revents toNet reported entry _).mpr ⟨nfd, named, Or.inr (Or.inl ⟨write, rfl⟩)⟩⟩
    · exact ⟨_, (mem_revents toNet reported entry _).mpr ⟨nfd, named, Or.inr (Or.inr ⟨except, rfl⟩)⟩⟩

theorem entryKept_iff (entry : PollFd) :
    EntryKept toNet reported entry (answerOne toNet reported entry) ↔
      ∀ nfd, netFdOf toNet entry = some nfd →
        (nfd ∈ reported.readfds → PollBit.pollin ∈ entry.events) ∧
          (nfd ∈ reported.writefds → PollBit.pollout ∈ entry.events) := by
  constructor
  · intro kept nfd named
    constructor
    · intro read
      have heard := kept.asked ((pollin_mem toNet reported entry).mpr ⟨nfd, named, read⟩)
      simpa using heard
    · intro write
      have heard := kept.asked ((pollout_mem toNet reported entry).mpr ⟨nfd, named, write⟩)
      simpa using heard
  · intro agreed
    refine
      { fd := answerOne_fd toNet reported entry
        events := answerOne_events toNet reported entry
        asked := ?_
        pollin := fun _ => pollin_mem toNet reported entry
        pollout := fun _ => pollout_mem toNet reported entry }
    intro bit heard
    obtain ⟨nfd, named, why⟩ := (mem_revents toNet reported entry bit).mp heard
    obtain ⟨read, rfl⟩ | ⟨write, rfl⟩ | ⟨-, rfl⟩ := why
    · exact Finset.mem_insert_of_mem ((agreed nfd named).1 read)
    · exact Finset.mem_insert_of_mem ((agreed nfd named).2 write)
    · exact Finset.mem_insert_self _ _

end Entry

/-! ## The whole call -/

section Call

variable (toNet : Int → Option Nat)

theorem poll_fds (netSelect : NetSelect) (fds : List PollFd) (timeout : Int32) :
    (poll toNet netSelect fds timeout).fds =
      fds.map (answerOne toNet (pollAnswer toNet netSelect fds timeout).reported) := by
  rw [poll, List.map_map]
  rfl

theorem hearing_entries (reported : FdSets) (fds : List PollFd) :
    (fds.map (answerOne toNet reported)).countP hears =
      ∑ nfd ∈ FdSets.sockets reported, naming (netFdOf toNet) fds nfd := by
  rw [List.countP_map, ← countP_holds]
  exact List.countP_congr fun entry _ => by
    rw [Function.comp_apply, hears_answerOne]

theorem kept_iff_agreed (netSelect : NetSelect) (honest : Honest netSelect) (fds : List PollFd)
    (timeout : Int32) :
    PollKept toNet (pollAnswer toNet netSelect fds timeout) fds
        (poll toNet netSelect fds timeout) ↔
      Agreed toNet (pollAnswer toNet netSelect fds timeout).reported fds := by
  have ret : (poll toNet netSelect fds timeout).ret =
      ((pollAnswer toNet netSelect fds timeout).reported.bits : Int) :=
    ret_reported honest _ _ _
  have heard := hearing_entries toNet (pollAnswer toNet netSelect fds timeout).reported fds
  constructor
  · intro kept
    have entries := kept.entries
    rw [poll_fds, List.forall₂_map_right_iff, List.forall₂_same] at entries
    refine ⟨?_, ?_, ?_⟩
    · intro entry inside nfd named read
      exact ((entryKept_iff toNet _ entry).mp (entries entry inside) nfd named).1 read
    · intro entry inside nfd named write
      exact ((entryKept_iff toNet _ entry).mp (entries entry inside) nfd named).2 write
    · have counted := kept.counted
      rw [ret, poll_fds, heard] at counted
      exact Int.ofNat.inj counted
  · intro agreed
    refine ⟨?_, ?_, ?_⟩
    · rw [poll_fds, List.forall₂_map_right_iff, List.forall₂_same]
      intro entry inside
      exact (entryKept_iff toNet _ entry).mpr fun nfd named =>
        ⟨agreed.pollin entry inside nfd named, agreed.pollout entry inside nfd named⟩
    · rw [ret, poll_fds, heard, agreed.balanced]
    · intro failed
      have none : (pollAnswer toNet netSelect fds timeout).reported = FdSets.zero := if_pos failed
      rw [ret, none]
      rfl

end Call

/-! ## Under every outcome -/

section Outcomes

variable (toNet : Int → Option Nat)

/-- What the first loop puts into one of the three sets. -/
theorem mem_asked_fold (part : FdSets → FdSet) (wants : PollFd → Bool)
    (one : ∀ state entry, part (askOne toNet state entry).given =
      match netFdOf toNet entry with
      | none => part state.given
      | some nfd => putIf (wants entry) nfd (part state.given))
    (fds : List PollFd) (state : Gathered) (nfd : Nat) :
    nfd ∈ part (fds.foldl (askOne toNet) state).given ↔
      nfd ∈ part state.given ∨
        ∃ entry ∈ fds, wants entry = true ∧ netFdOf toNet entry = some nfd := by
  induction fds generalizing state with
  | nil => simp
  | cons entry fds ih =>
      rw [List.foldl_cons, ih, one]
      cases known : netFdOf toNet entry with
      | none => simp [known]
      | some socket =>
          simp only [mem_putIf, List.mem_cons, exists_eq_or_imp, known, Option.some.injEq,
            or_assoc]

theorem mem_asked (fds : List PollFd) (nfd : Nat) :
    (nfd ∈ (ask toNet fds).given.readfds ↔
      ∃ entry ∈ fds, PollBit.pollin ∈ entry.events ∧ netFdOf toNet entry = some nfd) ∧
    (nfd ∈ (ask toNet fds).given.writefds ↔
      ∃ entry ∈ fds, PollBit.pollout ∈ entry.events ∧ netFdOf toNet entry = some nfd) := by
  have reads := mem_asked_fold toNet FdSets.readfds (fun entry => PollBit.pollin ∈ entry.events)
    (fun state entry => by unfold askOne; cases netFdOf toNet entry <;> rfl) fds
    ⟨0, FdSets.zero⟩ nfd
  have writes := mem_asked_fold toNet FdSets.writefds (fun entry => PollBit.pollout ∈ entry.events)
    (fun state entry => by unfold askOne; cases netFdOf toNet entry <;> rfl) fds
    ⟨0, FdSets.zero⟩ nfd
  simp only [FdSets.zero, Finset.notMem_empty, false_or, decide_eq_true_eq] at reads writes
  exact ⟨reads, writes⟩

/-- Each socket that something is asked of is named by one entry and asked for one thing. -/
structure AskedOnce (fds : List PollFd) : Prop where
  named : ∀ nfd ∈ FdSets.sockets (ask toNet fds).given, naming (netFdOf toNet) fds nfd = 1
  readWrite : Disjoint (ask toNet fds).given.readfds (ask toNet fds).given.writefds
  except : Disjoint ((ask toNet fds).given.readfds ∪ (ask toNet fds).given.writefds)
    (ask toNet fds).given.exceptfds

/-- The outcome that reports these bits as far as they were asked for. -/
def reporting (chosen : FdSets) : NetSelect := fun _ asked _ =>
  let sets : FdSets :=
    ⟨chosen.readfds ∩ asked.readfds, chosen.writefds ∩ asked.writefds,
      chosen.exceptfds ∩ asked.exceptfds⟩
  ⟨sets.bits, sets⟩

theorem reporting_honest (chosen : FdSets) : Honest (reporting chosen) := fun _ _ _ =>
  Or.inr ⟨⟨Finset.inter_subset_right, Finset.inter_subset_right, Finset.inter_subset_right⟩, rfl⟩

theorem reporting_reported (chosen : FdSets) (fds : List PollFd) (timeout : Int32)
    (within : chosen.Within (ask toNet fds).given) :
    (pollAnswer toNet (reporting chosen) fds timeout).reported = chosen := by
  obtain ⟨reads, writes, excepts⟩ := within
  have sets : (pollAnswer toNet (reporting chosen) fds timeout).sets = chosen := by
    simp only [pollAnswer, reporting, Finset.inter_eq_left.mpr reads,
      Finset.inter_eq_left.mpr writes, Finset.inter_eq_left.mpr excepts]
  have ret : ¬ (pollAnswer toNet (reporting chosen) fds timeout).ret < 0 :=
    not_lt.mpr (Int.natCast_nonneg _)
  rw [NetAnswer.reported, if_neg ret, sets]

theorem sockets_within {sets asked : FdSets} (within : sets.Within asked) :
    FdSets.sockets sets ⊆ FdSets.sockets asked :=
  Finset.union_subset_union (Finset.union_subset_union within.1 within.2.1) within.2.2

/-- Only one entry names the socket, so it is the one that asked. -/
theorem sole_entry {fds : List PollFd} {nfd : Nat} {asker entry : PollFd}
    (sole : naming (netFdOf toNet) fds nfd = 1) (askerIn : asker ∈ fds) (entryIn : entry ∈ fds)
    (askerNames : netFdOf toNet asker = some nfd) (entryNames : netFdOf toNet entry = some nfd) :
    entry = asker := by
  rw [naming, List.countP_eq_length_filter, List.length_eq_one_iff] at sole
  obtain ⟨only, filtered⟩ := sole
  have isOnly : ∀ other ∈ fds, netFdOf toNet other = some nfd → other = only := by
    intro other inside names
    have kept : other ∈ fds.filter fun member => decide (netFdOf toNet member = some nfd) :=
      List.mem_filter.mpr ⟨inside, decide_eq_true names⟩
    rw [filtered] at kept
    exact List.mem_singleton.mp kept
  rw [isOnly entry entryIn entryNames, isOnly asker askerIn askerNames]

theorem agreed_of_askedOnce {fds : List PollFd} (once : AskedOnce toNet fds) {reported : FdSets}
    (within : reported.Within (ask toNet fds).given) : Agreed toNet reported fds := by
  obtain ⟨reads, writes, excepts⟩ := within
  have inside := sockets_within ⟨reads, writes, excepts⟩
  refine ⟨?_, ?_, ?_⟩
  · intro entry entryIn nfd names read
    obtain ⟨asker, askerIn, asks, askerNames⟩ := (mem_asked toNet fds nfd).1.mp (reads read)
    have taken : nfd ∈ FdSets.sockets reported :=
      Finset.mem_union_left _ (Finset.mem_union_left _ read)
    rw [sole_entry toNet (once.named nfd (inside taken)) askerIn entryIn askerNames names]
    exact asks
  · intro entry entryIn nfd names write
    obtain ⟨asker, askerIn, asks, askerNames⟩ := (mem_asked toNet fds nfd).2.mp (writes write)
    have taken : nfd ∈ FdSets.sockets reported :=
      Finset.mem_union_left _ (Finset.mem_union_right _ write)
    rw [sole_entry toNet (once.named nfd (inside taken)) askerIn entryIn askerNames names]
    exact asks
  · have readWrite := Finset.disjoint_of_subset_left reads
      (Finset.disjoint_of_subset_right writes once.readWrite)
    have except := Finset.disjoint_of_subset_left (Finset.union_subset_union reads writes)
      (Finset.disjoint_of_subset_right excepts once.except)
    rw [Finset.sum_congr rfl fun nfd taken => once.named nfd (inside taken),
      ← Finset.card_eq_sum_ones, FdSets.sockets, Finset.card_union_of_disjoint except,
      Finset.card_union_of_disjoint readWrite, FdSets.bits]

theorem askedOnce_of_agreed {fds : List PollFd}
    (agreed : ∀ reported : FdSets, reported.Within (ask toNet fds).given →
      Agreed toNet reported fds) : AskedOnce toNet fds := by
  have named : ∀ nfd ∈ FdSets.sockets (ask toNet fds).given,
      naming (netFdOf toNet) fds nfd = 1 := by
    intro nfd taken
    rw [FdSets.sockets, Finset.mem_union, Finset.mem_union] at taken
    obtain (read | write) | except := taken
    · have balanced := (agreed ⟨{nfd}, ∅, ∅⟩
        ⟨by simpa using read, Finset.empty_subset _, Finset.empty_subset _⟩).balanced
      simpa [FdSets.bits, FdSets.sockets, eq_comm] using balanced
    · have balanced := (agreed ⟨∅, {nfd}, ∅⟩
        ⟨Finset.empty_subset _, by simpa using write, Finset.empty_subset _⟩).balanced
      simpa [FdSets.bits, FdSets.sockets, eq_comm] using balanced
    · have balanced := (agreed ⟨∅, ∅, {nfd}⟩
        ⟨Finset.empty_subset _, Finset.empty_subset _, by simpa using except⟩).balanced
      simpa [FdSets.bits, FdSets.sockets, eq_comm] using balanced
  refine ⟨named, ?_, ?_⟩
  · rw [Finset.disjoint_left]
    intro nfd read write
    have balanced := (agreed ⟨{nfd}, {nfd}, ∅⟩
      ⟨by simpa using read, by simpa using write, Finset.empty_subset _⟩).balanced
    have one := named nfd (Finset.mem_union_left _ (Finset.mem_union_left _ read))
    simp [FdSets.bits, FdSets.sockets, one] at balanced
  · rw [Finset.disjoint_left]
    intro nfd readWrite except
    have one := named nfd (Finset.mem_union_right _ except)
    obtain read | write := Finset.mem_union.mp readWrite
    · have balanced := (agreed ⟨{nfd}, ∅, {nfd}⟩
        ⟨by simpa using read, Finset.empty_subset _, by simpa using except⟩).balanced
      simp [FdSets.bits, FdSets.sockets, one] at balanced
    · have balanced := (agreed ⟨∅, {nfd}, {nfd}⟩
        ⟨Finset.empty_subset _, by simpa using write, by simpa using except⟩).balanced
      simp [FdSets.bits, FdSets.sockets, one] at balanced

/-- In one call poll does what it should exactly when the outcome agrees with the entries;
it does so whatever `net_select` answers exactly when no socket is asked twice. -/
theorem poll_kept_iff (fds : List PollFd) (timeout : Int32) :
    (∀ netSelect, Honest netSelect →
        (PollKept toNet (pollAnswer toNet netSelect fds timeout) fds
            (poll toNet netSelect fds timeout) ↔
          Agreed toNet (pollAnswer toNet netSelect fds timeout).reported fds)) ∧
      ((∀ netSelect, Honest netSelect →
          PollKept toNet (pollAnswer toNet netSelect fds timeout) fds
            (poll toNet netSelect fds timeout)) ↔
        AskedOnce toNet fds) := by
  refine ⟨fun netSelect honest => kept_iff_agreed toNet netSelect honest fds timeout, ?_⟩
  constructor
  · intro always
    refine askedOnce_of_agreed toNet fun reported within => ?_
    have honest := reporting_honest reported
    have agreed := (kept_iff_agreed toNet _ honest fds timeout).mp (always _ honest)
    rwa [reporting_reported toNet reported fds timeout within] at agreed
  · intro once netSelect honest
    exact (kept_iff_agreed toNet netSelect honest fds timeout).mpr
      (agreed_of_askedOnce toNet once (reported_within honest _ _ _))

end Outcomes

/-- One entry that is ready for reading and writing counts twice; one that asked for writing
only hears of the reading that another entry of its socket asked for. -/
theorem poll_reports_of_sockets :
    Separates twoSockets ∧ Honest allReady ∧
      (poll twoSockets allReady [⟨3, {.pollin, .pollout}, ∅⟩] 0).ret = 2 ∧
      (poll twoSockets allReady [⟨3, {.pollin, .pollout}, ∅⟩] 0).fds.countP hears = 1 ∧
      (poll twoSockets allReady [⟨3, {.pollin}, ∅⟩, ⟨3, {.pollout}, ∅⟩] 0).fds =
        [⟨3, {.pollin}, {.pollout, .pollin}⟩, ⟨3, {.pollout}, {.pollout, .pollin}⟩] ∧
      ¬ PollKept twoSockets (pollAnswer twoSockets allReady [⟨3, {.pollin, .pollout}, ∅⟩] 0)
        [⟨3, {.pollin, .pollout}, ∅⟩]
        (poll twoSockets allReady [⟨3, {.pollin, .pollout}, ∅⟩] 0) :=
  ⟨twoSockets_separates, allReady_honest, by decide, by decide, rfl,
    fun kept => absurd kept.counted (by decide)⟩

end MoonlightWii.Wii.SocketPoll
