import MoonlightWii.Foundation.DoublyLinked

/-!
# Blocking queues

`LinkedBlockingQueue.c` of the streaming library, which passes frames, packets and input events
between threads.  Any threads offer items, one thread takes them and may sleep for them.
-/

set_option autoImplicit false

namespace MoonlightWii.Limelight.LinkedBlockingQueue

open Foundation.DoublyLinked

universe u

variable {Data : Type u}

/-- The results of the functions, `LBQ_SUCCESS` and the others. -/
inductive Status
  | success
  | interrupted
  | boundExceeded
  | noElement
  | userWake
  deriving DecidableEq

/-- `LINKED_BLOCKING_QUEUE`, with the memory of the entries. -/
structure Queue (Data : Type u) where
  links : Links ℕ
  data : ℕ → Data
  head : Option ℕ
  tail : Option ℕ
  sizeBound : ℕ
  currentSize : ℕ
  shutdown : Bool
  draining : Bool
  pendingUserWake : Bool

/-- `LbqInitializeLinkedBlockingQueue`. -/
def LbqInitializeLinkedBlockingQueue (links : Links ℕ) (data : ℕ → Data) (sizeBound : ℕ) :
    Queue Data where
  links := links
  data := data
  head := none
  tail := none
  sizeBound := sizeBound
  currentSize := 0
  shutdown := false
  draining := false
  pendingUserWake := false

/-- `LbqFlushQueueItems`, and the old head. -/
def LbqFlushQueueItems (queue : Queue Data) : Option ℕ × Queue Data :=
  (queue.head, if queue.head = none then queue
    else { queue with head := none, tail := none, currentSize := 0 })

/-- `LbqOfferQueueItem` before it signals, and whether it has to. -/
def LbqOfferQueueItem (queue : Queue Data) (data : Data) (entry : ℕ) :
    Status × Bool × Queue Data :=
  let queue := { queue with
    links := { queue.links with flink := Function.update queue.links.flink entry none }
    data := Function.update queue.data entry data }
  if queue.shutdown ∨ queue.draining then (.interrupted, false, queue)
  else if queue.currentSize = queue.sizeBound then (.boundExceeded, false, queue)
  else
    (.success, queue.head = none, { queue with
      links := append queue.links (if queue.head = none then none else queue.tail) entry
      head := if queue.head = none then some entry else queue.head
      tail := some entry
      currentSize := queue.currentSize + 1 })

/-- Takes the first entry out. -/
def removeHead (queue : Queue Data) (entry : ℕ) : Queue Data :=
  let head := queue.links.flink entry
  { queue with
    head := head
    currentSize := queue.currentSize - 1
    tail := if head = none then none else queue.tail
    links := clearBlink queue.links head }

/-- `LbqPollQueueElement`. -/
def LbqPollQueueElement (queue : Queue Data) : Status × Option Data × Queue Data :=
  if queue.shutdown then (.interrupted, none, queue)
  else
    match queue.head with
    | none => (if queue.draining then .interrupted else .noElement, none, queue)
    | some entry => (.success, some (queue.data entry), removeHead queue entry)

/-- The condition that `LbqWaitForQueueElement` waits for. -/
def wakes (queue : Queue Data) : Bool :=
  queue.head ≠ none ∨ queue.draining ∨ queue.shutdown ∨ queue.pendingUserWake

/-- `LbqWaitForQueueElement` after the wait. -/
def finishWait (queue : Queue Data) : Status × Option Data × Queue Data :=
  if queue.shutdown then (.interrupted, none, queue)
  else if queue.pendingUserWake then (.userWake, none, { queue with pendingUserWake := false })
  else
    match queue.head with
    | none => (.interrupted, none, queue)
    | some entry => (.success, some (queue.data entry), removeHead queue entry)

/-- The items, found by following the links from the head. -/
def addresses (queue : Queue Data) : List ℕ := walk queue.links queue.currentSize queue.head

def items (queue : Queue Data) : List Data := (addresses queue).map queue.data

section Memory

variable {queue : Queue Data}

/-- The entries of the queue are linked, and the fields say where they begin and end and how many
they are. -/
structure Represents (queue : Queue Data) (entries : List ℕ) : Prop where
  linked : Linked queue.links none entries
  distinct : entries.Nodup
  head : queue.head = entries.head?
  tail : queue.tail = entries.getLast?
  size : queue.currentSize = entries.length
  bound : entries.length ≤ queue.sizeBound

theorem Represents.addresses {entries : List ℕ} (represents : Represents queue entries) :
    addresses queue = entries := by
  unfold LinkedBlockingQueue.addresses
  rw [represents.size, represents.head]
  exact walk_linked represents.linked

theorem Represents.removeHead {entry : ℕ} {rest : List ℕ}
    (represents : Represents queue (entry :: rest)) :
    Represents (LinkedBlockingQueue.removeHead queue entry) rest := by
  have distinct := (List.nodup_cons.mp represents.distinct).2
  have size := represents.size
  have bound := represents.bound
  obtain ⟨_, forward, _⟩ := represents.linked
  rw [List.length_cons] at size bound
  unfold LinkedBlockingQueue.removeHead
  rw [forward]
  refine ⟨represents.linked.removeHead distinct, distinct, rfl, ?_, ?_, ?_⟩
  · cases rest with
    | nil => rfl
    | cons next rest => exact represents.tail.trans (List.getLast?_cons_cons ..)
  · exact Nat.sub_eq_of_eq_add size
  · exact Nat.le_of_succ_le bound

theorem Represents.flush {entries : List ℕ} (represents : Represents queue entries) :
    Represents (LbqFlushQueueItems queue).2 [] := by
  have head := represents.head
  have tail := represents.tail
  have size := represents.size
  unfold LbqFlushQueueItems
  cases entries with
  | nil =>
      have empty : queue.head = none := head
      rw [if_pos empty]
      exact represents
  | cons entry rest =>
      have some_head : queue.head ≠ none := by simp [head]
      rw [if_neg some_head]
      exact ⟨trivial, List.nodup_nil, rfl, rfl, rfl, Nat.zero_le _⟩

/-- Offering a free entry puts it behind the others, or changes nothing but this entry. -/
theorem Represents.offer {entries : List ℕ} (represents : Represents queue entries) {entry : ℕ}
    (free : entry ∉ entries) (data : Data) :
    let offered := LbqOfferQueueItem queue data entry
    (offered.1 = .success → Represents offered.2.2 (entries ++ [entry])) ∧
      (offered.1 ≠ .success → offered.2.1 = false ∧ Represents offered.2.2 entries) := by
  have head := represents.head
  have tail := represents.tail
  have size := represents.size
  have bound := represents.bound
  have kept : Linked ⟨Function.update queue.links.flink entry none, queue.links.blink⟩ none
      entries := represents.linked.congr fun address member => by
    have differs : address ≠ entry := by
      rintro rfl
      exact free member
    exact ⟨Function.update_of_ne differs .., rfl⟩
  intro offered
  unfold offered LbqOfferQueueItem
  dsimp only
  by_cases closed : queue.shutdown = true ∨ queue.draining = true
  · rw [if_pos closed]
    refine ⟨fun success => ?_, fun _ => ⟨rfl, kept, represents.distinct, head, tail, size, bound⟩⟩
    cases success
  rw [if_neg closed]
  by_cases full : queue.currentSize = queue.sizeBound
  · rw [if_pos full]
    refine ⟨fun success => ?_, fun _ => ⟨rfl, kept, represents.distinct, head, tail, size, bound⟩⟩
    cases success
  rw [if_neg full]
  refine ⟨fun _ => ?_, fun failed => absurd rfl failed⟩
  have distinct : (entries ++ [entry]).Nodup := by
    refine List.nodup_append.mpr ⟨represents.distinct, by simp, ?_⟩
    rintro address member _ new rfl
    exact free (List.mem_singleton.mp new ▸ member)
  have longer : (entries ++ [entry]).length = entries.length + 1 := List.length_append
  refine ⟨?_, distinct, ?_, ?_, ?_, ?_⟩
  · cases entries with
    | nil =>
        have empty : queue.head = none := head
        rw [if_pos empty]
        exact linked_singleton _ entry
    | cons first rest =>
        have some_head : queue.head ≠ none := by simp [head]
        rw [if_neg some_head, tail]
        exact kept.append represents.distinct free (List.cons_ne_nil _ _)
  · cases entries with
    | nil => exact if_pos head
    | cons first rest => exact (if_neg (by simp [head])).trans head
  · exact List.getLast?_concat.symm
  · rw [longer]
    exact congrArg Nat.succ size
  · change _ ≤ queue.sizeBound
    omega

theorem Represents.items {entries : List ℕ} (represents : Represents queue entries) :
    items queue = entries.map queue.data := by
  unfold LinkedBlockingQueue.items
  rw [represents.addresses]

theorem offer_data (queue : Queue Data) (data : Data) (entry : ℕ) :
    (LbqOfferQueueItem queue data entry).2.2.data = Function.update queue.data entry data := by
  unfold LbqOfferQueueItem
  dsimp only
  split_ifs
  all_goals rfl

theorem offer_bound (queue : Queue Data) (data : Data) (entry : ℕ) :
    (LbqOfferQueueItem queue data entry).2.2.sizeBound = queue.sizeBound := by
  unfold LbqOfferQueueItem
  dsimp only
  split_ifs
  all_goals rfl

/-- An offer that does not signal gives no reason to wake up that was not there before. -/
theorem offer_wakes (queue : Queue Data) (data : Data) (entry : ℕ) :
    (LbqOfferQueueItem queue data entry).2.1 = true ∨
      (wakes (LbqOfferQueueItem queue data entry).2.2 = true → wakes queue = true) := by
  unfold LbqOfferQueueItem
  dsimp only
  split_ifs with closed full empty
  · exact Or.inr id
  · exact Or.inr id
  · exact Or.inl (decide_eq_true empty)
  · exact Or.inr fun _ => decide_eq_true (Or.inl empty)

end Memory

section Threads

/-- Where the thread that takes the items is: not in `LbqWaitForQueueElement`, asleep in it, or
woken up. -/
inductive Consumer
  | outside
  | asleep
  | woken
  deriving DecidableEq

inductive Removal (Data : Type u)
  | taken (data : Data)
  | flushed (data : Data)

def Removal.data : Removal Data → Data
  | .taken data => data
  | .flushed data => data

/-- The queue, the consumer, how many threads have left the lock and are about to signal, and what
was put in and taken out. -/
structure System (Data : Type u) where
  queue : Queue Data
  consumer : Consumer
  signals : ℕ
  accepted : List Data
  removed : List (Removal Data)

/-- What a thread does inside the lock, and the signal after it. -/
inductive Event (Data : Type u)
  | offer (data : Data) (entry : ℕ)
  | flush
  | signalShutdown
  | signalDrain
  | signalUserWake
  | signal
  | poll
  | wait
  | wakeUp

/-- The consumer leaves with what it found. -/
def leave (system : System Data) (found : Status × Option Data × Queue Data) : System Data :=
  { system with
    queue := found.2.2
    consumer := .outside
    removed := system.removed ++ (found.2.1.map Removal.taken).toList }

/-- A sleeping thread may also wake up on its own. -/
def step (system : System Data) : Event Data → System Data
  | .offer data entry =>
    let offered := LbqOfferQueueItem system.queue data entry
    { system with
      queue := offered.2.2
      signals := if offered.2.1 then system.signals + 1 else system.signals
      accepted := if offered.1 = .success then system.accepted ++ [data] else system.accepted }
  | .flush =>
    { system with
      queue := (LbqFlushQueueItems system.queue).2
      removed := system.removed ++ (items system.queue).map Removal.flushed }
  | .signalShutdown =>
    { system with
      queue := { system.queue with shutdown := true }
      signals := system.signals + 1 }
  | .signalDrain =>
    { system with
      queue := { system.queue with draining := true }
      signals := system.signals + 1 }
  | .signalUserWake =>
    { system with
      queue := { system.queue with pendingUserWake := true }
      signals := system.signals + 1 }
  | .signal =>
    if system.signals = 0 then system
    else { system with
      signals := system.signals - 1
      consumer := if system.consumer = .asleep then .woken else system.consumer }
  | .poll =>
    if system.consumer = .outside then leave system (LbqPollQueueElement system.queue) else system
  | .wait =>
    if system.consumer = .asleep then system
    else if wakes system.queue then leave system (finishWait system.queue)
    else { system with consumer := .asleep }
  | .wakeUp => { system with
      consumer := if system.consumer = .asleep then .woken else system.consumer }

/-- An entry that is in the queue is not offered again. -/
def Allowed (system : System Data) : Event Data → Prop
  | .offer _ entry => entry ∉ addresses system.queue
  | _ => True

/-- A queue in use. -/
inductive Reachable (links : Links ℕ) (data : ℕ → Data) (sizeBound : ℕ) : System Data → Prop
  | start : Reachable links data sizeBound
      ⟨LbqInitializeLinkedBlockingQueue links data sizeBound, .outside, 0, [], []⟩
  | step {system : System Data} (event : Event Data) :
      Reachable links data sizeBound system → Allowed system event →
      Reachable links data sizeBound (step system event)

variable {system : System Data}

structure Invariant (sizeBound : ℕ) (system : System Data) : Prop where
  represents : ∃ entries, Represents system.queue entries
  bound : system.queue.sizeBound = sizeBound
  conserved : system.accepted = system.removed.map Removal.data ++ items system.queue
  awake : system.consumer = .asleep → wakes system.queue = true → 0 < system.signals

variable {sizeBound : ℕ}

theorem Invariant.offer (invariant : Invariant sizeBound system) (data : Data) {entry : ℕ}
    (free : entry ∉ addresses system.queue) :
    Invariant sizeBound (step system (.offer data entry)) := by
  obtain ⟨entries, represents⟩ := invariant.represents
  rw [represents.addresses] at free
  have offered := represents.offer free data
  have conserved := invariant.conserved
  have others : entries.map (Function.update system.queue.data entry data) =
      entries.map system.queue.data := by
    refine List.map_congr_left fun address member => ?_
    have differs : address ≠ entry := by
      rintro rfl
      exact free member
    exact Function.update_of_ne differs ..
  rw [represents.items] at conserved
  refine ⟨?_, (offer_bound ..).trans invariant.bound, ?_, fun asleep awake => ?_⟩
  · by_cases success : (LbqOfferQueueItem system.queue data entry).1 = .success
    · exact ⟨_, offered.1 success⟩
    · exact ⟨_, (offered.2 success).2⟩
  · unfold step
    dsimp only
    by_cases success : (LbqOfferQueueItem system.queue data entry).1 = .success
    · rw [if_pos success, (offered.1 success).items, offer_data, conserved, List.map_append, others,
        List.append_assoc]
      change _ = _ ++ (_ ++ [Function.update system.queue.data entry data entry])
      rw [Function.update_self]
    · rw [if_neg success, (offered.2 success).2.items, offer_data, conserved, others]
  · change 0 < if _ then system.signals + 1 else system.signals
    rcases offer_wakes system.queue data entry with signals | before
    · rw [if_pos signals]
      exact Nat.succ_pos _
    · have already := invariant.awake asleep (before awake)
      split_ifs
      · exact Nat.succ_pos _
      · exact already

theorem Invariant.flush (invariant : Invariant sizeBound system) :
    Invariant sizeBound (step system .flush) := by
  obtain ⟨entries, represents⟩ := invariant.represents
  have emptied := represents.flush
  have bound : (LbqFlushQueueItems system.queue).2.sizeBound = system.queue.sizeBound := by
    unfold LbqFlushQueueItems
    split_ifs
    all_goals rfl
  refine ⟨⟨[], emptied⟩, bound.trans invariant.bound, ?_, fun asleep awake => ?_⟩
  · change system.accepted = (system.removed ++ (items system.queue).map Removal.flushed).map _ ++
      items (LbqFlushQueueItems system.queue).2
    have data_back : ((items system.queue).map Removal.flushed).map Removal.data =
        items system.queue := by
      rw [List.map_map]
      exact List.map_id _
    rw [emptied.items, invariant.conserved, List.map_append, data_back, List.map_nil,
      List.append_nil]
  · refine invariant.awake asleep ?_
    change wakes (LbqFlushQueueItems system.queue).2 = true at awake
    unfold LbqFlushQueueItems at awake
    split_ifs at awake with empty
    · exact awake
    · exact decide_eq_true (Or.inl empty)

/-- What the consumer leaves with is the first item, or nothing. -/
theorem Invariant.leave (invariant : Invariant sizeBound system)
    {found : Status × Option Data × Queue Data}
    (first : (∃ entry, system.queue.head = some entry ∧
        found.2 = (some (system.queue.data entry), removeHead system.queue entry)) ∨
      (found.2.1 = none ∧ ∃ wake, found.2.2 = { system.queue with pendingUserWake := wake })) :
    Invariant sizeBound (leave system found) := by
  obtain ⟨entries, represents⟩ := invariant.represents
  have conserved := invariant.conserved
  rw [represents.items] at conserved
  unfold LinkedBlockingQueue.leave
  rcases first with ⟨entry, head, removed⟩ | ⟨nothing, wake, kept⟩
  · rw [removed]
    obtain ⟨address, rest, rfl⟩ : ∃ address rest, entries = address :: rest := by
      refine List.exists_cons_of_ne_nil ?_
      rintro rfl
      cases head.symm.trans represents.head
    have same : entry = address := Option.some.inj (head.symm.trans represents.head)
    subst same
    refine ⟨⟨rest, represents.removeHead⟩, invariant.bound, ?_, fun asleep => by cases asleep⟩
    dsimp only
    rw [represents.removeHead.items, conserved, List.map_append, List.append_assoc]
    rfl
  · rw [nothing, kept]
    have still : Represents { system.queue with pendingUserWake := wake } entries :=
      ⟨represents.linked, represents.distinct, represents.head, represents.tail, represents.size,
        represents.bound⟩
    refine ⟨⟨entries, still⟩, invariant.bound, ?_, fun asleep => by cases asleep⟩
    dsimp only
    rw [still.items, conserved]
    simp

theorem Invariant.step (invariant : Invariant sizeBound system) {event : Event Data}
    (allowed : Allowed system event) : Invariant sizeBound (step system event) := by
  obtain ⟨entries, represents⟩ := invariant.represents
  have flagged : ∀ {queue : Queue Data}, Represents queue entries → queue.sizeBound = sizeBound →
      items queue = items system.queue →
      Invariant sizeBound { system with queue := queue, signals := system.signals + 1 } :=
    fun represents bound same => ⟨⟨_, represents⟩, bound, invariant.conserved.trans (by rw [same]),
      fun _ _ => Nat.succ_pos _⟩
  cases event with
  | offer data entry => exact invariant.offer data allowed
  | flush => exact invariant.flush
  | signalShutdown =>
      exact flagged ⟨represents.linked, represents.distinct, represents.head, represents.tail,
        represents.size, represents.bound⟩ invariant.bound rfl
  | signalDrain =>
      exact flagged ⟨represents.linked, represents.distinct, represents.head, represents.tail,
        represents.size, represents.bound⟩ invariant.bound rfl
  | signalUserWake =>
      exact flagged ⟨represents.linked, represents.distinct, represents.head, represents.tail,
        represents.size, represents.bound⟩ invariant.bound rfl
  | signal =>
      unfold LinkedBlockingQueue.step
      dsimp only
      split_ifs with none asleep
      · exact invariant
      · exact ⟨invariant.represents, invariant.bound, invariant.conserved, fun woken => by
          cases woken⟩
      · exact ⟨invariant.represents, invariant.bound, invariant.conserved,
          fun still => absurd still asleep⟩
  | poll =>
      unfold LinkedBlockingQueue.step LbqPollQueueElement
      dsimp only
      by_cases outside : system.consumer = .outside
      · rw [if_pos outside]
        by_cases shutdown : system.queue.shutdown = true
        · rw [if_pos shutdown]
          exact invariant.leave (Or.inr ⟨rfl, _, rfl⟩)
        · rw [if_neg shutdown]
          cases head : system.queue.head with
          | none => exact invariant.leave (Or.inr ⟨rfl, _, rfl⟩)
          | some entry => exact invariant.leave (Or.inl ⟨entry, head, rfl⟩)
      · rw [if_neg outside]
        exact invariant
  | wait =>
      unfold LinkedBlockingQueue.step finishWait
      dsimp only
      split_ifs with asleep awake shutdown wake
      · exact invariant
      · exact invariant.leave (Or.inr ⟨rfl, _, rfl⟩)
      · exact invariant.leave (Or.inr ⟨rfl, _, rfl⟩)
      · cases head : system.queue.head with
        | none => exact invariant.leave (Or.inr ⟨rfl, _, rfl⟩)
        | some entry => exact invariant.leave (Or.inl ⟨entry, head, rfl⟩)
      · exact ⟨invariant.represents, invariant.bound, invariant.conserved,
          fun _ reason => absurd reason awake⟩
  | wakeUp =>
      unfold LinkedBlockingQueue.step
      dsimp only
      split_ifs with asleep
      · exact ⟨invariant.represents, invariant.bound, invariant.conserved, fun woken => by
          cases woken⟩
      · exact ⟨invariant.represents, invariant.bound, invariant.conserved,
          fun still => absurd still asleep⟩

variable {links : Links ℕ} {data : ℕ → Data}

theorem reachable_invariant (reachable : Reachable links data sizeBound system) :
    Invariant sizeBound system := by
  induction reachable with
  | start =>
      exact ⟨⟨[], trivial, List.nodup_nil, rfl, rfl, rfl, Nat.zero_le _⟩, rfl, rfl,
        fun asleep => by cases asleep⟩
  | step event _ allowed holds => exact holds.step allowed

/-- In any order of what the threads do, the items are taken out or flushed in the order in which
they were accepted, each once, and the others are still there, no more than the bound. -/
theorem first_in_first_out (reachable : Reachable links data sizeBound system) :
    system.accepted = system.removed.map Removal.data ++ items system.queue ∧
      (items system.queue).length = system.queue.currentSize ∧
      system.queue.currentSize ≤ sizeBound ∧
      (system.queue.head = none ↔ system.queue.currentSize = 0) ∧
      (system.queue.tail = none ↔ system.queue.currentSize = 0) := by
  have invariant := reachable_invariant reachable
  obtain ⟨entries, represents⟩ := invariant.represents
  rw [represents.head, represents.tail, represents.size, ← invariant.bound]
  refine ⟨invariant.conserved, ?_, represents.bound, ?_, ?_⟩
  · rw [represents.items, List.length_map]
  · rw [List.head?_eq_none_iff, List.length_eq_zero_iff]
  · rw [List.getLast?_eq_none_iff, List.length_eq_zero_iff]

/-- The consumer does not sleep on, once the signals are made, while there is an item or another
reason to wake up. -/
theorem no_lost_wakeup (reachable : Reachable links data sizeBound system)
    (asleep : system.consumer = .asleep) (signalled : system.signals = 0) :
    items system.queue = [] ∧ system.queue.draining = false ∧ system.queue.shutdown = false ∧
      system.queue.pendingUserWake = false := by
  have invariant := reachable_invariant reachable
  obtain ⟨entries, represents⟩ := invariant.represents
  have no_reason : ¬ wakes system.queue = true := fun reason =>
    absurd (invariant.awake asleep reason) (by omega)
  unfold wakes at no_reason
  rw [decide_eq_true_eq, not_or, not_or, not_or, not_not] at no_reason
  obtain ⟨empty, not_draining, not_shutdown, no_wake⟩ := no_reason
  refine ⟨?_, Bool.eq_false_iff.mpr not_draining, Bool.eq_false_iff.mpr not_shutdown,
    Bool.eq_false_iff.mpr no_wake⟩
  rw [represents.head, List.head?_eq_none_iff] at empty
  rw [represents.items, empty, List.map_nil]

def unlinked : Links ℕ := ⟨fun _ => none, fun _ => none⟩

/-- The consumer sleeps, an item comes, and it sleeps again after it took the item. -/
def sleepTwice : System ℕ :=
  [.wait, .offer 7 0, .signal, .wait, .wait].foldl step
    ⟨LbqInitializeLinkedBlockingQueue unlinked (fun _ => 0) 15, .outside, 0, [], []⟩

theorem sleepTwice_reachable : Reachable unlinked (fun _ => 0) 15 sleepTwice :=
  have free : (0 : ℕ) ∉ ([] : List ℕ) := List.not_mem_nil
  ((((Reachable.start.step .wait trivial).step (.offer 7 0) free).step .signal
    trivial).step .wait trivial).step .wait trivial

theorem first_in_first_out_once :
    sleepTwice.accepted = [7] ∧
      sleepTwice.accepted = sleepTwice.removed.map Removal.data ++ items sleepTwice.queue :=
  ⟨by decide, (first_in_first_out sleepTwice_reachable).1⟩

theorem no_lost_wakeup_twice : items sleepTwice.queue = [] ∧ sleepTwice.queue.draining = false ∧
    sleepTwice.queue.shutdown = false ∧ sleepTwice.queue.pendingUserWake = false :=
  no_lost_wakeup sleepTwice_reachable (by decide) (by decide)

end Threads

end MoonlightWii.Limelight.LinkedBlockingQueue
