import Mathlib.Data.List.Induction
import MoonlightWii.Wii.Input

/-!
# Presses of the Home button

The menu poller and the input thread scan the remote in any order, and both pass the
level of the Home button on to `home_poll` when the remote has data.  A press begins
with a scan that finds Home down after none or one that has found it up, and ends with
the next scan that finds it up; scans without data neither begin nor end one.
-/

set_option autoImplicit false

namespace MoonlightWii.Wii.HomePresses

open MoonlightWii.Wii.Input

inductive Source where
  | inputThread
  | menu

structure HomeScan where
  source : Source
  microsNow : UInt64
  wiimote : WpadData

/-- The level of the Home button, if the remote has data. -/
def HomeScan.level (scan : HomeScan) : Option Bool :=
  if scan.wiimote.ready then some (scan.wiimote.held .home) else none

/-- The action of a scan: what `wii_input_update` or `wii_input_buttons_triggered` does
about the Home button. -/
def homeStep (home : HomeButton) (scan : HomeScan) : HomeAction × HomeButton :=
  match scan.source with
  | .inputThread =>
      let updated := wiiInputUpdate true home scan.microsNow scan.wiimote
      match updated.1 with
      | .stopRunning => (.quit, updated.2)
      | .stopStream => (.back, updated.2)
      | .nothing => (.none, updated.2)
      | .send _ => (.none, updated.2)
  | .menu =>
      let triggered := wiiInputButtonsTriggered true home scan.microsNow scan.wiimote
      match triggered.poll with
      | .stopRunning => (.quit, triggered.home)
      | .wantMainMenu => (.back, triggered.home)
      | .nothing => (.none, triggered.home)

/-- The tracker before the first scan. -/
def released : HomeButton := ⟨0, false, false⟩

def trackerAfter (home : HomeButton) (scans : List HomeScan) : HomeButton :=
  scans.foldl (fun tracker scan => (homeStep tracker scan).2) home

/-- The actions of some scans, other than none. -/
def fired (home : HomeButton) : List HomeScan → List HomeAction
  | [] => []
  | scan :: scans =>
      let stepped := homeStep home scan
      if stepped.1 = .none then fired stepped.2 scans else stepped.1 :: fired stepped.2 scans

/-- No scan with data has found Home down since it was last found up. -/
def Idle (scans : List HomeScan) : Prop :=
  (scans.filterMap HomeScan.level).getLast? ≠ some true

/-- No scan finds Home up. -/
def NotUp (scans : List HomeScan) : Prop := ∀ scan ∈ scans, scan.level ≠ some false

/-! ## One scan -/

theorem homeStep_none {home : HomeButton} {scan : HomeScan} (absent : scan.level = none) :
    homeStep home scan = (.none, home) := by
  have not_ready : scan.wiimote.ready = false := by
    unfold HomeScan.level at absent
    split at absent
    · cases absent
    · rename_i missing
      exact Bool.eq_false_iff.mpr missing
  unfold homeStep
  cases scan.source with
  | inputThread => simp [wiiInputUpdate, not_ready]
  | menu => simp [wiiInputButtonsTriggered, not_ready]

theorem homeStep_level {home : HomeButton} {scan : HomeScan} {down : Bool}
    (read : scan.level = some down) : homeStep home scan = homePoll home scan.microsNow down := by
  obtain ⟨ready, level⟩ : scan.wiimote.ready = true ∧ scan.wiimote.held .home = down := by
    unfold HomeScan.level at read
    split at read
    · rename_i ready
      exact ⟨ready, Option.some.inj read⟩
    · cases read
  rw [← level]
  unfold homeStep
  cases scan.source with
  | inputThread =>
      simp only [wiiInputUpdate, ready, Bool.not_true, Bool.false_eq_true, if_false, if_true]
      cases homePoll home scan.microsNow (scan.wiimote.held .home) with
      | mk action polled => cases action <;> rfl
  | menu =>
      simp only [wiiInputButtonsTriggered, ready, Bool.not_true, Bool.false_eq_true, if_false,
        if_true]
      cases homePoll home scan.microsNow (scan.wiimote.held .home) with
      | mk action polled => cases action <;> rfl

/-- A scan that does not find Home up, while Home is held. -/
theorem homeStep_held {home : HomeButton} {scan : HomeScan} (held : home.homeHeld = true)
    (not_up : scan.level ≠ some false) :
    homeStep home scan = (.none, home) ∨
      (scan.level = some true ∧ home.homeLongFired = false ∧
        homeHoldMicros < scan.microsNow - home.homeDownMicros ∧
        homeStep home scan = (.quit, { home with homeLongFired := true })) := by
  cases read : scan.level with
  | none => exact Or.inl (homeStep_none read)
  | some down =>
      cases down with
      | false => exact absurd read not_up
      | true =>
          rw [homeStep_level read, homePoll, if_pos rfl, held]
          by_cases long : (!home.homeLongFired && homeHoldMicros <
              scan.microsNow - home.homeDownMicros) = true
          · obtain ⟨unfired, waited⟩ := Bool.and_eq_true_iff.mp long
            have first : home.homeLongFired = false := by simpa using unfired
            exact Or.inr ⟨rfl, first, of_decide_eq_true waited, by simp [long]⟩
          · exact Or.inl (by simp [long])

/-- The scan that begins a press does nothing yet. -/
theorem homeStep_press {home : HomeButton} {scan : HomeScan} (idle : home.homeHeld = false)
    (down : scan.level = some true) :
    homeStep home scan = (.none, ⟨scan.microsNow, true, false⟩) := by
  rw [homeStep_level down, homePoll, if_pos rfl, idle]
  rfl

/-- The scan that ends a press goes back unless the press has quit. -/
theorem homeStep_release {home : HomeButton} {scan : HomeScan} (held : home.homeHeld = true)
    (up : scan.level = some false) :
    homeStep home scan = (if home.homeLongFired then .none else .back,
      { home with homeHeld := false, homeLongFired := false }) := by
  rw [homeStep_level up, homePoll, if_neg Bool.false_ne_true, held]
  cases home.homeLongFired with
  | false => rfl
  | true => rfl

theorem homeStep_down_held {home : HomeButton} {scan : HomeScan} (down : scan.level = some true) :
    (homeStep home scan).2.homeHeld = true := by
  cases held : home.homeHeld with
  | false => rw [homeStep_press held down]
  | true =>
      rcases homeStep_held held (by rw [down]; decide) with same | ⟨-, -, -, quit⟩
      · rw [same]
        exact held
      · rw [quit]
        exact held

theorem homeStep_up_released {home : HomeButton} {scan : HomeScan} (up : scan.level = some false) :
    (homeStep home scan).2.homeHeld = false := by
  rw [homeStep_level up]
  rfl

theorem homeStep_quit {home : HomeButton} {scan : HomeScan}
    (quit : (homeStep home scan).1 = .quit) :
    home.homeHeld = true ∧ scan.level = some true ∧
      homeHoldMicros < scan.microsNow - home.homeDownMicros := by
  cases held : home.homeHeld with
  | false =>
      cases read : scan.level with
      | none =>
          rw [homeStep_none read] at quit
          cases quit
      | some down =>
          cases down with
          | false =>
              rw [homeStep_level read, homePoll, if_neg Bool.false_ne_true, held] at quit
              cases quit
          | true =>
              rw [homeStep_press held read] at quit
              cases quit
  | true =>
      by_cases up : scan.level = some false
      · rw [homeStep_release held up] at quit
        cases fired_before : home.homeLongFired with
        | false => simp [fired_before] at quit
        | true => simp [fired_before] at quit
      · rcases homeStep_held held up with same | ⟨down, -, waited, -⟩
        · rw [same] at quit
          cases quit
        · exact ⟨rfl, down, waited⟩

/-! ## A run -/

theorem trackerAfter_append (home : HomeButton) (scans : List HomeScan) (scan : HomeScan) :
    trackerAfter home (scans ++ [scan]) = (homeStep (trackerAfter home scans) scan).2 := by
  rw [trackerAfter, List.foldl_append]
  rfl

theorem fired_append (home : HomeButton) (first later : List HomeScan) :
    fired home (first ++ later) = fired home first ++ fired (trackerAfter home first) later := by
  induction first generalizing home with
  | nil => rfl
  | cons scan first ih =>
      rw [List.cons_append, fired, fired, ih]
      split
      · rfl
      · rfl

theorem idle_append {scans : List HomeScan} {scan : HomeScan} :
    Idle (scans ++ [scan]) ↔
      match scan.level with
      | none => Idle scans
      | some down => down = false := by
  unfold Idle
  rw [List.filterMap_append]
  cases read : scan.level with
  | none => rw [List.filterMap_cons_none read, List.filterMap_nil, List.append_nil]
  | some down =>
      rw [List.filterMap_cons_some read, List.filterMap_nil, List.getLast?_concat]
      simp

/-- The tracker holds Home exactly when the last scan with data has found it down. -/
theorem released_iff_idle (scans : List HomeScan) :
    (trackerAfter released scans).homeHeld = false ↔ Idle scans := by
  induction scans using List.reverseRecOn with
  | nil =>
      constructor
      · intro _ down
        cases down
      · intro _
        rfl
  | append_singleton scans scan ih =>
      rw [trackerAfter_append, idle_append]
      cases read : scan.level with
      | none =>
          rw [homeStep_none read]
          exact ih
      | some down =>
          cases down with
          | false => simp [homeStep_up_released read]
          | true => simp [homeStep_down_held read]

/-- While Home is held, the tracker remembers the scan that began the press. -/
theorem held_since {scans : List HomeScan}
    (held : (trackerAfter released scans).homeHeld = true) :
    ∃ earlier first body, scans = earlier ++ first :: body ∧ first.level = some true ∧
      NotUp body ∧ (trackerAfter released scans).homeDownMicros = first.microsNow := by
  induction scans using List.reverseRecOn with
  | nil => cases held
  | append_singleton scans scan ih =>
      rw [trackerAfter_append] at held ⊢
      by_cases up : scan.level = some false
      · rw [homeStep_up_released up] at held
        cases held
      · cases already : (trackerAfter released scans).homeHeld with
        | false =>
            cases read : scan.level with
            | none =>
                rw [homeStep_none read, already] at held
                cases held
            | some down =>
                have down_now : scan.level = some true := by
                  cases down with
                  | false => exact absurd read up
                  | true => exact read
                refine ⟨scans, scan, [], rfl, down_now, ?_, ?_⟩
                · intro other member
                  cases member
                · rw [homeStep_press already down_now]
        | true =>
            obtain ⟨earlier, first, body, split, down, not_up, began⟩ := ih already
            refine ⟨earlier, first, body ++ [scan], ?_, down, ?_, ?_⟩
            · rw [split, List.append_assoc]
              rfl
            · intro other member
              rcases List.mem_append.mp member with inside | last
              · exact not_up other inside
              · rw [List.mem_singleton.mp last]
                exact up
            · rcases homeStep_held already up with same | ⟨-, -, -, quit⟩
              · rw [same]
                exact began
              · rw [quit]
                exact began

/-- As long as no scan finds Home up, a press stays held, and remembers that it has
quit. -/
theorem held_on {home : HomeButton} {body : List HomeScan} (held : home.homeHeld = true)
    (not_up : NotUp body) :
    (trackerAfter home body).homeHeld = true ∧
      (home.homeLongFired = true → (trackerAfter home body).homeLongFired = true) := by
  induction body generalizing home with
  | nil => exact ⟨held, id⟩
  | cons scan body ih =>
      have later : NotUp body := fun other member => not_up other (List.mem_cons_of_mem _ member)
      have next : trackerAfter home (scan :: body) = trackerAfter (homeStep home scan).2 body := rfl
      rw [next]
      rcases homeStep_held held (not_up scan List.mem_cons_self) with same | ⟨-, -, -, quit⟩
      · rw [same]
        exact ih held later
      · rw [quit]
        obtain ⟨still_held, remembers⟩ := @ih { home with homeLongFired := true } held later
        exact ⟨still_held, fun _ => remembers rfl⟩

/-- A press quits when it begins to remember that it has. -/
theorem fired_while_held {home : HomeButton} {body : List HomeScan} (held : home.homeHeld = true)
    (not_up : NotUp body) :
    fired home body =
      if (trackerAfter home body).homeLongFired && !home.homeLongFired then [.quit] else [] := by
  induction body generalizing home with
  | nil =>
      change [] = if home.homeLongFired && !home.homeLongFired then _ else _
      rw [Bool.and_not_self]
      rfl
  | cons scan body ih =>
      have later : NotUp body := fun other member => not_up other (List.mem_cons_of_mem _ member)
      have next : trackerAfter home (scan :: body) = trackerAfter (homeStep home scan).2 body := rfl
      rcases homeStep_held held (not_up scan List.mem_cons_self) with same | ⟨-, unfired, -, quit⟩
      · rw [next, fired, same]
        exact ih held later
      · obtain ⟨-, remembers⟩ := @held_on { home with homeLongFired := true } body held later
        have rest := @ih { home with homeLongFired := true } held later
        rw [next, fired, quit, rest, remembers rfl, unfired]
        rfl

/-- The actions of a press: at most one, which is to quit while Home is held, or to go
back when it is released without that. -/
structure OneAction (home : HomeButton) (press : List HomeScan) : Prop where
  held : fired home press = [] ∨ fired home press = [.quit]
  ended : ∀ release : HomeScan, release.level = some false →
    fired home (press ++ [release]) = if fired home press = [] then [.back] else [.quit]

theorem press_oneAction {home : HomeButton} {first : HomeScan} {body : List HomeScan}
    (idle : home.homeHeld = false) (down : first.level = some true) (not_up : NotUp body) :
    OneAction home (first :: body) := by
  let pressed : HomeButton := ⟨first.microsNow, true, false⟩
  have begins : homeStep home first = (.none, pressed) := homeStep_press idle down
  have tracker : trackerAfter home (first :: body) = trackerAfter pressed body := by
    change trackerAfter (homeStep home first).2 body = _
    rw [begins]
  have actions : fired home (first :: body) =
      if (trackerAfter pressed body).homeLongFired then [.quit] else [] := by
    rw [fired, begins]
    change fired pressed body = _
    rw [@fired_while_held pressed body rfl not_up]
    exact congrArg (fun long => if long = true then [HomeAction.quit] else []) (Bool.and_true _)
  obtain ⟨held, -⟩ := @held_on pressed body rfl not_up
  constructor
  · rw [actions]
    split
    · exact Or.inr rfl
    · exact Or.inl rfl
  · intro release up
    have ends := homeStep_release held up
    rw [fired_append, actions, tracker, fired, ends]
    cases (trackerAfter pressed body).homeLongFired with
    | false => rfl
    | true => rfl

/-! ## Long presses -/

/-- The scans up to this one go back to one that has found Home down more than
`HOME_HOLD_MICROS` before, and none of them with data has found it up. -/
def HeldLong (before : List HomeScan) (scan : HomeScan) : Prop :=
  ∃ earlier first body, before = earlier ++ first :: body ∧
    first.level = some true ∧ NotUp body ∧ scan.level = some true ∧
    first.microsNow.toNat + homeHoldMicros.toNat < scan.microsNow.toNat

/-- The same, where every one of these scans has found Home down. -/
def DownThroughout (before : List HomeScan) (scan : HomeScan) : Prop :=
  ∃ earlier first body, before = earlier ++ first :: body ∧
    (∀ other ∈ first :: body ++ [scan], other.level = some true) ∧
    first.microsNow.toNat + homeHoldMicros.toNat < scan.microsNow.toNat

def Ordered (scans : List HomeScan) : Prop :=
  scans.Pairwise fun earlier later => earlier.microsNow ≤ later.microsNow

theorem quit_heldLong {before : List HomeScan} {scan : HomeScan}
    (ordered : Ordered (before ++ [scan]))
    (quit : (homeStep (trackerAfter released before) scan).1 = .quit) : HeldLong before scan := by
  obtain ⟨held, down, waited⟩ := homeStep_quit quit
  obtain ⟨earlier, first, body, split, began, not_up, since⟩ := held_since held
  refine ⟨earlier, first, body, split, began, not_up, down, ?_⟩
  have member : first ∈ before := by
    rw [split]
    exact List.mem_append_right _ List.mem_cons_self
  have in_order : first.microsNow ≤ scan.microsNow :=
    (List.pairwise_append.mp ordered).2.2 first member scan List.mem_cons_self
  rw [since, UInt64.lt_iff_toNat_lt, UInt64.toNat_sub_of_le _ _ in_order] at waited
  omega

/-- Quitting needs a long press, and every press has at most one action. -/
theorem home_run (scans : List HomeScan) (ordered : Ordered scans) :
    (∀ before scan rest, scans = before ++ scan :: rest →
      (homeStep (trackerAfter released before) scan).1 = .quit → HeldLong before scan) ∧
    ∀ before first body rest, scans = before ++ (first :: body ++ rest) → Idle before →
      first.level = some true → NotUp body →
        OneAction (trackerAfter released before) (first :: body) := by
  constructor
  · intro before scan rest split quit
    apply quit_heldLong _ quit
    have whole : Ordered (before ++ [scan] ++ rest) := by
      rw [List.append_assoc]
      exact split ▸ ordered
    exact (List.pairwise_append.mp whole).1
  · intro before first body rest _ idle down not_up
    exact press_oneAction ((released_iff_idle before).mpr idle) down not_up

/-- A scan by the input thread; without a level the remote has no data. -/
def scanAt (microsNow : UInt64) (level : Option Bool) : HomeScan where
  source := .inputThread
  microsNow := microsNow
  wiimote :=
    { errNone := true, dataPresent := level.isSome, held := fun _ => level.getD false,
      pressed := fun _ => false, nunchuk := none }

theorem long_press_quits : HeldLong [scanAt 0 (some true)] (scanAt 3000001 (some true)) := by
  have ordered : Ordered [scanAt 0 (some true), scanAt 3000001 (some true)] := by
    constructor
    · intro later member
      rw [List.mem_singleton.mp member]
      decide
    · exact List.pairwise_singleton _ _
  exact (home_run _ ordered).1 [scanAt 0 (some true)] (scanAt 3000001 (some true)) [] rfl
    (by decide)

/-- Home may be up while the remote has no data. -/
theorem quit_without_data :
    (homeStep (trackerAfter released [scanAt 0 (some true), scanAt 1000000 none])
        (scanAt 3000001 (some true))).1 = .quit ∧
      ¬ DownThroughout [scanAt 0 (some true), scanAt 1000000 none]
        (scanAt 3000001 (some true)) := by
  constructor
  · decide
  · rintro ⟨earlier, first, body, split, down, -⟩
    have missing : scanAt 1000000 none ∈ first :: body ++ [scanAt 3000001 (some true)] := by
      apply List.mem_append_left
      have last := congrArg List.getLast? split
      rw [List.getLast?_append, List.getLast?_eq_some_getLast (List.cons_ne_nil first body)] at last
      have same : scanAt 1000000 none = (first :: body).getLast (List.cons_ne_nil first body) :=
        Option.some.inj last
      rw [same]
      exact List.getLast_mem _
    have level := down _ missing
    cases level

end MoonlightWii.Wii.HomePresses
