import MoonlightWii.Wii.Input

/-!
# The on-screen menu (`menu.c`, `proc.c`)

A run of a menu is driven by its polls: each scans the remote once.  A menu that
has used up its polls is still waiting, which is `none`.
-/

set_option autoImplicit false

namespace MoonlightWii.Wii.Menu

open MoonlightWii.Wii.Input

structure ProcState where
  running : Bool
  wantMainMenu : Bool
  homeEnabled : Bool
  home : HomeButton

structure Scan where
  microsNow : UInt64
  wiimote : WpadData

/-- One call of `wii_input_buttons_triggered`. -/
def poll (proc : ProcState) (scan : Scan) : (Button → Bool) × ProcState :=
  let triggered :=
    wiiInputButtonsTriggered proc.homeEnabled proc.home scan.microsNow scan.wiimote
  let polled := { proc with home := triggered.home }
  match triggered.poll with
  | .nothing => (triggered.btns, polled)
  | .stopRunning => (triggered.btns, { polled with running := false })
  | .wantMainMenu => (triggered.btns, { polled with wantMainMenu := true })

def rowY (index : Nat) : Nat := 96 + index * 40

/-- The options that `menu_render_base` prints, with their lines. -/
def menuRenderBase {α : Type} (options : List α) : List (Nat × α) :=
  options.mapIdx fun index option => (rowY index, option)

def clampSel (count sel : Int) : Int :=
  if sel < 0 then 0 else if count ≤ sel then count - 1 else sel

/-- The tests at the head of the loop of every menu. -/
def ProcState.leaves (proc : ProcState) : Bool :=
  !proc.running || proc.wantMainMenu

/-- The loop of `menu_select`: its result, and what the polls have left behind. -/
def selectLoop (count : Int) : ProcState → Int → List Scan → Option (Int × ProcState × List Scan)
  | proc, _, [] => if proc.leaves then some (-1, proc, []) else none
  | proc, sel, scan :: rest =>
      if proc.leaves then
        some (-1, proc, scan :: rest)
      else
        let shown := clampSel count sel
        let (btns, polled) := poll proc scan
        if btns .a then some (shown, polled, rest)
        else if btns .b then some (-1, polled, rest)
        else if btns .down then selectLoop count polled (shown + 1) rest
        else if btns .up then selectLoop count polled (shown - 1) rest
        else selectLoop count polled shown rest

def menuSelect (count sel : Int) (proc : ProcState) (scans : List Scan) :
    Option (Int × ProcState × List Scan) :=
  if count ≤ 0 then some (-1, proc, scans)
  else selectLoop count proc (if sel < 0 then 0 else sel) scans

theorem menuRenderBase_row {α : Type} (options : List α) (index : Nat) (option : α) :
    (rowY index, option) ∈ menuRenderBase options ↔ options[index]? = some option := by
  unfold menuRenderBase
  rw [List.mem_mapIdx]
  constructor
  · rintro ⟨place, inside, shown⟩
    obtain ⟨line, same⟩ := Prod.mk.inj shown
    have index_eq : place = index := by
      unfold rowY at line
      omega
    subst index_eq
    rw [List.getElem?_eq_getElem inside, same]
  · intro found
    obtain ⟨inside, same⟩ := List.getElem?_eq_some_iff.mp found
    exact ⟨index, inside, by rw [same]⟩

theorem clampSel_range (count sel : Int) (some_options : 0 < count) :
    0 ≤ clampSel count sel ∧ clampSel count sel < count := by
  unfold clampSel
  split
  · omega
  · split <;> omega

theorem selectLoop_range (count sel : Int) (proc after : ProcState) (scans rest : List Scan)
    (chosen : Int) (some_options : 0 < count)
    (returned : selectLoop count proc sel scans = some (chosen, after, rest)) :
    chosen = -1 ∨ (0 ≤ chosen ∧ chosen < count) := by
  induction scans generalizing proc sel with
  | nil =>
      simp only [selectLoop] at returned
      split at returned
      · cases Option.some.inj returned
        exact .inl rfl
      · cases returned
  | cons scan later ih =>
      have range := clampSel_range count sel some_options
      simp only [selectLoop] at returned
      split at returned
      · cases Option.some.inj returned
        exact .inl rfl
      · split at returned
        · cases Option.some.inj returned
          exact .inr range
        · split at returned
          · cases Option.some.inj returned
            exact .inl rfl
          · split at returned
            · exact ih _ _ returned
            · split at returned
              · exact ih _ _ returned
              · exact ih _ _ returned

theorem menuSelect_range (count sel : Int) (proc after : ProcState) (scans rest : List Scan)
    (chosen : Int) (returned : menuSelect count sel proc scans = some (chosen, after, rest)) :
    chosen = -1 ∨ (0 ≤ chosen ∧ chosen < count) := by
  unfold menuSelect at returned
  split at returned
  · cases Option.some.inj returned
    exact .inl rfl
  · rename_i options
    exact selectLoop_range count _ proc after scans rest chosen (by omega) returned

end MoonlightWii.Wii.Menu
