import Mathlib.Data.List.DropRight
import Mathlib.Logic.Function.Basic
import MoonlightWii.Foundation.GuardedRun

/-!
# The main menu and the host address (`main.c`)

`config->address` is a heap string; `gs_get_status` stores the same pointer in
`server->serverInfo.address`.  The heap maps a block to the string it holds while
the block is allocated; `strdup` succeeds and takes a free block that the
allocator chooses, so a block may come back for another string.
-/

set_option autoImplicit false

namespace MoonlightWii.App.MainMenu

open Foundation.GuardedRun

abbrev Text := List Char

def gsOk : Int := 0

/-- `addr[16]` without its terminator. -/
def addressLimit : Nat := 15

structure Menu where
  strings : Nat → Option Text
  configAddress : Option Nat
  serverAddress : Option Nat
  paired : Bool
  connected : Bool
  running : Bool
  /-- Ghost: the address of the last `gs_get_status` that succeeded. -/
  lastOk : Option Text

structure Entry where
  input : Option Text
  block : Nat

inductive Action where
  /-- `status` is what `load_server_status` returns and `paired` what it stores. -/
  | connect (entry : Entry) (status : Int) (paired : Bool)
  | enterAddress (entry : Entry)
  | pair (paired : Bool)
  | stream
  | settings
  | disconnect
  | quit

def trimAddress (input : Text) : Text :=
  input.rdropWhile fun char => char == '.' || char == ' '

def free (strings : Nat → Option Text) : Option Nat → Nat → Option Text
  | none => strings
  | some block => Function.update strings block none

def confirmedAddress (entry : Entry) : Option Text :=
  match entry.input with
  | none => none
  | some input => if trimAddress input = [] then none else some (trimAddress input)

/-- `enter_address`; an allocation must be a free block, and the buffer holds 15
characters. -/
def enterAddress (menu : Menu) (entry : Entry) : Option Menu :=
  match confirmedAddress entry with
  | none => some menu
  | some text =>
      let strings := free menu.strings menu.configAddress
      if strings entry.block = none ∧ text.length ≤ addressLimit then
        some { menu with
          strings := Function.update strings entry.block (some text)
          configAddress := some entry.block }
      else
        none

/-- `gs_get_status` stores the pointer first; the status decides the rest. -/
def connectServer (menu : Menu) (status : Int) (paired : Bool) : Menu :=
  let server := { menu with serverAddress := menu.configAddress, paired := paired }
  if status = gsOk then
    { server with
      connected := true
      lastOk := menu.configAddress.bind menu.strings }
  else
    server

def connect (menu : Menu) (entry : Entry) (status : Int) (paired : Bool) : Option Menu :=
  match menu.configAddress with
  | some _ => some (connectServer menu status paired)
  | none =>
      match enterAddress menu entry with
      | none => none
      | some entered =>
          match entered.configAddress with
          | none => some entered
          | some _ => some (connectServer entered status paired)

def step (menu : Menu) (action : Action) : Option Menu :=
  if menu.running then
    match action with
    | .connect entry status paired =>
        if menu.connected then none else connect menu entry status paired
    | .enterAddress entry => enterAddress menu entry
    | .pair paired => if menu.connected then some { menu with paired := paired } else none
    | .stream => if menu.connected then some menu else none
    | .settings => some menu
    | .disconnect => if menu.connected then some { menu with connected := false } else none
    | .quit => some { menu with running := false }
  else
    none

def start (address : Option Text) : Menu where
  strings := fun block => if block = 0 then address else none
  configAddress := address.map fun _ => 0
  serverAddress := none
  paired := false
  connected := false
  running := true
  lastOk := none

/-! ## The address of a connected server -/

/-- The pointer behind the request URLs is live and holds the address that was
connected to. -/
def AddressLive (menu : Menu) : Prop :=
  ∃ block text, menu.serverAddress = some block ∧ menu.strings block = some text ∧
    menu.lastOk = some text

def AddressGood (menu : Menu) : Prop :=
  menu.connected = true → AddressLive menu

/-- The configuration owns its string, and a connected server shares it. -/
structure Shared (menu : Menu) : Prop where
  owned : ∀ block, menu.configAddress = some block → ∃ text, menu.strings block = some text
  shared : menu.connected = true → menu.serverAddress = menu.configAddress
  good : AddressGood menu

/-- While connected, a new address is stored only where the old one was, with the
same text. -/
def AddressKept (menu : Menu) (action : Action) : Prop :=
  match action with
  | .enterAddress entry =>
      menu.connected = true → ∀ text, confirmedAddress entry = some text →
        menu.serverAddress = some entry.block ∧ menu.lastOk = some text
  | _ => True

theorem start_shared (address : Option Text) : Shared (start address) where
  owned := by
    intro block owner
    cases address with
    | none => cases owner
    | some text =>
        cases Option.some.inj owner
        exact ⟨text, rfl⟩
  shared := by intro connected; cases connected
  good := by intro connected; cases connected

theorem enterAddress_cases (menu next : Menu) (entry : Entry)
    (entered : enterAddress menu entry = some next) :
    (confirmedAddress entry = none ∧ next = menu) ∨
      ∃ text, confirmedAddress entry = some text ∧
        next = { menu with
          strings := Function.update (free menu.strings menu.configAddress) entry.block (some text)
          configAddress := some entry.block } := by
  unfold enterAddress at entered
  cases confirmed : confirmedAddress entry with
  | none =>
      simp only [confirmed, Option.some.injEq] at entered
      exact .inl ⟨rfl, entered.symm⟩
  | some text =>
      simp only [confirmed] at entered
      split at entered
      · exact .inr ⟨text, rfl, (Option.some.inj entered).symm⟩
      · cases entered

theorem enterAddress_disconnected (menu next : Menu) (entry : Entry) (shared : Shared menu)
    (disconnected : menu.connected = false) (entered : enterAddress menu entry = some next) :
    Shared next ∧ next.connected = false := by
  rcases enterAddress_cases menu next entry entered with ⟨_, rfl⟩ | ⟨text, _, rfl⟩
  · exact ⟨shared, disconnected⟩
  · refine ⟨⟨?_, ?_, ?_⟩, disconnected⟩
    · intro block owner
      cases Option.some.inj owner
      exact ⟨text, Function.update_self _ _ _⟩
    · intro connected
      rw [disconnected] at connected
      cases connected
    · intro connected
      rw [disconnected] at connected
      cases connected

theorem enterAddress_kept (menu next : Menu) (entry : Entry) (shared : Shared menu)
    (kept : AddressKept menu (.enterAddress entry))
    (entered : enterAddress menu entry = some next) : Shared next := by
  cases connected : menu.connected with
  | false => exact (enterAddress_disconnected menu next entry shared connected entered).1
  | true =>
      rcases enterAddress_cases menu next entry entered with ⟨_, rfl⟩ | ⟨text, confirmed, rfl⟩
      · exact shared
      · obtain ⟨same, last⟩ := kept connected text confirmed
        refine ⟨?_, fun _ => same, fun _ => ?_⟩
        · intro block owner
          cases Option.some.inj owner
          exact ⟨text, Function.update_self _ _ _⟩
        · exact ⟨entry.block, text, same, Function.update_self _ _ _, last⟩

/-- A new address of a connected server frees or replaces the string that its
URLs are built from. -/
theorem enterAddress_breaks (menu next : Menu) (entry : Entry) (shared : Shared menu)
    (changed : ¬ AddressKept menu (.enterAddress entry))
    (entered : enterAddress menu entry = some next) : ¬ AddressGood next := by
  intro good
  apply changed
  intro connected text confirmed
  rcases enterAddress_cases menu next entry entered with ⟨none, _⟩ | ⟨stored, same, rfl⟩
  · rw [none] at confirmed
    cases confirmed
  · rw [same] at confirmed
    cases Option.some.inj confirmed
    obtain ⟨block, last, server, live, lastOk⟩ := good connected
    simp only at server live lastOk
    by_cases reused : block = entry.block
    · subst reused
      rw [Function.update_self] at live
      exact ⟨server, lastOk.trans live.symm⟩
    · have owner := (shared.shared connected).symm.trans server
      rw [Function.update_of_ne reused, owner, free, Function.update_self] at live
      cases live

theorem connectServer_shared (menu : Menu) (status : Int) (paired : Bool) (block : Nat)
    (shared : Shared menu) (disconnected : menu.connected = false)
    (address : menu.configAddress = some block) : Shared (connectServer menu status paired) := by
  unfold connectServer
  by_cases ok : status = gsOk
  · simp only [if_pos ok]
    refine ⟨shared.owned, fun _ => rfl, fun _ => ?_⟩
    obtain ⟨text, live⟩ := shared.owned block address
    exact ⟨block, text, address, live, by rw [address]; exact live⟩
  · simp only [if_neg ok]
    refine ⟨shared.owned, fun _ => rfl, ?_⟩
    intro connected
    rw [disconnected] at connected
    cases connected

theorem connect_shared (menu next : Menu) (entry : Entry) (status : Int) (paired : Bool)
    (shared : Shared menu) (disconnected : menu.connected = false)
    (connecting : connect menu entry status paired = some next) : Shared next := by
  unfold connect at connecting
  cases address : menu.configAddress with
  | some block =>
      simp only [address, Option.some.injEq] at connecting
      subst next
      exact connectServer_shared menu status paired block shared disconnected address
  | none =>
      simp only [address] at connecting
      cases entering : enterAddress menu entry with
      | none => simp [entering] at connecting
      | some entered =>
          simp only [entering] at connecting
          obtain ⟨enteredShared, still⟩ :=
            enterAddress_disconnected menu entered entry shared disconnected entering
          cases given : entered.configAddress with
          | none =>
              simp only [given, Option.some.injEq] at connecting
              subst next
              exact enteredShared
          | some block =>
              simp only [given, Option.some.injEq] at connecting
              subst next
              exact connectServer_shared entered status paired block enteredShared still given

theorem step_shared (menu : Menu) (action : Action) (next : Menu) (shared : Shared menu)
    (kept : AddressKept menu action) (stepped : step menu action = some next) : Shared next := by
  unfold step at stepped
  split at stepped
  · cases action with
    | connect entry status paired =>
        simp only at stepped
        split at stepped
        · cases stepped
        · rename_i disconnected
          exact connect_shared menu next entry status paired shared
            (Bool.not_eq_true _ ▸ disconnected) stepped
    | enterAddress entry => exact enterAddress_kept menu next entry shared kept stepped
    | pair paired =>
        simp only at stepped
        split at stepped
        · cases Option.some.inj stepped
          exact ⟨shared.owned, shared.shared, shared.good⟩
        · cases stepped
    | stream =>
        simp only at stepped
        split at stepped
        · cases Option.some.inj stepped
          exact shared
        · cases stepped
    | settings =>
        cases Option.some.inj stepped
        exact shared
    | disconnect =>
        simp only at stepped
        split at stepped
        · cases Option.some.inj stepped
          refine ⟨shared.owned, ?_, ?_⟩
          · intro connected; cases connected
          · intro connected; cases connected
        · cases stepped
    | quit =>
        cases Option.some.inj stepped
        exact ⟨shared.owned, shared.shared, shared.good⟩
  · cases stepped

theorem step_breaks (menu : Menu) (action : Action) (next : Menu) (shared : Shared menu)
    (changed : ¬ AddressKept menu action) (stepped : step menu action = some next) :
    ¬ AddressGood next := by
  unfold step at stepped
  split at stepped
  · cases action with
    | enterAddress entry => exact enterAddress_breaks menu next entry shared changed stepped
    | connect entry status paired => exact absurd trivial changed
    | pair paired => exact absurd trivial changed
    | stream => exact absurd trivial changed
    | settings => exact absurd trivial changed
    | disconnect => exact absurd trivial changed
    | quit => exact absurd trivial changed
  · cases stepped

/-- In every run of the menu, the server address is good in every state exactly
when no connected step stores a new address. -/
theorem address_good_iff_kept (address : Option Text) (actions : List Action) (final : Menu)
    (reached : run step (start address) actions = some final) :
    Throughout step AddressGood (start address) actions ↔
      Along step AddressKept (start address) actions :=
  throughout_iff_along Shared (fun _ shared => shared.good) step_shared step_breaks
    (start_shared address) reached

def plainActions : List Action :=
  [.connect ⟨some ['1', '0', '.', '1', '.'], 0⟩ gsOk true, .stream, .settings, .disconnect,
    .enterAddress ⟨some ['1', '0', '.', '2'], 1⟩]

theorem address_good_in_plain_session :
    Throughout step AddressGood (start none) plainActions := by
  have reached : (run step (start none) plainActions).isSome := by decide
  refine (address_good_iff_kept none plainActions _ (Option.some_get reached).symm).mpr ?_
  refine ⟨trivial, trivial, trivial, trivial, ?_⟩
  refine ⟨?_, trivial⟩
  intro connected
  cases connected

/-- The address is changed while connected: the string behind the URLs is freed. -/
theorem address_change_frees_url_string :
    ¬ ∀ (address : Option Text) (actions : List Action) (final : Menu),
      run step (start address) actions = some final →
        Throughout step AddressGood (start address) actions := by
  intro always
  let actions : List Action :=
    [.connect ⟨none, 1⟩ gsOk true, .enterAddress ⟨some ['1', '0', '.', '2'], 1⟩]
  have throughout := always (some ['1', '0', '.', '1']) actions _ rfl
  obtain ⟨block, text, server, live, _⟩ := (throughout.2.2 : AddressGood _) rfl
  cases Option.some.inj server
  cases live

end MoonlightWii.App.MainMenu
