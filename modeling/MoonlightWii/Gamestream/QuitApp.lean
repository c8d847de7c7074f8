import MoonlightWii.Gamestream.Request

/-!
# Quitting the running app (`gs_quit_app` in `client.c`)
-/

set_option autoImplicit false

namespace MoonlightWii.Gamestream.QuitApp

open Foundation.EarlyExit
open MoonlightWii.Gamestream.Errors
open MoonlightWii.Gamestream.Request

def setCurrentGame (appId : Int) : GsM PUnit :=
  modify fun call => { call with server := { call.server with currentGame := appId } }

def quitAppBody (world : World) (client : Client) : GsM PUnit := do
  if ← httpDataAlloc world then
    let url ← buildUrl world client 4096 true "cancel" none
    let document ← requestOrExit world url
    statusOrExitOne document
    let cancelled ← searchOrExit document "cancel"
    if cancelled = "0".toList then fail gsFailed "App quit request failed"
    else setCurrentGame 0
  else
    fail gsOutOfMemory "Out of memory"

def gsQuitApp (world : World) (client : Client) (call : Call) : Int × Call :=
  match quitAppBody world client call with
  | .ok _ after => (gsOk, after)
  | .error ret after => (ret, after)

/-- Every failing exit comes before the only write to the server data. -/
theorem quitAppBody_ensures (server : Server) (world : World) (client : Client) :
    Ensures (fun call => call.server = server) (quitAppBody world client)
      (fun _ after => after.server = { server with currentGame := 0 })
      (fun ret after => ret ≠ gsOk ∧ after.server = server) := by
  have step {α β : Type} {program : GsM α} {next : α → GsM β} {done : β → Call → Prop}
      (first : Keeps server (fun ret => ret ≠ gsOk) program)
      (second : ∀ value, Ensures (fun call => call.server = server) (next value) done
        (fun ret after => ret ≠ gsOk ∧ after.server = server)) :
      Ensures (fun call => call.server = server) (program >>= next) done
        (fun ret after => ret ≠ gsOk ∧ after.server = server) :=
    ensures_bind _ first second
  refine step (keeps_httpDataAlloc world) fun allocated => ?_
  refine ensures_ite (fun _ => ?_) fun _ => fun _ same => ⟨by decide, same⟩
  refine step (keeps_buildUrl world client 4096 true "cancel" none) fun url => ?_
  refine step (keeps_requestOrExit world url (by decide)) fun document => ?_
  refine step (keeps_statusOrExitOne document (by decide)) fun _ => ?_
  refine step (keeps_searchOrExit document "cancel" (by decide)) fun cancelled => ?_
  refine ensures_ite (fun _ => fun _ same => ⟨by decide, same⟩) fun _ => ?_
  exact ensures_modify _ fun call same => by rw [same]

theorem gsQuitApp_failed (world : World) (client : Client) (call : Call)
    (failed : (gsQuitApp world client call).1 ≠ gsOk) :
    (gsQuitApp world client call).2.server = call.server := by
  have ensured := quitAppBody_ensures call.server world client call rfl
  unfold gsQuitApp at failed ⊢
  cases ran : quitAppBody world client call with
  | ok value after =>
      rw [ran] at failed
      exact absurd rfl failed
  | error ret after =>
      rw [ran] at ensured
      exact ensured.2

end MoonlightWii.Gamestream.QuitApp
