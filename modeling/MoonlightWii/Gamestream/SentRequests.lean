import MoonlightWii.Gamestream.RequestTarget

/-!
# Calls that only send intended requests

The invariant of a call over its steps: every URL handed to `http_request` so far
is refused or carries an intended request, and the number of random draws is
known, so that the parameters that depend on them are.
-/

set_option autoImplicit false

namespace MoonlightWii.Gamestream.SentRequests

open Foundation.EarlyExit
open MoonlightWii.Gamestream.Crypto
open MoonlightWii.Gamestream.Errors
open MoonlightWii.Gamestream.Http
open MoonlightWii.Gamestream.Request
open MoonlightWii.Gamestream.RequestTarget
open MoonlightWii.Gamestream.StartApp
open MoonlightWii.Gamestream.Xml

/-- What is fixed during one call of the library. -/
structure Watch where
  memory : Nat → Char
  world : World
  client : Client
  address : CString
  before : List CString
  intends : IntendedRequest → Prop
  noColon : ':' ∉ address
  noSlash : '/' ∉ address
  known : ∀ index, (world.uuid index).length = 36
  identified : client.uniqueId.length ≤ 16

def Sendable (watch : Watch) (url : CString) : Prop :=
  ∃ index request, watch.intends request ∧
    Arrives watch.memory watch.client (watch.world.uuid index) watch.address request url

structure Issued (watch : Watch) (call : Call) : Prop where
  address : call.server.address = watch.address
  sent : ∃ urls, call.sent = watch.before ++ urls ∧ ∀ url ∈ urls, Sendable watch url

def Drawn (watch : Watch) (draws : Nat) (call : Call) : Prop :=
  call.draws = draws ∧ Issued watch call

/-- The program draws nothing and sends only intended requests. -/
def Stays (watch : Watch) (draws : Nat) {α : Type} (program : GsM α) : Prop :=
  Ensures (Drawn watch draws) program (fun _ => Drawn watch draws) (fun _ => Issued watch)

section Rules

variable {watch : Watch} {draws : Nat} {α β : Type}

theorem stays_pure (value : α) : Stays watch draws (pure value) :=
  ensures_pure value fun _ holds => holds

theorem stays_throw (ret : Int) : Stays watch draws (throw ret : GsM α) :=
  ensures_throw ret fun _ holds => holds.2

theorem stays_bind {program : GsM α} {next : α → GsM β} (first : Stays watch draws program)
    (second : ∀ value, Stays watch draws (next value)) : Stays watch draws (program >>= next) :=
  ensures_bind _ first second

theorem stays_ite {condition : Prop} [Decidable condition] {first second : GsM α}
    (yes : Stays watch draws first) (no : Stays watch draws second) :
    Stays watch draws (if condition then first else second) :=
  ensures_ite (fun _ => yes) fun _ => no

/-- A step that writes neither the address, the requests nor the draws. -/
theorem stays_modify (change : Call → Call)
    (address : ∀ call, (change call).server.address = call.server.address)
    (sent : ∀ call, (change call).sent = call.sent)
    (drawn : ∀ call, (change call).draws = call.draws) :
    Stays watch draws (modify change) := by
  refine ensures_modify change fun call holds => ⟨(drawn call).trans holds.1, ?_, ?_⟩
  · exact (address call).trans holds.2.address
  · rw [sent call]
    exact holds.2.sent

theorem stays_setError (error : GsError) : Stays watch draws (setError error) :=
  stays_modify _ (fun _ => rfl) (fun _ => rfl) fun _ => rfl

theorem stays_exitWith (ret code : Int) (text : String) :
    Stays watch draws (exitWith ret code text : GsM α) :=
  stays_bind (stays_setError _) fun _ => stays_throw ret

theorem stays_fail (code : Int) (text : String) : Stays watch draws (fail code text : GsM α) :=
  stays_exitWith code code text

theorem stays_report_bind (reported : Reported α) {next : α → GsM β}
    (second : Stays watch draws (next reported.result)) :
    Stays watch draws (report reported >>= next) :=
  ensures_reported (fun _ _ holds => ⟨holds.1, holds.2.address, holds.2.sent⟩) reported second

theorem stays_report (reported : Reported α) : Stays watch draws (report reported) := by
  have plain : Stays watch draws (report reported >>= pure) :=
    stays_report_bind reported (stays_pure _)
  rw [bind_pure] at plain
  exact plain

theorem stays_httpDataAlloc (world : World) : Stays watch draws (httpDataAlloc world) :=
  fun _ holds => ⟨holds.1, holds.2.address, holds.2.sent⟩

theorem stays_setPaired (paired : Bool) : Stays watch draws (setPaired paired) :=
  stays_modify _ (fun _ => rfl) (fun _ => rfl) fun _ => rfl

/-- The step that the invariant is about. -/
theorem stays_httpRequest {url : CString} (sendable : Sendable watch url) :
    Stays watch draws (httpRequest watch.world url) := by
  intro call holds
  obtain ⟨urls, known, all⟩ := holds.2.sent
  refine ⟨holds.1, holds.2.address, urls ++ [url], ?_, ?_⟩
  · change call.sent ++ [url] = _
    rw [known, List.append_assoc]
  · intro other member
    rcases List.mem_append.mp member with earlier | last
    · exact all other earlier
    · rw [List.mem_singleton.mp last]
      exact sendable

theorem stays_requestOrExit {url : CString} (sendable : Sendable watch url) :
    Stays watch draws (requestOrExit watch.world url) := by
  refine stays_bind (stays_httpRequest sendable) fun answer => ?_
  cases answer with
  | failed => exact stays_throw _
  | completed document => exact stays_pure document

theorem stays_statusOrExitOne (document : Document) :
    Stays watch draws (statusOrExitOne document) :=
  stays_report_bind _ (stays_ite (stays_throw 1) (stays_pure _))

theorem stays_searchOrExit (document : Document) (node : String) :
    Stays watch draws (searchOrExit document node) := by
  apply stays_report_bind
  cases (xmlSearch document node.toList).result with
  | ok value => exact stays_pure value
  | error ret => exact stays_throw ret

/-- A URL is built from the address of the call and some UUID. -/
theorem ensures_built {pre : Call → Prop} (size : Nat) (secure : Bool) (action : String)
    (params : Option CString) {next : CString → GsM β} {done : β → Call → Prop}
    {left : Int → Call → Prop} (address : ∀ call, pre call → call.server.address = watch.address)
    (second : ∀ index, Ensures pre (next (constructUrl watch.client (watch.world.uuid index) size
      secure watch.address action.toList params)) done left) :
    Ensures pre (buildUrl watch.world watch.client size secure action params >>= next)
      done left := by
  intro call holds
  have same := address call holds
  have ran := second call.sent.length call holds
  rw [← same] at ran
  exact ran

theorem stays_built (size : Nat) (secure : Bool) (action : String) (params : Option CString)
    {next : CString → GsM β}
    (sendable : ∀ index, Sendable watch (constructUrl watch.client (watch.world.uuid index) size
      secure watch.address action.toList params))
    (second : ∀ url, Sendable watch url → Stays watch draws (next url)) :
    Stays watch draws (buildUrl watch.world watch.client size secure action params >>= next) :=
  ensures_built size secure action params (fun _ holds => holds.2.address)
    fun index => second _ (sendable index)

def drawn (world : World) (draws count : Nat) : List UInt8 :=
  (List.range count).map (world.random draws)

theorem ensures_drbgRandom_bind (count : Nat) {next : List UInt8 → GsM β}
    {done : β → Call → Prop} {left : Int → Call → Prop}
    (second : Ensures (Drawn watch (draws + 1)) (next (drawn watch.world draws count)) done left) :
    Ensures (Drawn watch draws) (drbgRandom watch.world count >>= next) done left := by
  rintro call ⟨rfl, issued⟩
  exact second { call with draws := call.draws + 1 } ⟨rfl, issued.address, issued.sent⟩

theorem stays_issues {program : GsM α} (stays : Stays watch draws program) :
    Ensures (Drawn watch draws) program (fun _ => Issued watch) (fun _ => Issued watch) :=
  ensures_weaken stays (fun _ holds => holds) (fun _ _ holds => holds.2) fun _ _ holds => holds

/-- The form for a call whose draws no longer matter. -/
theorem issues_of_stays {program : GsM α} (stays : ∀ draws, Stays watch draws program) :
    Ensures (Issued watch) program (fun _ => Issued watch) (fun _ => Issued watch) :=
  fun call issued => stays_issues (stays call.draws) call ⟨rfl, issued⟩

end Rules

/-! ## Requests without parameters -/

def plainRequest (secure : Bool) (action : String) : IntendedRequest where
  secure := secure
  action := action
  params := []
  extra := []

theorem plainRequest_sendable {watch : Watch} {secure : Bool} {action : String}
    (intended : watch.intends (plainRequest secure action)) (short : action.length ≤ 100)
    (index : Nat) :
    Sendable watch (constructUrl watch.client (watch.world.uuid index) 4096 secure watch.address
      action.toList none) := by
  refine ⟨index, plainRequest secure action, intended, ?_⟩
  apply small_constructUrl_arrives watch.memory watch.noColon watch.noSlash watch.client
    (watch.known index) (plainRequest secure action)
  · rfl
  · have identified := watch.identified
    have known := watch.known index
    simp [plainRequest, IntendedRequest.target, known, String.length_toList]
    omega

theorem gsUnpair_stays {watch : Watch} {draws : Nat}
    (intended : watch.intends (plainRequest false "unpair")) :
    Stays watch draws (gsUnpair watch.world watch.client) := by
  refine stays_bind (stays_httpDataAlloc _) fun allocated => ?_
  refine stays_ite ?_ (stays_pure _)
  refine stays_built 4096 false "unpair" none
    (plainRequest_sendable intended (by decide)) fun url sendable => ?_
  refine stays_bind (stays_httpRequest sendable) fun answer => ?_
  cases answer with
  | failed => exact stays_pure _
  | completed document =>
      refine stays_report_bind _ ?_
      exact stays_ite (stays_pure _) (stays_bind (stays_setPaired false) fun _ => stays_pure _)

end MoonlightWii.Gamestream.SentRequests
