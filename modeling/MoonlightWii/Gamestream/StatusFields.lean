import MoonlightWii.Gamestream.ConfirmedCalls
import MoonlightWii.Gamestream.GetStatus
import MoonlightWii.Gamestream.ModelistHeap
import MoonlightWii.Gamestream.SearchedText

/-!
# The fields of the host's status (`gs_get_status` in `client.c`)

A failed attempt may leave any part of the fields behind, but a successful one writes all
of them.  What they are then is determined by the document, except for display modes that
were read from the heap.
-/

set_option autoImplicit false

namespace MoonlightWii.Gamestream.StatusFields

open Foundation.EarlyExit Foundation.FirstMatch Foundation.NestedMarkup
open MoonlightWii.Gamestream.ConfirmedCalls
open MoonlightWii.Gamestream.Errors
open MoonlightWii.Gamestream.GetStatus
open MoonlightWii.Gamestream.ModelistDocument
open MoonlightWii.Gamestream.ModelistHeap
open MoonlightWii.Gamestream.Pair
open MoonlightWii.Gamestream.Request
open MoonlightWii.Gamestream.SearchedText
open MoonlightWii.Gamestream.Xml
open MoonlightWii.Gamestream.XmlLists

/-! ## What a document says -/

/-- The fields that `load_server_status` writes. -/
structure HostStatus where
  info : ServerInfo
  modes : List DisplayMode
  paired : Bool
  currentGame : Int
  supports4K : Bool
  serverMajorVersion : Int
  isGfe : Bool

def writtenFields (state : StatusCall) : HostStatus where
  info := state.info
  modes := state.call.server.modes
  paired := state.call.server.paired
  currentGame := state.call.server.currentGame
  supports4K := state.call.server.supports4K
  serverMajorVersion := state.call.server.serverMajorVersion
  isGfe := state.call.server.isGfe

/-- The fields for the texts inside the elements of a document. -/
def fieldsOf (text : String → CString) (modes : List DisplayMode) : HostStatus where
  info :=
    { uuid := some (text "uniqueid")
      mac := some (text "mac")
      hostname := some (text "hostname")
      gpuType := some (text "gputype")
      gsVersion := some (text "GsVersion")
      serverInfoAppVersion := some (text "appversion")
      serverInfoGfeVersion := some (text "GfeVersion")
      supportsHdr := decide (atoi (text "ServerCodecModeSupport") / 512 % 2 = 1)
      serverCodecModeSupport := atoi (text "ServerCodecModeSupport") }
  modes := modes
  paired := decide (text "PairStatus" = "1".toList)
  currentGame :=
    if "_SERVER_BUSY".toList <:+: text "state" then atoi (text "currentgame") else 0
  supports4K := decide (atoi (text "ServerCodecModeSupport") ≠ 0)
  serverMajorVersion := atoi (text "appversion")
  isGfe := decide ("MJOLNIR".toList <:+: text "state")

/-- The fields of a content. -/
def contentFields (content : XmlContent) : HostStatus :=
  fieldsOf (fun node => searchedText node.toList content) (writtenModes content)

/-! ## Complete documents -/

def requiredNodes : List String := ["currentgame", "PairStatus", "appversion", "state"]

/-- The text that `xml_search` returns. -/
def elementText (document : Document) (node : String) : CString :=
  (document.events.foldl (searchEvent node.toList) ⟨some [], 0⟩).memory.getD []

structure CompleteStatus (document : Document) : Prop extends Accepted document where
  filled : ∀ node ∈ requiredNodes, elementText document node ≠ []

/-! ## The two attempts -/

/-- The document that an attempt gets when `allocation` and `request` are the numbers of its
allocation and its request. -/
structure Obtained (world : World) (allocation request : Nat) (document : Document) : Prop where
  allocates : world.allocates allocation = true
  completed : world.answer request = .completed document

def requestsAfter (world : World) (call : Call) : Nat :=
  call.sent.length + if world.allocates call.allocations then 1 else 0

/-- The document of the first attempt that gets a complete one: over https, or over http
when there is none over https. -/
inductive FirstComplete (world : World) (call : Call) : Document → Prop
  | https {document : Document} (obtained : Obtained world call.allocations call.sent.length document)
      (complete : CompleteStatus document) : FirstComplete world call document
  | http {document : Document}
      (failed : ∀ other, Obtained world call.allocations call.sent.length other →
        ¬ CompleteStatus other)
      (obtained : Obtained world (call.allocations + 1) (requestsAfter world call) document)
      (complete : CompleteStatus document) : FirstComplete world call document

/-- What `gs_get_status` should return and write. -/
structure StatusKept (world : World) (call : Call) (after : Int × StatusCall) : Prop where
  ok_iff : after.1 = gsOk ↔ ∃ document, FirstComplete world call document
  fields : ∀ document content, FirstComplete world call document →
    Delivers xmlMarkup content document.events → writtenFields after.2 = contentFields content

/-! ## Reading a document -/

section Reading

variable {document : Document}

theorem xmlSearch_parsed (parsed : document.error = none) (node : String) :
    xmlSearch document node.toList = ⟨.ok (elementText document node), none⟩ := by
  obtain ⟨found, memory⟩ := search_memory node.toList document.events [] 0
  have text : elementText document node = found := by rw [elementText, memory, Option.getD_some]
  unfold xmlSearch xmlSearchEx
  simp only [parsed, Bool.false_eq_true, if_false, memory, text]

theorem xmlSearch_malformed {error : ParseError} (malformed : document.error = some error)
    (node : String) :
    xmlSearch document node.toList = ⟨.error gsInvalid, some (xmlError error)⟩ := by
  unfold xmlSearch xmlSearchEx
  rw [malformed]

/-- No request has been sent in between, and the version checking is as it was. -/
structure Continues (state after : StatusCall) : Prop where
  sent : after.call.sent = state.call.sent
  allocations : after.call.allocations = state.call.allocations
  unsupported : after.call.server.unsupported = state.call.server.unsupported

theorem Continues.trans {first second third : StatusCall} (one : Continues first second)
    (other : Continues second third) : Continues first third :=
  ⟨other.sent.trans one.sent, other.allocations.trans one.allocations,
    other.unsupported.trans one.unsupported⟩

/-- The state after an error, if there was one, has been recorded. -/
def noted {α : Type} (reported : Reported α) (state : StatusCall) : StatusCall :=
  match reported.recorded with
  | some error => { state with call := { state.call with lastError := some error } }
  | none => state

theorem noted_keeps {α : Type} (reported : Reported α) (state : StatusCall) :
    Continues state (noted reported state) ∧ (noted reported state).info = state.info ∧
      (noted reported state).call.server = state.call.server := by
  unfold noted
  split
  · exact ⟨⟨rfl, rfl, rfl⟩, rfl, rfl⟩
  · exact ⟨⟨rfl, rfl, rfl⟩, rfl, rfl⟩

theorem report_run {α : Type} (reported : Reported α) (state : StatusCall) :
    onCall (report reported) state = .ok reported.result (noted reported state) := by
  unfold noted
  cases recorded : reported.recorded with
  | none =>
      unfold onCall report
      rw [recorded]
      rfl
  | some error =>
      unfold onCall report
      rw [recorded]
      rfl

theorem searchText_parsed (parsed : document.error = none) (node : String) (state : StatusCall) :
    searchText document node state = .ok (elementText document node) state := by
  unfold searchText onCall searchOrInvalid
  rw [xmlSearch_parsed parsed]
  rfl

theorem searchText_malformed {error : ParseError} (malformed : document.error = some error)
    (node : String) (state : StatusCall) :
    searchText document node state =
      .error gsInvalid (noted (xmlSearch document node.toList) state) := by
  unfold searchText onCall searchOrInvalid noted
  rw [xmlSearch_malformed malformed]
  rfl

theorem searchInto_parsed (parsed : document.error = none) (node : String)
    (store : CString → ServerInfo → ServerInfo) (state : StatusCall) :
    searchInto document node store state =
      .ok ⟨⟩ { state with info := store (elementText document node) state.info } := by
  unfold searchInto
  rw [bind_of_ok (searchText_parsed parsed node state)]
  rfl

theorem readHostname_parsed (parsed : document.error = none) (state : StatusCall) :
    readHostname document state =
      .ok ⟨⟩ { state with info :=
        { state.info with hostname := some (elementText document "hostname") } } := by
  unfold readHostname
  rw [bind_of_ok (report_run _ state), xmlSearch_parsed parsed]
  rfl

theorem readModes_parsed {unwritten : Nat → CString} {modes : List DisplayMode}
    (listed : xmlModelist unwritten document = ⟨.ok modes, none⟩) (state : StatusCall) :
    readModes unwritten document state =
      .ok ⟨⟩ { state with call :=
        { state.call with server := { state.call.server with modes := modes } } } := by
  unfold readModes
  rw [bind_of_ok (report_run _ state), listed]
  rfl

theorem storeInfo_run (change : ServerInfo → ServerInfo) (state : StatusCall) :
    storeInfo change state = .ok ⟨⟩ { state with info := change state.info } := rfl

theorem xmlModelist_parsed (parsed : document.error = none) (unwritten : Nat → CString) :
    ∃ modes, xmlModelist unwritten document = ⟨.ok modes, none⟩ := by
  unfold xmlModelist
  rw [parsed]
  exact ⟨_, rfl⟩

/-! ## One attempt -/

/-- A document that does not parse, or has another status, is left early. -/
theorem readServerInfo_refused (refused : ¬ Accepted document) (unwritten : Nat → CString)
    (state : StatusCall) :
    ∃ ret after, readServerInfo unwritten document state = .error ret after ∧ ret ≠ gsOk ∧
      Continues state after := by
  have noting := (noted_keeps (xmlStatus document) state).1
  unfold readServerInfo
  rw [bind_of_ok (report_run (xmlStatus document) state)]
  by_cases failed : (xmlStatus document).result = gsError
  · rw [if_pos failed]
    exact ⟨gsError, _, rfl, by decide, noting⟩
  · rw [if_neg failed]
    cases ended : document.error with
    | none =>
        have other : statusCode document ≠ statusOk := fun status => refused ⟨ended, status⟩
        have parsedRefused : (xmlStatus document).result = gsError := by
          unfold statusCode at other
          unfold xmlStatus
          rw [ended]
          exact if_neg other
        exact absurd parsedRefused failed
    | some error =>
        have search : searchInto document "uniqueid"
            (fun text info => { info with uuid := some text }) (noted (xmlStatus document) state) =
            .error gsInvalid (noted (xmlSearch document "uniqueid".toList)
              (noted (xmlStatus document) state)) := by
          unfold searchInto
          exact bind_of_error (searchText_malformed ended _ _)
        rw [bind_of_error search]
        exact ⟨gsInvalid, _, rfl, by decide, noting.trans (noted_keeps _ _).1⟩

/-- Of a document that is accepted every text is stored before they are checked. -/
theorem readServerInfo_accepted (accepted : Accepted document) {unwritten : Nat → CString}
    {modes : List DisplayMode} (listed : xmlModelist unwritten document = ⟨.ok modes, none⟩)
    (state : StatusCall) :
    ∃ read : StatusCall,
      readServerInfo unwritten document state =
        (if elementText document "currentgame" = [] ∨ elementText document "PairStatus" = [] ∨
            elementText document "appversion" = [] ∨ elementText document "state" = [] then
          throw gsInvalid
        else
          storeStatus (elementText document "currentgame") (elementText document "PairStatus")
            (elementText document "appversion") (elementText document "state")
            (elementText document "ServerCodecModeSupport") : StatusM PUnit) read ∧
      read.info = { (fieldsOf (elementText document) modes).info with
        supportsHdr := state.info.supportsHdr
        serverCodecModeSupport := state.info.serverCodecModeSupport } ∧
      read.call.server.modes = modes ∧ Continues state read := by
  have parsed := accepted.parsed
  have fine : (xmlStatus document).result ≠ gsError := by
    rw [(accepted_iff document).mp accepted]
    decide
  obtain ⟨continues, info, server⟩ := noted_keeps (xmlStatus document) state
  unfold readServerInfo
  rw [bind_of_ok (report_run _ state), if_neg fine, bind_of_ok (searchInto_parsed parsed _ _ _),
    bind_of_ok (searchInto_parsed parsed _ _ _), bind_of_ok (readHostname_parsed parsed _),
    bind_of_ok (searchText_parsed parsed _ _), bind_of_ok (searchText_parsed parsed _ _),
    bind_of_ok (searchText_parsed parsed _ _), bind_of_ok (storeInfo_run _ _),
    bind_of_ok (searchText_parsed parsed _ _), bind_of_ok (searchText_parsed parsed _ _),
    bind_of_ok (searchInto_parsed parsed _ _ _), bind_of_ok (searchInto_parsed parsed _ _ _),
    bind_of_ok (searchInto_parsed parsed _ _ _), bind_of_ok (readModes_parsed listed _)]
  refine ⟨_, rfl, ?_, rfl, continues.sent, continues.allocations, continues.unsupported⟩
  simp only [fieldsOf, info]

theorem filled_iff (document : Document) :
    (∀ node ∈ requiredNodes, elementText document node ≠ []) ↔
      ¬ (elementText document "currentgame" = [] ∨ elementText document "PairStatus" = [] ∨
        elementText document "appversion" = [] ∨ elementText document "state" = []) := by
  simp only [requiredNodes, List.forall_mem_cons, not_or]
  simp

theorem strstr_eq (text : CString) (word : String) :
    strstr text word = decide (word.toList <:+: text) := by
  rw [strstr, Bool.eq_iff_iff, decide_eq_true_iff, locate_isSome_iff]

theorem readServerInfo_complete (complete : CompleteStatus document) {unwritten : Nat → CString}
    {modes : List DisplayMode} (listed : xmlModelist unwritten document = ⟨.ok modes, none⟩)
    (state : StatusCall) :
    ∃ after, readServerInfo unwritten document state = .ok ⟨⟩ after ∧
      writtenFields after = fieldsOf (elementText document) modes ∧
      after.call.server.unsupported = state.call.server.unsupported := by
  obtain ⟨read, ran, info, stored, continues⟩ :=
    readServerInfo_accepted complete.toAccepted listed state
  rw [if_neg ((filled_iff document).mp complete.filled)] at ran
  refine ⟨_, ran, ?_, continues.unsupported⟩
  simp only [writtenFields, fieldsOf, info, stored, strstr_eq, decide_eq_true_eq]

theorem readServerInfo_incomplete (incomplete : ¬ CompleteStatus document)
    (unwritten : Nat → CString) (state : StatusCall) :
    ∃ ret after, readServerInfo unwritten document state = .error ret after ∧ ret ≠ gsOk ∧
      Continues state after := by
  by_cases accepted : Accepted document
  · obtain ⟨modes, listed⟩ := xmlModelist_parsed accepted.parsed unwritten
    obtain ⟨read, ran, -, -, continues⟩ := readServerInfo_accepted accepted listed state
    have missing := fun filled => incomplete ⟨accepted, (filled_iff document).mpr filled⟩
    rw [if_pos (Classical.not_not.mp missing)] at ran
    exact ⟨gsInvalid, read, ran, by decide, continues⟩
  · exact readServerInfo_refused accepted unwritten state

end Reading

section Attempts

variable {world : World} {document : Document} {state : StatusCall}

/-- The state in which an attempt reads its document. -/
def requested (world : World) (client : Client) (secure : Bool) (state : StatusCall) :
    StatusCall :=
  { state with call :=
    { state.call with
      allocations := state.call.allocations + 1
      sent := state.call.sent ++ [constructUrl client (world.uuid state.call.sent.length) 4096
        secure state.call.server.address "serverinfo".toList none] } }

/-- The allocation, the request and the document of an attempt. -/
theorem statusAttempt_stages (client : Client) (secure : Bool) (unwritten : Nat → CString) :
    statusAttempt world client secure unwritten state =
      if world.allocates state.call.allocations then
        match world.answer state.call.sent.length with
        | .failed => .error gsIoError (requested world client secure state)
        | .completed document =>
            readServerInfo unwritten document (requested world client secure state)
      else
        .error gsOutOfMemory
          { state with call := { state.call with allocations := state.call.allocations + 1 } } := by
  unfold statusAttempt
  rw [bind_of_ok (show onCall (buildUrl world client 4096 secure "serverinfo" none) state =
      .ok _ state from rfl),
    bind_of_ok (show onCall (httpDataAlloc world) state = .ok _ _ from rfl)]
  by_cases allocates : world.allocates state.call.allocations = true
  · rw [if_pos allocates, if_pos allocates,
      bind_of_ok (show onCall (httpRequest world _) _ = .ok _ _ from rfl)]
    cases world.answer state.call.sent.length with
    | failed => rfl
    | completed document => rfl
  · rw [if_neg allocates, if_neg allocates]
    rfl

theorem statusAttempt_obtained (client : Client) (secure : Bool) (unwritten : Nat → CString)
    (obtained : Obtained world state.call.allocations state.call.sent.length document) :
    statusAttempt world client secure unwritten state =
      readServerInfo unwritten document (requested world client secure state) := by
  rw [statusAttempt_stages, if_pos obtained.allocates, obtained.completed]

theorem statusAttempt_failed (client : Client) (secure : Bool) (unwritten : Nat → CString)
    (failed : ∀ document, Obtained world state.call.allocations state.call.sent.length document →
      ¬ CompleteStatus document) :
    ∃ ret after, statusAttempt world client secure unwritten state = .error ret after ∧
      ret ≠ gsOk ∧ after.call.allocations = state.call.allocations + 1 ∧
      after.call.sent.length = requestsAfter world state.call ∧
      after.call.server.unsupported = state.call.server.unsupported := by
  by_cases allocates : world.allocates state.call.allocations = true
  · have count : requestsAfter world state.call = state.call.sent.length + 1 := by
      rw [requestsAfter, if_pos allocates]
    cases answer : world.answer state.call.sent.length with
    | failed =>
        refine ⟨gsIoError, requested world client secure state, ?_, by decide, rfl, ?_, rfl⟩
        · rw [statusAttempt_stages, if_pos allocates, answer]
        · rw [count]
          exact List.length_append
    | completed document =>
        have obtained : Obtained world state.call.allocations state.call.sent.length document :=
          ⟨allocates, answer⟩
        obtain ⟨ret, after, ran, wrong, continues⟩ := readServerInfo_incomplete
          (failed document obtained) unwritten (requested world client secure state)
        refine ⟨ret, after, (statusAttempt_obtained client secure unwritten obtained).trans ran,
          wrong, continues.allocations, ?_, continues.unsupported⟩
        rw [continues.sent, count]
        exact List.length_append
  · refine ⟨gsOutOfMemory, { state with call :=
      { state.call with allocations := state.call.allocations + 1 } }, ?_, by decide, rfl, ?_, rfl⟩
    · rw [statusAttempt_stages, if_neg allocates]
    · rw [requestsAfter, if_neg allocates]
      rfl

/-- An attempt over a complete document. -/
theorem statusAttempt_complete (client : Client) (secure : Bool) {unwritten : Nat → CString}
    (obtained : Obtained world state.call.allocations state.call.sent.length document)
    (complete : CompleteStatus document) {modes : List DisplayMode}
    (listed : xmlModelist unwritten document = ⟨.ok modes, none⟩) :
    ∃ after, statusAttempt world client secure unwritten state = .ok ⟨⟩ after ∧
      writtenFields after = fieldsOf (elementText document) modes ∧
      after.call.server.unsupported = state.call.server.unsupported := by
  rw [statusAttempt_obtained client secure unwritten obtained]
  exact readServerInfo_complete complete listed (requested world client secure state)

theorem checkVersion_off (off : state.call.server.unsupported = true) :
    checkVersion state = (gsOk, state) := if_pos off

theorem obtained_unique {allocation request : Nat} {first second : Document}
    (one : Obtained world allocation request first)
    (other : Obtained world allocation request second) : first = second :=
  Answer.completed.inj (one.completed.symm.trans other.completed)

theorem firstComplete_unique {call : Call} {first second : Document}
    (one : FirstComplete world call first) (other : FirstComplete world call second) :
    first = second := by
  cases one with
  | https obtained complete =>
      cases other with
      | https again _ => exact obtained_unique obtained again
      | http failed _ _ => exact absurd complete (failed first obtained)
  | http failed obtained _ =>
      cases other with
      | https again complete => exact absurd complete (failed second again)
      | http _ again _ => exact obtained_unique obtained again

end Attempts

/-! ## The two attempts together -/

section Status

variable (world : World) (client : Client) {state : StatusCall}

/-- With a complete document in one of the attempts, the fields are those of the first. -/
theorem loadServerStatus_complete (off : state.call.server.unsupported = true)
    (unwritten : Bool → Nat → CString) {document : Document}
    (first : FirstComplete world state.call document) :
    ∃ secure modes, xmlModelist (unwritten secure) document = ⟨.ok modes, none⟩ ∧
      (loadServerStatus world client unwritten state).1 = gsOk ∧
      writtenFields (loadServerStatus world client unwritten state).2 =
        fieldsOf (elementText document) modes := by
  unfold loadServerStatus
  cases first with
  | https obtained complete =>
      obtain ⟨modes, listed⟩ := xmlModelist_parsed complete.parsed (unwritten true)
      obtain ⟨after, ran, fields, still⟩ :=
        statusAttempt_complete client true obtained complete listed
      refine ⟨true, modes, listed, ?_⟩
      simp only [ran, checkVersion_off (still.trans off)]
      exact ⟨trivial, fields⟩
  | http failed obtained complete =>
      obtain ⟨ret, between, ran, -, allocations, sent, still⟩ :=
        statusAttempt_failed client true (unwritten true) failed
      rw [← allocations, ← sent] at obtained
      obtain ⟨modes, listed⟩ := xmlModelist_parsed complete.parsed (unwritten false)
      obtain ⟨after, ranAgain, fields, stillAfter⟩ :=
        statusAttempt_complete client false obtained complete listed
      refine ⟨false, modes, listed, ?_⟩
      simp only [ran, ranAgain, checkVersion_off (stillAfter.trans (still.trans off))]
      exact ⟨trivial, fields⟩

theorem loadServerStatus_incomplete (unwritten : Bool → Nat → CString)
    (none : ¬ ∃ document, FirstComplete world state.call document) :
    (loadServerStatus world client unwritten state).1 ≠ gsOk := by
  have failed : ∀ document, Obtained world state.call.allocations state.call.sent.length document →
      ¬ CompleteStatus document :=
    fun document obtained complete => none ⟨document, .https obtained complete⟩
  obtain ⟨ret, between, ran, -, allocations, sent, -⟩ :=
    statusAttempt_failed client true (unwritten true) failed
  have failedAgain : ∀ document,
      Obtained world between.call.allocations between.call.sent.length document →
        ¬ CompleteStatus document := by
    intro document obtained complete
    rw [allocations, sent] at obtained
    exact none ⟨document, .http failed obtained complete⟩
  obtain ⟨code, after, ranAgain, wrong, -⟩ :=
    statusAttempt_failed client false (unwritten false) failedAgain
  unfold loadServerStatus
  simp only [ran, ranAgain]
  exact wrong

theorem firstComplete_congr {call other : Call} (allocations : other.allocations = call.allocations)
    (sent : other.sent = call.sent) {document : Document}
    (first : FirstComplete world call document) : FirstComplete world other document := by
  have requests : requestsAfter world other = requestsAfter world call := by
    rw [requestsAfter, requestsAfter, allocations, sent]
  cases first with
  | https obtained complete =>
      rw [← allocations, ← sent] at obtained
      exact .https obtained complete
  | http failed obtained complete =>
      rw [← allocations, ← requests] at obtained
      rw [← allocations, ← sent] at failed
      exact .http failed obtained complete

/-- The texts of the elements are those inside them in the content. -/
theorem fieldsOf_content {document : Document} {content : XmlContent}
    (parsed : document.error = none) (delivered : Delivers xmlMarkup content document.events)
    (modes : List DisplayMode) :
    fieldsOf (elementText document) modes =
      fieldsOf (fun node => searchedText node.toList content) modes := by
  obtain ⟨events, error⟩ := document
  cases parsed
  refine congrArg (fieldsOf · modes) (funext fun node => ?_)
  have searched := @xmlSearchEx_result node.toList _ _ delivered false
  rw [← xmlSearch, xmlSearch_parsed rfl node] at searched
  have found : searchResult node.toList false (searchedText node.toList content) =
      ⟨.ok (searchedText node.toList content), none⟩ := rfl
  rw [found] at searched
  exact Except.ok.inj (congrArg Reported.result searched)

theorem parsed_of_first {call : Call} {document : Document}
    (first : FirstComplete world call document) : document.error = none := by
  cases first with
  | https _ complete => exact complete.parsed
  | http _ _ complete => exact complete.parsed

/-- The call succeeds with the fields of the first complete document, whatever the heap
holds, exactly when the last field of each name in every display mode is not empty. -/
theorem status_kept_iff (address : CString) (state : StatusCall) :
    (∀ unwritten, StatusKept world state.call
        (gsGetStatus world client unwritten address true state)) ↔
      ∀ document content, FirstComplete world state.call document →
        Delivers xmlMarkup content document.events → LastWritten content := by
  have start {document : Document} (first : FirstComplete world state.call document) :
      FirstComplete world (initializeStatus address true state).call document :=
    @firstComplete_congr world state.call (initializeStatus address true state).call rfl rfl
      document first
  constructor
  · intro kept document content first delivered
    have parsed := parsed_of_first world first
    have same (heap : Nat → CString) :
        (xmlModelist heap document).result = .ok (writtenModes content) := by
      obtain ⟨secure, modes, listed, -, fields⟩ :=
        loadServerStatus_complete world client rfl (fun _ => heap) (start first)
      have described := (kept fun _ => heap).fields document content first delivered
      rw [gsGetStatus, fields] at described
      have modes_eq : modes = writtenModes content := congrArg HostStatus.modes described
      rw [listed, modes_eq]
    obtain ⟨events, error⟩ := document
    cases parsed
    exact (modelist_written_iff delivered).mp same
  · intro written unwritten
    constructor
    · constructor
      · intro ok
        by_contra none
        refine loadServerStatus_incomplete world client unwritten ?_ ok
        rintro ⟨document, first⟩
        exact none ⟨document, @firstComplete_congr world (initializeStatus address true state).call
          state.call rfl rfl document first⟩
      · rintro ⟨document, first⟩
        obtain ⟨-, -, -, ok, -⟩ :=
          loadServerStatus_complete world client rfl unwritten (start first)
        exact ok
    · intro document content first delivered
      obtain ⟨secure, modes, listed, -, fields⟩ :=
        loadServerStatus_complete world client rfl unwritten (start first)
      have parsed := parsed_of_first world first
      have last := written document content first delivered
      rw [gsGetStatus, fields, fieldsOf_content parsed delivered, contentFields]
      obtain ⟨events, error⟩ := document
      cases parsed
      have result := (modelist_written_iff delivered).mpr last (unwritten secure)
      rw [listed] at result
      rw [Except.ok.inj result]

end Status

/-- `<root status_code="200">`, the required elements and a mode with an empty width. -/
def emptyWidthStatus : XmlContent :=
  .element ("root".toList, [("status_code".toList, "200".toList)])
    (textTag "currentgame" "0" (textTag "PairStatus" "1" (textTag "appversion" "7.1"
      (textTag "state" "FREE" emptyWidth)))) .nil

/-- A host that answers over http only. -/
def plainHost : World :=
  { constantHost ⟨emptyWidthStatus.events xmlMarkup, none⟩ with
    answer := fun request =>
      if request = 0 then .failed else .completed ⟨emptyWidthStatus.events xmlMarkup, none⟩ }

def freshStatus : StatusCall where
  call := freshCall false
  info := ⟨none, none, none, none, none, none, none, false, 0⟩

/-- The width of the mode is what the heap holds, such as the text of an earlier answer. -/
theorem status_reads_heap :
    (gsGetStatus plainHost ⟨[], [], []⟩ (fun _ _ => "1920".toList) [] true
        freshStatus).2.call.server.modes.map DisplayMode.width = [1920] ∧
      (gsGetStatus plainHost ⟨[], [], []⟩ (fun _ _ => []) [] true
        freshStatus).2.call.server.modes.map DisplayMode.width = [0] ∧
      ¬ ∀ unwritten, StatusKept plainHost freshStatus.call
        (gsGetStatus plainHost ⟨[], [], []⟩ unwritten [] true freshStatus) := by
  have large : (gsGetStatus plainHost ⟨[], [], []⟩ (fun _ _ => "1920".toList) [] true
      freshStatus).2.call.server.modes.map DisplayMode.width = [1920] := by decide
  have zero : (gsGetStatus plainHost ⟨[], [], []⟩ (fun _ _ => []) [] true
      freshStatus).2.call.server.modes.map DisplayMode.width = [0] := by decide
  refine ⟨large, zero, fun kept => ?_⟩
  have first : FirstComplete plainHost freshStatus.call
      ⟨emptyWidthStatus.events xmlMarkup, none⟩ := by
    refine .http ?_ ⟨rfl, rfl⟩ ⟨⟨rfl, by decide⟩, by decide⟩
    intro other obtained
    cases obtained.completed
  have delivered := events_delivered xmlMarkup emptyWidthStatus
  have one := (kept fun _ _ => "1920".toList).fields _ _ first delivered
  have other := (kept fun _ _ => []).fields _ _ first delivered
  have modes := congrArg (fun status => status.modes.map DisplayMode.width) (one.trans other.symm)
  rw [writtenFields, writtenFields] at modes
  rw [large, zero] at modes
  exact absurd modes (by decide)

end MoonlightWii.Gamestream.StatusFields
