import MoonlightWii.Gamestream.Pair
import MoonlightWii.Gamestream.QuitApp
import MoonlightWii.Gamestream.StartApp

/-!
# What a failed call leaves in the server data

The four operations that write `paired`, `currentGame` and `rtspSessionUrl`.
`gs_pair` clears the pairing flag in its cleanup, and `gs_start_app` stores the
new game before it has read the answer.
-/

set_option autoImplicit false

namespace MoonlightWii.Gamestream.FailedCalls

open Foundation.EarlyExit
open MoonlightWii.Gamestream.Crypto
open MoonlightWii.Gamestream.Errors
open MoonlightWii.Gamestream.Pair
open MoonlightWii.Gamestream.QuitApp
open MoonlightWii.Gamestream.Request
open MoonlightWii.Gamestream.StartApp
open MoonlightWii.Gamestream.Xml

inductive Operation where
  | pair (mbedtls : Mbedtls) (stack : Stack) (pin : List UInt8)
  | unpair
  | startApp (config : StreamConfig) (launch : Launch)
  | quitApp

def returned (result : EStateM.Result Int Call Int) : Int × Call :=
  match result with
  | .ok ret after => (ret, after)
  | .error ret after => (ret, after)

def perform (world : World) (client : Client) (operation : Operation) (call : Call) :
    Int × Call :=
  match operation with
  | .pair mbedtls stack pin => gsPair world mbedtls stack client pin call
  | .unpair => returned (gsUnpair world client call)
  | .startApp config launch => gsStartApp world client config launch call
  | .quitApp => gsQuitApp world client call

structure FieldsKept (before after : Server) : Prop where
  paired : after.paired = before.paired
  currentGame : after.currentGame = before.currentGame
  rtspSessionUrl : after.rtspSessionUrl = before.rtspSessionUrl

theorem fieldsKept_of_eq {before after : Server} (same : after = before) :
    FieldsKept before after := by
  subst same
  exact ⟨rfl, rfl, rfl⟩

/-! ## `gs_unpair` -/

/-- The first request of `gs_unpair` is answered with another status than
`GS_ERROR`. -/
def Unpairs (world : World) (call : Call) : Prop :=
  world.allocates call.allocations = true ∧
    ∃ document, world.answer call.sent.length = .completed document ∧
      (xmlStatus document).result ≠ gsError

theorem gsUnpair_exact (world : World) (client : Client) (call : Call) :
    Ensures (SameStart call) (gsUnpair world client)
      (fun ret after =>
        (Unpairs world call ∧ ret = gsOk ∧ after.server = call.server.withPaired false) ∨
        (¬ Unpairs world call ∧ ret ≠ gsOk ∧ after.server = call.server))
      (fun _ _ => False) := by
  refine ensures_bind (fun allocated state =>
    allocated = world.allocates call.allocations ∧
      (state.server = call.server ∧ state.sent = call.sent)) ?_ fun allocated =>
        ensures_fact fun known => ?_
  · intro state same
    exact ⟨by rw [← same.2.2], same.1, same.2.1⟩
  refine ensures_ite (fun yes => ?_) fun no => ?_
  · refine ensures_bind (fun (_ : CString) (state : Call) =>
      state.server = call.server ∧ state.sent = call.sent) (fun _ same => same) fun url => ?_
    refine ensures_bind (fun answer state =>
      answer = world.answer call.sent.length ∧ state.server = call.server) ?_ fun answer =>
        ensures_fact fun answered => ?_
    · intro state same
      exact ⟨by rw [← same.2], same.1⟩
    cases answer with
    | failed =>
        refine ensures_pure _ fun state same => .inr ⟨?_, by decide, same⟩
        rintro ⟨_, document, completed, _⟩
        rw [← answered] at completed
        cases completed
    | completed document =>
        refine ensures_report_bind (xmlStatus document) ?_
        refine ensures_ite (fun refused => ?_) fun accepted => ?_
        · refine ensures_pure _ fun state same => .inr ⟨?_, by decide, same⟩
          rintro ⟨_, other, completed, status⟩
          rw [← answered] at completed
          cases completed
          exact status refused
        · have unpairs : Unpairs world call := ⟨known ▸ yes, document, answered.symm, accepted⟩
          refine ensures_bind (fun _ after => after.server = call.server.withPaired false)
            (ensures_modify _ fun state same => ?_) fun _ => ?_
          · simp only [same]
          · exact ensures_pure _ fun state cleared => .inl ⟨unpairs, rfl, cleared⟩
  · refine ensures_pure _ fun state same => .inr ⟨?_, by decide, same.1⟩
    exact fun unpairs => no (known.trans unpairs.1)

theorem unpair_failed_keeps (world : World) (client : Client) (call : Call)
    (failed : (returned (gsUnpair world client call)).1 ≠ gsOk) :
    (returned (gsUnpair world client call)).2.server = call.server := by
  have ensured := gsUnpair_exact world client call call ⟨rfl, rfl, rfl⟩
  cases ran : gsUnpair world client call with
  | ok ret after =>
      rw [ran] at ensured failed
      rcases ensured with ⟨_, ok, _⟩ | ⟨_, _, same⟩
      · exact absurd ok failed
      · exact same
  | error ret after =>
      rw [ran] at ensured
      exact ensured.elim

/-! ## `gs_pair` -/

section Pairing

variable (world : World) (mbedtls : Mbedtls) (stack : Stack) (client : Client) (pin : List UInt8)

/-- A paired server fails `gs_pair` before its first request. -/
theorem pairBody_paired (call : Call) (paired : call.server.paired = true) :
    Ensures (fun state => state = call) (pairBody world mbedtls stack client pin)
      (fun _ _ => False) (fun ret after => ret ≠ gsOk ∧ SameStart call after) := by
  refine ensures_bind (fun _ state => state = call) ?_ fun _ => ?_
  · refine ensures_ite (fun _ => ensures_pure _ fun _ same => same) fun failed => ?_
    exact ensures_throw _ fun state same => ⟨failed, by rw [same]; exact ⟨rfl, rfl, rfl⟩⟩
  refine ensures_bind (fun read state => read = call ∧ state = call)
    (ensures_get fun _ same => ⟨same, same⟩) fun read => ensures_fact fun same => ?_
  subst same
  refine ensures_ite (fun _ => fun state same => ⟨by decide, ?_⟩) fun unpaired =>
    absurd paired unpaired
  rw [same]
  exact ⟨rfl, rfl, rfl⟩

theorem cleanupFailed_exact (call : Call) (ret : Int) (failed : ret ≠ gsOk) :
    Ensures (SameStart call) (cleanupFailed world client ret)
      (fun code after => code ≠ gsOk ∧
        ((Unpairs world call ∧ after.server = call.server.withPaired false) ∨
          (¬ Unpairs world call ∧ after.server = call.server)))
      (fun _ _ => False) := by
  refine ensures_bind (fun _ after =>
    (Unpairs world call ∧ after.server = call.server.withPaired false) ∨
      (¬ Unpairs world call ∧ after.server = call.server)) ?_ fun _ => ?_
  · refine ensures_weaken (gsUnpair_exact world client call) (fun _ same => same) ?_
      fun _ _ never => never
    rintro code after (⟨unpairs, _, cleared⟩ | ⟨kept, _, same⟩)
    · exact .inl ⟨unpairs, cleared⟩
    · exact .inr ⟨kept, same⟩
  refine ensures_bind (fun _ after =>
    (Unpairs world call ∧ after.server = call.server.withPaired false) ∨
      (¬ Unpairs world call ∧ after.server = call.server)) (ensures_get fun _ same => same)
    fun read => ?_
  refine ensures_ite (fun _ => ?_) fun _ => ensures_pure _ fun _ same => ⟨failed, same⟩
  refine ensures_bind (fun _ after =>
    (Unpairs world call ∧ after.server = call.server.withPaired false) ∨
      (¬ Unpairs world call ∧ after.server = call.server)) (ensures_modify _ fun _ same => same)
    fun _ => ensures_pure _ fun _ same => ⟨by decide, same⟩

theorem withPaired_self {server : Server} {paired : Bool} (same : server.paired = paired) :
    server.withPaired paired = server := by
  subst same
  rfl

theorem pair_unpaired_keeps (call : Call) (unpaired : call.server.paired = false)
    (failed : (gsPair world mbedtls stack client pin call).1 ≠ gsOk) :
    (gsPair world mbedtls stack client pin call).2.server = call.server := by
  have body := pairBody_ensures world mbedtls stack client pin call call rfl
  unfold gsPair pairWithCleanup at failed ⊢
  cases ran : pairBody world mbedtls stack client pin call with
  | ok value after =>
      rw [ran] at failed
      exact absurd rfl failed
  | error ret after =>
      rw [ran] at body failed
      have server := body.2
      by_cases ok : ret = gsOk
      · simp only [if_pos ok]
        exact server
      · simp only [if_neg ok]
        have cleaned := cleanupFailed_ensures world client after.server ret ok after rfl
        cases result : cleanupFailed world client ret after with
        | ok code final =>
            rw [result] at cleaned
            rcases cleaned.2 with same | cleared
            · exact same.trans server
            · rw [server, withPaired_self unpaired] at cleared
              exact cleared
        | error code final =>
            rw [result] at cleaned
            exact cleaned.elim

theorem pair_paired_exact (call : Call) (paired : call.server.paired = true) :
    (gsPair world mbedtls stack client pin call).1 ≠ gsOk ∧
      ((Unpairs world call ∧
          (gsPair world mbedtls stack client pin call).2.server = call.server.withPaired false) ∨
        (¬ Unpairs world call ∧
          (gsPair world mbedtls stack client pin call).2.server = call.server)) := by
  have body := pairBody_paired world mbedtls stack client pin call paired call rfl
  unfold gsPair pairWithCleanup
  cases ran : pairBody world mbedtls stack client pin call with
  | ok value after =>
      rw [ran] at body
      exact body.elim
  | error ret after =>
      rw [ran] at body
      obtain ⟨failed, start⟩ := body
      simp only [if_neg failed]
      have cleaned := cleanupFailed_exact world client call ret failed after start
      cases result : cleanupFailed world client ret after with
      | ok code final =>
          rw [result] at cleaned
          exact cleaned
      | error code final =>
          rw [result] at cleaned
          exact cleaned.elim

theorem pair_failed_keeps_iff (call : Call) :
    ((gsPair world mbedtls stack client pin call).1 ≠ gsOk →
        FieldsKept call.server (gsPair world mbedtls stack client pin call).2.server) ↔
      ¬ (call.server.paired = true ∧ Unpairs world call) := by
  cases paired : call.server.paired with
  | false =>
      refine iff_of_true (fun failed => ?_) (by simp)
      exact fieldsKept_of_eq
        (pair_unpaired_keeps world mbedtls stack client pin call paired failed)
  | true =>
      obtain ⟨failed, ends⟩ := pair_paired_exact world mbedtls stack client pin call paired
      rcases ends with ⟨unpairs, cleared⟩ | ⟨kept, same⟩
      · refine iff_of_false (fun keeps => ?_) fun never => never ⟨rfl, unpairs⟩
        have flag := (keeps failed).paired
        rw [cleared, paired] at flag
        cases flag
      · exact iff_of_true (fun _ => fieldsKept_of_eq same) fun unpairs => kept unpairs.2

end Pairing

/-! ## `gs_start_app` -/

/-- The value that decides about the launch: `gamesession`, or else `resume`. -/
def sessionResult (document : Document) : Except Int CString :=
  match (xmlSearchEx document "gamesession".toList true).result with
  | .ok value => .ok value
  | .error _ => (xmlSearchEx document "resume".toList true).result

def Started (document : Document) : Prop :=
  (xmlStatus document).result = gsOk ∧
    ∃ value, sessionResult document = .ok value ∧ value ≠ "0".toList

/-- The launch request completes, but its answer does not start the app. -/
def LaunchFails (world : World) (config : StreamConfig) (call : Call) : Prop :=
  LaunchSent world config call ∧
    ∃ document, world.answer call.sent.length = .completed document ∧ ¬ Started document

section Launching

variable {server : Server}

theorem sessionValue_exact (document : Document) :
    Ensures (fun call => call.server = server) (sessionValue document)
      (fun value call => sessionResult document = .ok value ∧ call.server = server)
      (fun ret call => ret ≠ gsOk ∧ (∀ value, sessionResult document ≠ .ok value) ∧
        call.server = server) := by
  refine ensures_report_bind _ ?_
  cases session : (xmlSearchEx document "gamesession".toList true).result with
  | ok value =>
      exact ensures_pure _ fun _ same => ⟨by simp only [sessionResult, session], same⟩
  | error code =>
      refine ensures_report_bind _ ?_
      cases resumed : (xmlSearchEx document "resume".toList true).result with
      | ok value =>
          have found : sessionResult document = .ok value := by
            simp only [sessionResult, session, resumed]
          exact ensures_pure _ fun _ same => ⟨found, same⟩
      | error ret =>
          have invalid := xmlSearchEx_error document _ _ ret resumed
          have missing : sessionResult document = .error ret := by
            simp only [sessionResult, session, resumed]
          refine ensures_throw _ fun _ same => ⟨by rw [invalid]; decide, ?_, same⟩
          intro value found
          rw [missing] at found
          cases found

theorem readLaunchAnswer_exact (document : Document) :
    Ensures (fun call => call.server = server) (readLaunchAnswer document)
      (fun _ _ => Started document)
      (fun ret call => ret ≠ gsOk ∧ ¬ Started document ∧ call.server = server) := by
  refine ensures_bind (fun _ call => (xmlStatus document).result = gsOk ∧ call.server = server) ?_
    fun _ => ensures_fact fun accepted => ?_
  · refine ensures_report_bind _ ?_
    refine ensures_ite (fun refused => ?_) fun accepted => ?_
    · exact ensures_throw _ fun _ same => ⟨by decide, fun started => refused started.1, same⟩
    · exact ensures_pure _ fun _ same => ⟨Classical.not_not.mp accepted, same⟩
  refine ensures_bind (fun value call => sessionResult document = .ok value ∧
    call.server = server) ?_ fun value => ensures_fact fun found => ?_
  · refine ensures_weaken (sessionValue_exact document) (fun _ same => same)
      (fun _ _ found => found) ?_
    rintro ret call ⟨failed, missing, same⟩
    exact ⟨failed, fun started => started.2.elim fun value here => missing value here.1, same⟩
  refine ensures_ite (fun refused => ?_) fun started => ?_
  · refine fun _ same => ⟨by decide, ?_, same⟩
    rintro ⟨_, other, here, nonzero⟩
    rw [found] at here
    cases Except.ok.inj here
    exact nonzero refused
  · have began : Started document := ⟨accepted, value, found, started⟩
    refine ensures_report_bind _ ?_
    cases (xmlSearchEx document "sessionUrl0".toList true).result with
    | ok url => exact ensures_modify _ fun _ _ => began
    | error ret => exact ensures_pure _ fun _ _ => began

variable (world : World) (client : Client) (config : StreamConfig) (launch : Launch)

theorem requestLaunch_keeps :
    Keeps server (fun ret => ret ≠ gsOk) (requestLaunch world client config launch) := by
  refine keeps_bind (keeps_drbgRandom world 16) fun key => ?_
  refine keeps_bind (keeps_drbgRandom world 4) fun ivHead => ?_
  refine keeps_bind (ensures_modify _ fun _ same => same) fun _ => ?_
  refine keeps_bind (keeps_httpDataAlloc world) fun allocated => ?_
  refine keeps_ite (fun _ => ?_) fun _ => keeps_fail _ _ (by decide)
  refine keeps_bind (ensures_get fun _ same => same) fun read => ?_
  refine keeps_bind (ensures_modify _ fun _ same => same) fun _ => ?_
  refine keeps_bind (keeps_buildUrl world client 4096 true _ _) fun url => ?_
  exact keeps_requestOrExit world _ (by decide)

theorem startAppBody_exact (call : Call) :
    Ensures (fun state => state = call) (startAppBody world client config launch)
      (fun _ _ => ¬ LaunchFails world config call)
      (fun ret after => ret ≠ gsOk ∧
        ((LaunchFails world config call ∧
            after.server = { call.server with currentGame := launch.appId }) ∨
          (¬ LaunchFails world config call ∧ after.server = call.server))) := by
  refine ensures_bind (fun _ state => world.seed.code = 0 ∧ state = call) ?_
    fun _ => ensures_fact fun seeded => ?_
  · refine ensures_ite (fun seeded => ensures_pure _ fun _ same => ⟨seeded, same⟩) fun failed => ?_
    refine ensures_throw _ fun _ same => ⟨failed, .inr ⟨?_, congrArg Call.server same⟩⟩
    exact fun fails => failed fails.1.1
  refine ensures_bind (fun read state => read = call ∧ state = call)
    (ensures_get fun _ same => ⟨same, same⟩) fun read => ensures_fact fun same => ?_
  subst same
  refine ensures_ite (fun unsupported => ?_) fun supported => ?_
  · intro state same
    subst same
    exact ⟨by decide, .inr ⟨fun fails => fails.1.2.1 unsupported, rfl⟩⟩
  refine ensures_ite (fun tooLarge => ?_) fun fits => ?_
  · intro state same
    subst same
    exact ⟨by decide, .inr ⟨fun fails => fails.1.2.2.1 tooLarge, rfl⟩⟩
  refine ensures_bind (fun document state =>
    (world.allocates read.allocations = true ∧
      world.answer read.sent.length = .completed document) ∧ state.server = read.server) ?_
    fun document => ensures_fact fun sent => ?_
  · have kept : Keeps read.server (fun ret => ret ≠ gsOk)
        (requestLaunch world client config launch) :=
      requestLaunch_keeps world client config launch
    refine ensures_weaken
      (ensures_and (requestLaunch_ensures world client config launch read) kept) ?_ ?_ ?_
    · intro state same
      subst same
      exact ⟨⟨rfl, rfl, rfl⟩, rfl⟩
    · exact fun document state done => ⟨done.1.1, done.2⟩
    · rintro ret state ⟨⟨_, unsent⟩, failed, same⟩
      refine ⟨failed, .inr ⟨?_, same⟩⟩
      rintro ⟨⟨_, _, _, allocates⟩, document, completed, _⟩
      exact unsent ⟨allocates, document, completed⟩
  have exact : LaunchFails world config read ↔ ¬ Started document := by
    constructor
    · rintro ⟨_, other, completed, failed⟩
      rw [sent.2] at completed
      cases completed
      exact failed
    · exact fun failed => ⟨⟨seeded, supported, fits, sent.1⟩, document, sent.2, failed⟩
  refine ensures_bind
    (fun _ state => state.server = { read.server with currentGame := launch.appId })
    (ensures_modify _ fun state same => by simp only [same]) fun _ => ?_
  rw [exact]
  refine ensures_weaken (readLaunchAnswer_exact document) (fun _ same => same)
    (fun _ _ started failed => failed started) ?_
  exact fun ret after left => ⟨left.1, .inl ⟨left.2.1, left.2.2⟩⟩

theorem startApp_failed_keeps_iff (call : Call) :
    ((gsStartApp world client config launch call).1 ≠ gsOk →
        FieldsKept call.server (gsStartApp world client config launch call).2.server) ↔
      ¬ (LaunchFails world config call ∧ launch.appId ≠ call.server.currentGame) := by
  have ensured := startAppBody_exact world client config launch call call rfl
  unfold gsStartApp
  cases ran : startAppBody world client config launch call with
  | ok value after =>
      rw [ran] at ensured
      exact iff_of_true (fun failed => absurd rfl failed) fun fails => ensured fails.1
  | error ret after =>
      rw [ran] at ensured
      obtain ⟨failed, ⟨fails, stored⟩ | ⟨starts, same⟩⟩ := ensured
      · simp only [stored]
        constructor
        · intro keeps other
          exact other.2 (keeps failed).currentGame
        · intro unchanged _
          have same : launch.appId = call.server.currentGame :=
            Classical.byContradiction fun other => unchanged ⟨fails, other⟩
          exact ⟨rfl, same, rfl⟩
      · exact iff_of_true (fun _ => fieldsKept_of_eq same) fun fails => starts fails.1

end Launching

/-! ## The four operations -/

def ChangesOnFailure (world : World) (call : Call) : Operation → Prop
  | .pair _ _ _ => call.server.paired = true ∧ Unpairs world call
  | .unpair => False
  | .startApp config launch =>
      LaunchFails world config call ∧ launch.appId ≠ call.server.currentGame
  | .quitApp => False

/-- A call that fails keeps the three fields, except `gs_pair` on a server that is
paired already and that it can unpair, and `gs_start_app` of another app when the
host completes the request without starting it. -/
theorem failed_call_keeps_fields_iff (world : World) (client : Client) (operation : Operation)
    (call : Call) :
    ((perform world client operation call).1 ≠ gsOk →
        FieldsKept call.server (perform world client operation call).2.server) ↔
      ¬ ChangesOnFailure world call operation := by
  cases operation with
  | pair mbedtls stack pin => exact pair_failed_keeps_iff world mbedtls stack client pin call
  | unpair =>
      exact iff_of_true
        (fun failed => fieldsKept_of_eq (unpair_failed_keeps world client call failed))
        fun changes => changes
  | startApp config launch => exact startApp_failed_keeps_iff world client config launch call
  | quitApp =>
      exact iff_of_true
        (fun failed => fieldsKept_of_eq (gsQuitApp_failed world client call failed))
        fun changes => changes

/-- "Already paired" unpairs the host. -/
theorem failed_call_changes_fields :
    ¬ ∀ (world : World) (client : Client) (operation : Operation) (call : Call),
      (perform world client operation call).1 ≠ gsOk →
        FieldsKept call.server (perform world client operation call).2.server := by
  intro always
  have kept := always (hostAnswering "1") ⟨"0123456789ABCDEF".toList, [], []⟩
    (.pair rejectingMbedtls ⟨fun _ _ => 0, 0⟩ [49, 50, 51, 52]) (freshCall true)
    (by decide)
  have cleared : (perform (hostAnswering "1") ⟨"0123456789ABCDEF".toList, [], []⟩
      (.pair rejectingMbedtls ⟨fun _ _ => 0, 0⟩ [49, 50, 51, 52])
      (freshCall true)).2.server.paired = false := by
    decide
  have same := kept.paired
  rw [cleared] at same
  cases same

end MoonlightWii.Gamestream.FailedCalls
