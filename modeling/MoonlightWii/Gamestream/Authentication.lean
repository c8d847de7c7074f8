import MoonlightWii.Gamestream.Pair

/-!
# What a host must show to be paired (`gs_pair` in `client.c`)

The transcript of a call is the answers of the host from the first request on.
The proof follows the position in it through the stages; what a stage has
checked is a fact about the answer at its position.
-/

set_option autoImplicit false

namespace MoonlightWii.Gamestream.Authentication

open Foundation.EarlyExit
open MoonlightWii.Gamestream.Crypto
open MoonlightWii.Gamestream.Errors
open MoonlightWii.Gamestream.Pair
open MoonlightWii.Gamestream.Request
open MoonlightWii.Gamestream.Xml

/-! ## Facts about one answer -/

/-- The request with this number is answered with status 200 and `paired` equal to
`1`. -/
def AnsweredPaired (world : World) (number : Nat) (document : Document) : Prop :=
  world.answer number = .completed document ∧ (xmlStatus document).result = gsOk ∧
    (xmlSearch document "paired".toList).result = .ok "1".toList

def AnswersWith (world : World) (number : Nat) (node : String) (text : CString) : Prop :=
  ∃ document, AnsweredPaired world number document ∧
    (xmlSearch document node.toList).result = .ok text

/-- The certificate that the answer carries in `plaincert`. -/
def ReceivedCertificate (world : World) (mbedtls : Mbedtls) (number : Nat) (cert : Certificate) :
    Prop :=
  ∃ plaincert, AnswersWith world number "plaincert" plaincert ∧
    let decoded := hexToBytes plaincert 8191
    mbedtls.x509CrtParse (decoded.1.take (decoded.2.getD 0) ++ [0]) = some cert

/-- The certificate of stage 1: `ReceivedCertificate`, where the text also fits. -/
def AcceptedCertificate (world : World) (mbedtls : Mbedtls) (number : Nat) (cert : Certificate) :
    Prop :=
  ∃ plaincert, AnswersWith world number "plaincert" plaincert ∧ plaincert.length / 2 ≤ 8191 ∧
    let decoded := hexToBytes plaincert 8191
    mbedtls.x509CrtParse (decoded.1.take (decoded.2.getD 0) ++ [0]) = some cert

theorem AcceptedCertificate.received {world : World} {mbedtls : Mbedtls} {number : Nat}
    {cert : Certificate} (accepted : AcceptedCertificate world mbedtls number cert) :
    ReceivedCertificate world mbedtls number cert := by
  obtain ⟨plaincert, carried, -, parsed⟩ := accepted
  exact ⟨plaincert, carried, parsed⟩

/-- What an answer carries is read off the document of that answer. -/
theorem AnswersWith.read {world : World} {number : Nat} {node : String} {text : CString}
    {document : Document} (carried : AnswersWith world number node text)
    (answered : world.answer number = .completed document) :
    AnsweredPaired world number document ∧
      (xmlSearch document node.toList).result = .ok text := by
  obtain ⟨other, stage, found⟩ := carried
  have same := stage.1
  rw [answered] at same
  cases same
  exact ⟨stage, found⟩

theorem AnswersWith.unique {world : World} {number : Nat} {node : String} {text other : CString}
    (carried : AnswersWith world number node text) (again : AnswersWith world number node other) :
    text = other := by
  obtain ⟨document, stage, found⟩ := again
  have same := (carried.read stage.1).2
  rw [found] at same
  exact (Except.ok.inj same).symm

theorem AcceptedCertificate.unique {world : World} {mbedtls : Mbedtls} {number : Nat}
    {cert other : Certificate} (accepted : AcceptedCertificate world mbedtls number cert)
    (again : AcceptedCertificate world mbedtls number other) : cert = other := by
  obtain ⟨plaincert, carried, -, parsed⟩ := accepted
  obtain ⟨text, carries, -, parses⟩ := again
  rw [carries.unique carried] at parses
  exact Option.some_inj.mp (parsed.symm.trans parses)

def randomBytes (world : World) (draw : Nat) : List UInt8 :=
  (List.range 16).map (world.random draw)

/-- The AES key of the call: from the first draw, the salt, and the PIN. -/
def sessionKey (world : World) (mbedtls : Mbedtls) (pin : List UInt8) (call : Call) :
    List UInt8 :=
  (hashData mbedtls (hashAlgo call.server.serverMajorVersion)
    (randomBytes world call.draws ++ pin)).take 16

/-! ## The position in the transcript -/

structure Position (call : Call) (requests draws : Nat) (state : Call) : Prop where
  server : state.server = call.server
  sent : state.sent.length = call.sent.length + requests
  draws : state.draws = call.draws + draws

section Stages

variable {call : Call} {requests draws : Nat} {α β : Type}

/-- The program ends in the condition where it returns; its exits may be any. -/
def Yields (pre : Call → Prop) (program : GsM α) (done : α → Call → Prop) : Prop :=
  Ensures pre program done fun _ _ => True

/-- The program leaves only where the fact holds. -/
def Splits (pre : Call → Prop) (program : GsM α) (done : α → Call → Prop) (exits : Prop) :
    Prop :=
  Ensures pre program done fun _ _ => exits

theorem yields_of_splits {pre : Call → Prop} {program : GsM α} {done : α → Call → Prop}
    {exits : Prop} (splits : Splits pre program done exits) : Yields pre program done :=
  ensures_weaken splits (fun _ here => here) (fun _ _ reached => reached) fun _ _ _ => trivial

theorem splits_exitWith (ret code : Int) (text : String) {done : α → Call → Prop}
    {pre : Call → Prop} {exits : Prop} (holds : exits) :
    Splits pre (exitWith ret code text : GsM α) done exits :=
  fun _ _ => holds

theorem yields_throws (ret : Int) {done : α → Call → Prop} {pre : Call → Prop} :
    Yields pre (throw ret : GsM α) done :=
  ensures_throw ret fun _ _ => trivial

theorem yields_exitWith (ret code : Int) (text : String) {done : α → Call → Prop}
    {pre : Call → Prop} : Yields pre (exitWith ret code text : GsM α) done :=
  splits_exitWith ret code text trivial

theorem report_bind_position (reported : Reported α) {next : α → GsM β}
    {done : β → Call → Prop} {left : Int → Call → Prop}
    (second : Ensures (Position call requests draws) (next reported.result) done left) :
    Ensures (Position call requests draws) (report reported >>= next) done left :=
  ensures_reported (fun _ _ here => ⟨here.server, here.sent, here.draws⟩) reported second

variable {left : Int → Call → Prop}

theorem httpDataAlloc_position (world : World) :
    Ensures (fun state => state.allocations = call.allocations ∧
        Position call requests draws state) (httpDataAlloc world)
      (fun allocated state => allocated = world.allocates call.allocations ∧
        Position call requests draws state) left :=
  fun _ here => ⟨by rw [← here.1], here.2.server, here.2.sent, here.2.draws⟩

theorem buildUrl_keeps {pre : Call → Prop} (world : World) (client : Client) (ulen : Nat)
    (secure : Bool) (action : String) (params : Option CString) :
    Ensures pre (buildUrl world client ulen secure action params) (fun _ => pre) left :=
  fun _ here => here

theorem httpRequest_position (world : World) (url : CString) :
    Ensures (Position call requests draws) (httpRequest world url)
      (fun answer state => answer = world.answer (call.sent.length + requests) ∧
        Position call (requests + 1) draws state) left := by
  intro state here
  refine ⟨by rw [← here.sent], here.server, ?_, here.draws⟩
  have sent := here.sent
  simp only [List.length_append, List.length_singleton]
  omega

theorem drbgRandom_position (world : World) :
    Ensures (Position call requests draws) (drbgRandom world 16)
      (fun bytes state => bytes = randomBytes world (call.draws + draws) ∧
        Position call requests (draws + 1) state) left := by
  intro state here
  refine ⟨by rw [← here.draws]; rfl, here.server, here.sent, ?_⟩
  have drawn := here.draws
  simp only
  omega

/-- The draw of the salt, at the start of a call. -/
theorem firstDraw (world : World) :
    Ensures (fun state => state = call) (drbgRandom world 16)
      (fun salt state => salt = randomBytes world call.draws ∧
        state.allocations = call.allocations ∧ Position call 0 1 state) left := by
  intro state same
  subst same
  exact ⟨rfl, rfl, rfl, rfl, rfl⟩

/-! ## The stages -/

variable (world : World) (mbedtls : Mbedtls) (stack : Stack) (client : Client)

theorem parseServerCert_splits {number : Nat} {document : Document}
    (answered : world.answer number = .completed document) :
    Splits (Position call requests draws) (parseServerCert mbedtls document)
      (fun cert state => AcceptedCertificate world mbedtls number cert ∧
        Position call requests draws state)
      (¬ ∃ cert, AcceptedCertificate world mbedtls number cert) := by
  refine report_bind_position _ ?_
  refine ensures_ite (fun refused => splits_exitWith _ _ _ ?_) fun accepted => ?_
  · rintro ⟨_, _, carried, -⟩
    exact refused (carried.read answered).1.2.1
  have accepted : (xmlStatus document).result = gsOk := Classical.not_not.mp accepted
  refine report_bind_position _ ?_
  cases found : (xmlSearch document "paired".toList).result with
  | error ret =>
      refine splits_exitWith _ _ _ ?_
      rintro ⟨_, _, carried, -⟩
      have confirmed := (carried.read answered).1.2.2
      rw [found] at confirmed
      cases confirmed
  | ok paired =>
      refine ensures_ite (fun declined => splits_exitWith _ _ _ ?_) fun confirmed => ?_
      · rintro ⟨_, _, carried, -⟩
        have confirmed := (carried.read answered).1.2.2
        rw [found] at confirmed
        exact declined (Except.ok.inj confirmed)
      have confirmed : paired = "1".toList := Classical.not_not.mp confirmed
      have stage : AnsweredPaired world number document :=
        ⟨answered, accepted, confirmed ▸ found⟩
      refine report_bind_position _ ?_
      cases text : (xmlSearch document "plaincert".toList).result with
      | error ret =>
          refine splits_exitWith _ _ _ ?_
          rintro ⟨_, _, carried, -⟩
          have there := (carried.read answered).2
          rw [text] at there
          cases there
      | ok plaincert =>
          have carries : AnswersWith world number "plaincert" plaincert := ⟨document, stage, text⟩
          refine ensures_ite (fun big => splits_exitWith _ _ _ ?_) fun small => ?_
          · rintro ⟨_, _, carried, fits, -⟩
            rw [carried.unique carries] at fits
            exact Nat.not_le.mpr big fits
          simp only
          split
          · rename_i refused
            refine splits_exitWith _ _ _ ?_
            rintro ⟨_, _, carried, -, parsed⟩
            rw [carried.unique carries] at parsed
            cases refused.symm.trans parsed
          · rename_i cert parsed
            exact ensures_pure _ fun state here =>
              ⟨⟨plaincert, carries, Nat.not_lt.mp small, parsed⟩, here⟩

/-- The first request needs an allocation, and its answer an acceptable certificate. -/
def StartsWith (call : Call) (number : Nat) (cert : Certificate) : Prop :=
  world.allocates call.allocations = true ∧ AcceptedCertificate world mbedtls number cert

theorem getServerCert_splits (salt : List UInt8) :
    Splits (fun state => state.allocations = call.allocations ∧
        Position call requests draws state) (getServerCert world mbedtls client salt)
      (fun cert state => StartsWith world mbedtls call (call.sent.length + requests) cert ∧
        Position call (requests + 1) draws state)
      (¬ ∃ cert, StartsWith world mbedtls call (call.sent.length + requests) cert) := by
  refine ensures_bind _ (buildUrl_keeps world client 5120 false "pair" _) fun url => ?_
  refine ensures_bind _ (httpDataAlloc_position world) fun allocated =>
    ensures_fact fun known => ?_
  refine ensures_ite (fun yes => ?_) fun no => splits_exitWith _ _ _ ?_
  · refine ensures_bind _ (httpRequest_position world url) fun answer =>
      ensures_fact fun answered => ?_
    cases answer with
    | failed =>
        refine splits_exitWith _ _ _ ?_
        rintro ⟨_, -, _, ⟨_, stage, -⟩, -⟩
        have completed := stage.1
        rw [← answered] at completed
        cases completed
    | completed document =>
        refine ensures_weaken (parseServerCert_splits world mbedtls answered.symm)
          (fun _ here => here) (fun _ _ passed => ?_) fun _ _ never started => ?_
        · exact ⟨⟨known ▸ yes, passed.1⟩, passed.2⟩
        · obtain ⟨cert, -, accepted⟩ := started
          exact never ⟨cert, accepted⟩
  · rintro ⟨_, allocates, -⟩
    exact no (known.trans allocates)

theorem confirmStage_splits (stage : String) (url : CString) :
    Splits (Position call requests draws) (confirmStage world stage url)
      (fun document state => AnsweredPaired world (call.sent.length + requests) document ∧
        Position call (requests + 1) draws state)
      (¬ ∃ document, AnsweredPaired world (call.sent.length + requests) document) := by
  refine ensures_bind (fun document state =>
    world.answer (call.sent.length + requests) = .completed document ∧
      Position call (requests + 1) draws state) ?_ fun document => ensures_fact fun answered => ?_
  · refine ensures_bind _ (httpRequest_position world url) fun answer =>
      ensures_fact fun answered => ?_
    cases answer with
    | failed =>
        refine ensures_throw _ fun _ _ => ?_
        rintro ⟨document, completed, -⟩
        rw [← answered] at completed
        cases completed
    | completed document => exact ensures_pure _ fun _ here => ⟨answered.symm, here⟩
  have only {other : Document}
      (paired : AnsweredPaired world (call.sent.length + requests) other) : other = document := by
    have completed := paired.1
    rw [answered] at completed
    cases completed
    rfl
  refine ensures_bind (fun _ state => (xmlStatus document).result = gsOk ∧
    Position call (requests + 1) draws state) ?_ fun _ => ensures_fact fun accepted => ?_
  · refine report_bind_position _ ?_
    refine ensures_ite (fun refused => ensures_throw _ fun _ _ => ?_) fun accepted => ?_
    · rintro ⟨other, paired⟩
      exact refused (only paired ▸ paired.2.1)
    exact ensures_pure _ fun _ here => ⟨Classical.not_not.mp accepted, here⟩
  refine ensures_bind (fun paired state =>
    (xmlSearch document "paired".toList).result = .ok paired ∧
      Position call (requests + 1) draws state) ?_ fun paired => ensures_fact fun found => ?_
  · refine report_bind_position _ ?_
    cases searched : (xmlSearch document "paired".toList).result with
    | error ret =>
        refine ensures_throw _ fun _ _ => ?_
        rintro ⟨other, paired⟩
        have confirmed := paired.2.2
        rw [only paired, searched] at confirmed
        cases confirmed
    | ok paired => exact ensures_pure _ fun _ here => ⟨rfl, here⟩
  refine ensures_ite (fun declined => splits_exitWith _ _ _ ?_) fun confirmed => ?_
  · rintro ⟨other, paired⟩
    have confirmed := paired.2.2
    rw [only paired, found] at confirmed
    exact declined (Except.ok.inj confirmed)
  have confirmed : paired = "1".toList := Classical.not_not.mp confirmed
  exact ensures_pure _ fun _ here => ⟨⟨answered, accepted, confirmed ▸ found⟩, here⟩

theorem confirmStage_answered (stage : String) (url : CString) :
    Yields (Position call requests draws) (confirmStage world stage url) fun document state =>
      AnsweredPaired world (call.sent.length + requests) document ∧
        Position call (requests + 1) draws state :=
  yields_of_splits (confirmStage_splits world stage url)

theorem searchOrInvalid_splits (document : Document) (node : String) :
    Splits (Position call requests draws) (searchOrInvalid document node)
      (fun text state => (xmlSearch document node.toList).result = .ok text ∧
        Position call requests draws state)
      (¬ ∃ text, (xmlSearch document node.toList).result = .ok text) := by
  refine report_bind_position _ ?_
  cases searched : (xmlSearch document node.toList).result with
  | error ret =>
      refine ensures_throw _ fun _ _ => ?_
      rintro ⟨text, found⟩
      cases found
  | ok text => exact ensures_pure _ fun _ here => ⟨rfl, here⟩

theorem searchOrInvalid_found (document : Document) (node : String) :
    Yields (Position call requests draws) (searchOrInvalid document node) fun text state =>
      (xmlSearch document node.toList).result = .ok text ∧
        Position call requests draws state :=
  yields_of_splits (searchOrInvalid_splits document node)

theorem sendClientChallenge_answered (aesKey randomChallenge : List UInt8) :
    Yields (Position call requests draws)
      (sendClientChallenge world mbedtls stack client aesKey randomChallenge)
      fun decrypted state => (∃ text,
        AnswersWith world (call.sent.length + requests) "challengeresponse" text ∧
          decrypted = decryptChallengeResponse mbedtls stack aesKey text) ∧
        Position call (requests + 1) draws state := by
  refine ensures_ite (fun _ => yields_exitWith _ _ _) fun _ => ?_
  refine ensures_bind _ (buildUrl_keeps world client 5120 false "pair" _) fun url => ?_
  refine ensures_bind _ (confirmStage_answered world "2" url) fun document =>
    ensures_fact fun answered => ?_
  refine ensures_bind _ (searchOrInvalid_found document "challengeresponse") fun text =>
    ensures_fact fun found => ?_
  exact ensures_pure _ fun _ here => ⟨⟨text, ⟨document, answered, found⟩, rfl⟩, here⟩

theorem sendChallengeResponse_answered (algo : HashAlgo)
    (aesKey decrypted clientSecret : List UInt8) :
    Yields (Position call requests draws)
      (sendChallengeResponse world mbedtls stack client algo aesKey decrypted clientSecret)
      fun pairingSecret state => (∃ text,
        AnswersWith world (call.sent.length + requests) "pairingsecret" text ∧
          pairingSecret = filled stack .pairingSecret 272 (hexToBytes text 272).1) ∧
        Position call (requests + 1) draws state := by
  refine ensures_bind _ (buildUrl_keeps world client 5120 false "pair" _) fun url => ?_
  refine ensures_bind _ (confirmStage_answered world "3" url) fun document =>
    ensures_fact fun answered => ?_
  refine ensures_bind _ (searchOrInvalid_found document "pairingsecret") fun text =>
    ensures_fact fun found => ?_
  exact ensures_pure _ fun _ here => ⟨⟨text, ⟨document, answered, found⟩, rfl⟩, here⟩

theorem sendClientSecret_answered (clientSecret : List UInt8) :
    Yields (Position call requests draws)
      (sendClientSecret world mbedtls stack client clientSecret) fun _ state =>
      ((∃ document, AnsweredPaired world (call.sent.length + requests) document) ∧
        ∃ document, AnsweredPaired world (call.sent.length + (requests + 1)) document) ∧
        Position call (requests + 2) draws state := by
  unfold sendClientSecret
  cases generateSignature mbedtls clientSecret with
  | none => exact yields_exitWith _ _ _
  | some signature =>
      refine ensures_bind _ (buildUrl_keeps world client 5120 false "pair" _) fun url => ?_
      refine ensures_bind _ (confirmStage_answered world "4" url) fun fourth =>
        ensures_fact fun fourthAnswered => ?_
      refine ensures_bind _ (buildUrl_keeps world client 5120 true "pair" _) fun url => ?_
      refine ensures_bind _ (confirmStage_answered world "5" url) fun fifth =>
        ensures_fact fun fifthAnswered => ?_
      exact ensures_pure _ fun _ here =>
        ⟨⟨⟨fourth, fourthAnswered⟩, ⟨fifth, fifthAnswered⟩⟩, here⟩

theorem checkPairingSecret_passes (algo : HashAlgo) (cert : Certificate)
    (randomChallenge decrypted pairingSecret : List UInt8) :
    Yields (Position call requests draws)
      (checkPairingSecret mbedtls stack algo cert randomChallenge decrypted pairingSecret)
      fun _ state =>
        (verifySignature mbedtls (pairingSecret.take 16) (pairingSecret.drop 16) cert = true ∧
          hashData mbedtls algo (challengeResponse stack .serverCertSignature randomChallenge
            cert.sig (pairingSecret.take 16)) = decrypted.take algo.length) ∧
        Position call requests draws state := by
  refine ensures_ite (fun _ => yields_exitWith _ _ _) fun signed => ?_
  refine ensures_ite (fun _ => yields_exitWith _ _ _) fun matching => ?_
  refine ensures_pure _ fun _ here => ⟨⟨?_, Classical.not_not.mp matching⟩, here⟩
  exact Bool.not_eq_false _ ▸ signed

end Stages

/-! ## The whole transcript -/

/-- `pairing_secret` of stage 3: 16 bytes of secret and 256 of signature. -/
def receivedSecret (stack : Stack) (text : CString) : List UInt8 :=
  filled stack .pairingSecret 272 (hexToBytes text 272).1

def hostSecret (stack : Stack) (text : CString) : List UInt8 := (receivedSecret stack text).take 16

def hostSignature (stack : Stack) (text : CString) : List UInt8 :=
  (receivedSecret stack text).drop 16

/-- The five answers of a host that passes every check, with the certificate of
stage 1, the `challengeresponse` of stage 2 and the `pairingsecret` of stage 3. -/
structure PassesChecks (world : World) (mbedtls : Mbedtls) (stack : Stack) (pin : List UInt8)
    (call : Call) (cert : Certificate) (response secret : CString) : Prop where
  certificate : ReceivedCertificate world mbedtls call.sent.length cert
  challenge : AnswersWith world (call.sent.length + 1) "challengeresponse" response
  pairingSecret : AnswersWith world (call.sent.length + 2) "pairingsecret" secret
  clientSecret : ∃ document, AnsweredPaired world (call.sent.length + 3) document
  pairChallenge : ∃ document, AnsweredPaired world (call.sent.length + 4) document
  secretLength : (hostSecret stack secret).length = 16
  signed : verifySignature mbedtls (hostSecret stack secret) (hostSignature stack secret) cert = true
  hash :
    let expected := challengeResponse stack .serverCertSignature
      (randomBytes world (call.draws + 1)) cert.sig (hostSecret stack secret)
    let decrypted := decryptChallengeResponse mbedtls stack
      (sessionKey world mbedtls pin call) response
    if 7 ≤ call.server.serverMajorVersion then
      mbedtls.sha256 expected = decrypted.take 32
    else
      mbedtls.sha1 expected = decrypted.take 20

def Authenticated (world : World) (mbedtls : Mbedtls) (stack : Stack) (pin : List UInt8)
    (call : Call) : Prop :=
  ∃ cert response secret, PassesChecks world mbedtls stack pin call cert response secret

theorem hostSecret_length (stack : Stack) (text : CString) :
    (hostSecret stack text).length = 16 := by
  simp [hostSecret, receivedSecret]

theorem hash_by_version {mbedtls : Mbedtls} {version : Int} {expected decrypted : List UInt8}
    (same : hashData mbedtls (hashAlgo version) expected =
      decrypted.take (hashAlgo version).length) :
    if 7 ≤ version then mbedtls.sha256 expected = decrypted.take 32
    else mbedtls.sha1 expected = decrypted.take 20 := by
  unfold hashAlgo at same
  by_cases modern : 7 ≤ version
  · rw [if_pos modern] at same ⊢
    exact same
  · rw [if_neg modern] at same ⊢
    exact same

section Transcript

variable (world : World) (mbedtls : Mbedtls) (stack : Stack) (client : Client) (pin : List UInt8)

theorem exchangeSecrets_passes {call : Call} {cert : Certificate}
    (received : ReceivedCertificate world mbedtls call.sent.length cert) :
    Yields (Position call 1 1) (exchangeSecrets world mbedtls stack client
      (hashAlgo call.server.serverMajorVersion) (sessionKey world mbedtls pin call) cert)
      fun _ _ => Authenticated world mbedtls stack pin call := by
  refine ensures_bind _ (drbgRandom_position world) fun challenge =>
    ensures_fact fun challengeKnown => ?_
  subst challengeKnown
  refine ensures_bind _ (sendClientChallenge_answered world mbedtls stack client _ _)
    fun decrypted => ensures_fact fun answered => ?_
  obtain ⟨response, responded, decryptedKnown⟩ := answered
  subst decryptedKnown
  refine ensures_bind _ (drbgRandom_position world) fun clientSecret =>
    ensures_fact fun _ => ?_
  refine ensures_bind _ (sendChallengeResponse_answered world mbedtls stack client _ _ _ _)
    fun pairingSecret => ensures_fact fun answered => ?_
  obtain ⟨secret, answered, secretKnown⟩ := answered
  subst secretKnown
  refine ensures_bind _ (checkPairingSecret_passes mbedtls stack _ cert _ _ _) fun _ =>
    ensures_fact fun passed => ?_
  refine ensures_weaken (sendClientSecret_answered world mbedtls stack client clientSecret)
    (fun _ here => here) (fun _ _ last => ?_) fun _ _ _ => trivial
  exact ⟨cert, response, secret,
    { certificate := received
      challenge := responded
      pairingSecret := answered
      clientSecret := last.1.1
      pairChallenge := last.1.2
      secretLength := hostSecret_length stack secret
      signed := passed.1
      hash := hash_by_version passed.2 }⟩

theorem pairBody_passes (call : Call) :
    Yields (fun state => state = call) (pairBody world mbedtls stack client pin)
      fun _ _ => Authenticated world mbedtls stack pin call := by
  refine ensures_bind (fun _ state => state = call) ?_ fun _ => ?_
  · exact ensures_ite (fun _ => ensures_pure _ fun _ same => same) fun _ => yields_throws _
  refine ensures_bind (fun read state => read = call ∧ state = call)
    (ensures_get fun _ same => ⟨same, same⟩) fun read => ensures_fact fun same => ?_
  subst same
  refine ensures_ite (fun _ => yields_exitWith _ _ _) fun _ => ?_
  refine ensures_bind _ (firstDraw world) fun salt => ensures_fact fun saltKnown => ?_
  subst saltKnown
  refine ensures_bind _ (yields_of_splits (getServerCert_splits world mbedtls client _))
    fun cert => ensures_fact fun started => ?_
  refine ensures_bind (fun _ _ => Authenticated world mbedtls stack pin read)
    (exchangeSecrets_passes world mbedtls stack client pin started.2.received) fun _ => ?_
  exact ensures_modify _ fun _ authenticated => authenticated

end Transcript

def element (name : String) (text : CString) : List XmlEvent :=
  [.startElement name.toList [], .characterData text, .endElement name.toList]

/-- A host whose hash and secret are all zeros, and which signs with them. -/
def pairingHost : World :=
  constantHost
    { events :=
        .startElement "root".toList [("status_code".toList, "200".toList)] ::
          (element "paired" "1".toList ++ element "plaincert" "30820100".toList ++
            element "challengeresponse" (List.replicate 96 '0') ++
            element "pairingsecret" (List.replicate 544 '0') ++ [.endElement "root".toList])
      error := none }

def acceptingMbedtls : Mbedtls :=
  { rejectingMbedtls with
    x509CrtParse := fun text => some ⟨text, List.replicate 256 7⟩
    pkVerify := fun _ _ _ => 0
    pkSign := fun _ => some (List.replicate 256 9) }

end MoonlightWii.Gamestream.Authentication
