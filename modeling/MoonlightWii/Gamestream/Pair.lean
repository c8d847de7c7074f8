import MoonlightWii.Gamestream.Crypto
import MoonlightWii.Gamestream.Request

/-!
# Pairing with the host (`gs_pair` in `client.c`)

Five requests: the server certificate, the client challenge, the answer to the
server's challenge, the client secret, and a first request over https.
-/

set_option autoImplicit false

namespace MoonlightWii.Gamestream.Pair

open Foundation.EarlyExit
open MoonlightWii.Gamestream.Crypto
open MoonlightWii.Gamestream.Errors
open MoonlightWii.Gamestream.Request
open MoonlightWii.Gamestream.Xml

/-! ## The stages -/

def pairUrl (world : World) (client : Client) (secure : Bool) (params : CString) : GsM CString :=
  buildUrl world client 5120 secure "pair" (some ("devicename=roth&updateState=1&".toList ++ params))

/-- Stage 1 answers with the certificate of the server.  `ret` is still `GS_OK`
where the host declines and where the certificate is too big. -/
def parseServerCert (mbedtls : Mbedtls) (document : Document) : GsM Certificate := do
  let status ← report (xmlStatus document)
  if status ≠ gsOk then exitWith status status "Host returned malformed data." else
  match ← report (xmlSearch document "paired".toList) with
  | .error ret => exitWith ret ret "Host returned incorrect response."
  | .ok paired =>
      if paired ≠ "1".toList then exitWith gsOk gsFailed "Pairing was declined." else
      match ← report (xmlSearch document "plaincert".toList) with
      | .error ret => exitWith ret gsFailed "Failed to parse plaincert"
      | .ok plaincert =>
          if 8191 < plaincert.length / 2 then exitWith gsOk gsFailed "Server certificate too big" else
          let decoded := hexToBytes plaincert 8191
          -- `plaincert_len` stays 0 when the text is not hex.
          match mbedtls.x509CrtParse (decoded.1.take (decoded.2.getD 0) ++ [0]) with
          | none => fail gsFailed "Failed to parse server cert"
          | some cert => pure cert

def getServerCert (world : World) (mbedtls : Mbedtls) (client : Client) (salt : List UInt8) :
    GsM Certificate := do
  let url ← pairUrl world client false ("phrase=getservercert&salt=".toList ++ bytesToHex salt ++
    "&clientcert=".toList ++ client.certHex)
  if ← httpDataAlloc world then
    match ← httpRequest world url with
    | .failed => exitWith (-1) (-1) "Failed to request pairing. Check connection."
    | .completed document => parseServerCert mbedtls document
  else
    fail gsOutOfMemory "Out of memory"

def confirmStage (world : World) (stage : String) (url : CString) : GsM Document := do
  let document ← requestOrExit world url
  statusOrExitOne document
  let paired ← searchOrExit document "paired"
  if paired ≠ "1".toList then fail gsFailed ("Failed pairing at stage #" ++ stage)
  else pure document

def searchOrInvalid (document : Document) (node : String) : GsM CString := do
  match ← report (xmlSearch document node.toList) with
  | .ok value => pure value
  | .error _ => throw gsInvalid

/-- The blocks of `crypt_data` over `len` bytes; what lies beyond the 128 bytes of
the buffers is not modelled. -/
def blockCount (len : Nat) : Nat := min ((len + 15) / 16) 8

/-- `dec_server_challenge_response` for the text of `challengeresponse`. -/
def decryptChallengeResponse (mbedtls : Mbedtls) (stack : Stack) (aesKey : List UInt8)
    (text : CString) : List UInt8 :=
  let decoded := hexToBytes text 128
  let encrypted := filled stack .encServerChallengeResponse 128 decoded.1
  let len := decoded.2.getD stack.challengeRespLen
  filled stack .decServerChallengeResponse 128
    (cryptData (mbedtls.aesCryptEcb .decrypt aesKey) (blockCount len) encrypted).1

/-- `struct challenge_response_t` with the signature of a certificate. -/
def challengeResponse (stack : Stack) (buffer : Stale) (challenge sig secret : List UInt8) :
    List UInt8 :=
  challenge ++ filled stack buffer 256 sig ++ secret

/-- Stage 2: what the server answers to our challenge, decrypted. -/
def sendClientChallenge (world : World) (mbedtls : Mbedtls) (stack : Stack) (client : Client)
    (aesKey randomChallenge : List UInt8) : GsM (List UInt8) := do
  let encrypted := cryptData (mbedtls.aesCryptEcb .encrypt aesKey) 1 randomChallenge
  if encrypted.2 = false then fail gsFailed "Failed to encrypt random_challenge" else
  let url ← pairUrl world client false ("clientchallenge=".toList ++ bytesToHex encrypted.1)
  let document ← confirmStage world "2" url
  let text ← searchOrInvalid document "challengeresponse"
  pure (decryptChallengeResponse mbedtls stack aesKey text)

/-- Stage 3: the server's secret with its signature, 272 bytes. -/
def sendChallengeResponse (world : World) (mbedtls : Mbedtls) (stack : Stack) (client : Client)
    (algo : HashAlgo) (aesKey decrypted clientSecret : List UInt8) : GsM (List UInt8) := do
  let response := challengeResponse stack .clientCertSignature
    ((decrypted.drop algo.length).take 16) client.certSig clientSecret
  let hash := hashData mbedtls algo response
  let padded := hash ++ List.replicate (32 - hash.length) 0
  let encrypted := (cryptData (mbedtls.aesCryptEcb .encrypt aesKey) 2 padded).1
  let url ← pairUrl world client false ("serverchallengeresp=".toList ++
    bytesToHex (filled stack .challengeResponseEncrypted 32 encrypted))
  let document ← confirmStage world "3" url
  let text ← searchOrInvalid document "pairingsecret"
  pure (filled stack .pairingSecret 272 (hexToBytes text 272).1)

def checkPairingSecret (mbedtls : Mbedtls) (stack : Stack) (algo : HashAlgo) (cert : Certificate)
    (randomChallenge decrypted pairingSecret : List UInt8) : GsM PUnit := do
  let secret := pairingSecret.take 16
  let signature := pairingSecret.drop 16
  if verifySignature mbedtls secret signature cert = false then
    fail gsFailed "MITM attack detected" else
  let expected := challengeResponse stack .serverCertSignature randomChallenge cert.sig secret
  if hashData mbedtls algo expected ≠ decrypted.take algo.length then
    fail gsFailed "Incorrect PIN"
  else
    pure ⟨⟩

def sendClientSecret (world : World) (mbedtls : Mbedtls) (stack : Stack) (client : Client)
    (clientSecret : List UInt8) : GsM PUnit := do
  match generateSignature mbedtls clientSecret with
  | none => fail gsFailed "Failed to sign data"
  | some signature =>
      let secret := clientSecret ++ filled stack .clientPairingSecret 256 signature
      let url ← pairUrl world client false ("clientpairingsecret=".toList ++ bytesToHex secret)
      let _ ← confirmStage world "4" url
      let url ← pairUrl world client true "phrase=pairchallenge".toList
      let _ ← confirmStage world "5" url
      pure ⟨⟩

def exchangeSecrets (world : World) (mbedtls : Mbedtls) (stack : Stack) (client : Client)
    (algo : HashAlgo) (aesKey : List UInt8) (cert : Certificate) : GsM PUnit := do
  let randomChallenge ← drbgRandom world 16
  let decrypted ← sendClientChallenge world mbedtls stack client aesKey randomChallenge
  let clientSecret ← drbgRandom world 16
  let pairingSecret ←
    sendChallengeResponse world mbedtls stack client algo aesKey decrypted clientSecret
  checkPairingSecret mbedtls stack algo cert randomChallenge decrypted pairingSecret
  sendClientSecret world mbedtls stack client clientSecret

def hashAlgo (serverMajorVersion : Int) : HashAlgo :=
  if 7 ≤ serverMajorVersion then .sha256 else .sha1

/-- `gs_pair` up to its cleanup label; `pin` is the four characters of the PIN. -/
def pairBody (world : World) (mbedtls : Mbedtls) (stack : Stack) (client : Client)
    (pin : List UInt8) : GsM PUnit := do
  drbgSeed world
  let call ← get
  if call.server.paired then fail gsWrongState "Already paired" else
  let algo := hashAlgo call.server.serverMajorVersion
  let salt ← drbgRandom world 16
  let aesKey := (hashData mbedtls algo (salt ++ pin)).take 16
  let cert ← getServerCert world mbedtls client salt
  exchangeSecrets world mbedtls stack client algo aesKey cert
  setPaired true

def inGame : GsError :=
  gsSetError gsWrongState
    "The computer is currently in a game.\nYou must close the game before pairing.".toList

def cleanupFailed (world : World) (client : Client) (ret : Int) : GsM Int := do
  let _ ← gsUnpair world client
  let call ← get
  if call.server.currentGame ≠ 0 then
    setError inGame
    pure gsWrongState
  else
    pure ret

def pairWithCleanup (world : World) (mbedtls : Mbedtls) (stack : Stack) (client : Client)
    (pin : List UInt8) (call : Call) : EStateM.Result Int Call Int :=
  match pairBody world mbedtls stack client pin call with
  | .ok _ after => .ok gsOk after
  | .error ret after =>
      if ret = gsOk then .ok gsOk after else cleanupFailed world client ret after

def gsPair (world : World) (mbedtls : Mbedtls) (stack : Stack) (client : Client)
    (pin : List UInt8) (call : Call) : Int × Call :=
  match pairWithCleanup world mbedtls stack client pin call with
  | .ok ret after => (ret, after)
  | .error ret after => (ret, after)

/-! ## The exits of the first stage -/

/-- A first answer on which `gs_pair` leaves with `ret` still `GS_OK`. -/
def LeavesOk (document : Document) : Prop :=
  (xmlStatus document).result = gsOk ∧
    ∃ paired, (xmlSearch document "paired".toList).result = .ok paired ∧
      (paired ≠ "1".toList ∨
        ∃ plaincert, (xmlSearch document "plaincert".toList).result = .ok plaincert ∧
          8191 < plaincert.length / 2)

def FirstAnswerLeavesOk (world : World) (call : Call) : Prop :=
  world.allocates call.allocations = true ∧
    ∃ document, world.answer call.sent.length = .completed document ∧ LeavesOk document

/-- The exits of the program have code `GS_OK` exactly in the given case, and it
returns only outside that case; the server data stays as it is. -/
def LeavesOkWhen (case : Prop) (server : Server) (pre : Call → Prop) {α : Type}
    (program : GsM α) : Prop :=
  Ensures pre program (fun _ call => ¬ case ∧ call.server = server)
    (fun ret call => (ret = gsOk ↔ case) ∧ call.server = server)

section FirstStage

variable {case : Prop} {server : Server} {α : Type}

theorem leavesOkWhen_exitWith (ret code : Int) (text : String) (exact : ret = gsOk ↔ case) :
    LeavesOkWhen case server (fun call => call.server = server)
      (exitWith ret code text : GsM α) :=
  fun _ same => ⟨exact, same⟩

theorem leavesOkWhen_of_keeps {program : GsM α} (never : ¬ case)
    (keeps : Keeps server (fun ret => ret ≠ gsOk) program) :
    LeavesOkWhen case server (fun call => call.server = server) program :=
  ensures_weaken keeps (fun _ same => same) (fun _ _ same => ⟨never, same⟩)
    fun _ _ left => ⟨iff_of_false left.1 never, left.2⟩

theorem leavesOk_iff {document : Document} {paired : CString}
    (accepted : (xmlStatus document).result = gsOk)
    (found : (xmlSearch document "paired".toList).result = .ok paired) :
    LeavesOk document ↔ paired ≠ "1".toList ∨
      ∃ plaincert, (xmlSearch document "plaincert".toList).result = .ok plaincert ∧
        8191 < plaincert.length / 2 := by
  constructor
  · rintro ⟨_, other, same, leaves⟩
    rw [found] at same
    cases Except.ok.inj same
    exact leaves
  · exact fun leaves => ⟨accepted, paired, found, leaves⟩

theorem parseServerCert_leavesOk (mbedtls : Mbedtls) (document : Document) :
    LeavesOkWhen (LeavesOk document) server (fun call => call.server = server)
      (parseServerCert mbedtls document) := by
  refine ensures_report_bind (xmlStatus document) ?_
  refine ensures_ite (fun refused => ?_) fun accepted => ?_
  · exact leavesOkWhen_exitWith _ _ _ (iff_of_false refused fun leaves => refused leaves.1)
  have accepted : (xmlStatus document).result = gsOk := Classical.not_not.mp accepted
  refine ensures_report_bind (xmlSearch document "paired".toList) ?_
  cases found : (xmlSearch document "paired".toList).result with
  | error ret =>
      have invalid := xmlSearchEx_error document _ _ ret found
      refine leavesOkWhen_exitWith _ _ _ (iff_of_false (by rw [invalid]; decide) ?_)
      rintro ⟨_, paired, same, _⟩
      rw [found] at same
      cases same
  | ok paired =>
      have leaves := leavesOk_iff accepted found
      refine ensures_ite (fun declined => ?_) fun confirmed => ?_
      · exact leavesOkWhen_exitWith _ _ _ (iff_of_true rfl (leaves.mpr (.inl declined)))
      refine ensures_report_bind (xmlSearch document "plaincert".toList) ?_
      cases cert : (xmlSearch document "plaincert".toList).result with
      | error ret =>
          have invalid := xmlSearchEx_error document _ _ ret cert
          refine leavesOkWhen_exitWith _ _ _ (iff_of_false (by rw [invalid]; decide) ?_)
          intro left
          rcases leaves.mp left with declined | ⟨plaincert, same, _⟩
          · exact confirmed declined
          · rw [cert] at same
            cases same
      | ok plaincert =>
          refine ensures_ite (fun big => ?_) fun small => ?_
          · exact leavesOkWhen_exitWith _ _ _
              (iff_of_true rfl (leaves.mpr (.inr ⟨plaincert, cert, big⟩)))
          have never : ¬ LeavesOk document := by
            intro left
            rcases leaves.mp left with declined | ⟨other, same, big⟩
            · exact confirmed declined
            · rw [cert] at same
              cases Except.ok.inj same
              exact small big
          refine leavesOkWhen_of_keeps never ?_
          simp only
          split
          · exact keeps_fail _ _ (by decide)
          · exact keeps_pure _

theorem getServerCert_leavesOk (world : World) (mbedtls : Mbedtls) (client : Client)
    (salt : List UInt8) (call : Call) :
    LeavesOkWhen (FirstAnswerLeavesOk world call) call.server (SameStart call)
      (getServerCert world mbedtls client salt) := by
  refine ensures_bind (fun _ => SameStart call) (fun _ same => same) fun url => ?_
  refine ensures_bind (fun allocated state =>
    allocated = world.allocates call.allocations ∧
      (state.server = call.server ∧ state.sent = call.sent)) ?_ fun allocated =>
        ensures_fact fun known => ?_
  · intro state same
    exact ⟨by rw [← same.2.2], same.1, same.2.1⟩
  refine ensures_ite (fun yes => ?_) fun no => ?_
  · refine ensures_bind (fun answer state =>
      answer = world.answer call.sent.length ∧ state.server = call.server) ?_ fun answer =>
        ensures_fact fun answered => ?_
    · intro state same
      exact ⟨by rw [← same.2], same.1⟩
    cases answer with
    | failed =>
        refine leavesOkWhen_exitWith _ _ _ (iff_of_false (by decide) ?_)
        rintro ⟨_, document, completed, _⟩
        rw [← answered] at completed
        cases completed
    | completed document =>
        have exact : FirstAnswerLeavesOk world call ↔ LeavesOk document := by
          constructor
          · rintro ⟨_, other, completed, leaves⟩
            rw [← answered] at completed
            cases completed
            exact leaves
          · exact fun leaves => ⟨known ▸ yes, document, answered.symm, leaves⟩
        rw [exact]
        exact parseServerCert_leavesOk mbedtls document
  · refine ensures_weaken (leavesOkWhen_exitWith _ _ _ (iff_of_false (by decide) ?_))
      (fun _ same => same.1) (fun _ _ done => done) fun _ _ left => left
    rintro ⟨allocates, _⟩
    exact no (known.trans allocates)

end FirstStage

/-! ## The later stages -/

section LaterStages

variable {server : Server}

theorem confirmStage_keeps (world : World) (stage : String) (url : CString) :
    Keeps server (fun ret => ret ≠ gsOk) (confirmStage world stage url) := by
  refine keeps_bind (keeps_requestOrExit world url (by decide)) fun document => ?_
  refine keeps_bind (keeps_statusOrExitOne document (by decide)) fun _ => ?_
  refine keeps_bind (keeps_searchOrExit document "paired" (by decide)) fun paired => ?_
  exact keeps_ite (fun _ => keeps_fail _ _ (by decide)) fun _ => keeps_pure document

theorem searchOrInvalid_keeps (document : Document) (node : String) :
    Keeps server (fun ret => ret ≠ gsOk) (searchOrInvalid document node) := by
  refine keeps_report_bind _ ?_
  cases (xmlSearch document node.toList).result with
  | ok value => exact keeps_pure value
  | error ret => exact keeps_throw _ (by decide)

theorem pairUrl_keeps (world : World) (client : Client) (secure : Bool) (params : CString) :
    Keeps server (fun ret => ret ≠ gsOk) (pairUrl world client secure params) :=
  keeps_buildUrl world client 5120 secure "pair" _

variable (world : World) (mbedtls : Mbedtls) (stack : Stack) (client : Client)
  (algo : HashAlgo) (aesKey : List UInt8)

theorem sendClientChallenge_keeps (randomChallenge : List UInt8) :
    Keeps server (fun ret => ret ≠ gsOk)
      (sendClientChallenge world mbedtls stack client aesKey randomChallenge) := by
  refine keeps_ite (fun _ => keeps_fail _ _ (by decide)) fun _ => ?_
  refine keeps_bind (pairUrl_keeps world client false _) fun url => ?_
  refine keeps_bind (confirmStage_keeps world "2" url) fun document => ?_
  refine keeps_bind (searchOrInvalid_keeps document "challengeresponse") fun text => ?_
  exact keeps_pure _

theorem sendChallengeResponse_keeps (decrypted clientSecret : List UInt8) :
    Keeps server (fun ret => ret ≠ gsOk)
      (sendChallengeResponse world mbedtls stack client algo aesKey decrypted clientSecret) := by
  refine keeps_bind (pairUrl_keeps world client false _) fun url => ?_
  refine keeps_bind (confirmStage_keeps world "3" url) fun document => ?_
  refine keeps_bind (searchOrInvalid_keeps document "pairingsecret") fun text => ?_
  exact keeps_pure _

theorem checkPairingSecret_keeps (cert : Certificate)
    (randomChallenge decrypted pairingSecret : List UInt8) :
    Keeps server (fun ret => ret ≠ gsOk)
      (checkPairingSecret mbedtls stack algo cert randomChallenge decrypted pairingSecret) := by
  refine keeps_ite (fun _ => keeps_fail _ _ (by decide)) fun _ => ?_
  exact keeps_ite (fun _ => keeps_fail _ _ (by decide)) fun _ => keeps_pure _

theorem sendClientSecret_keeps (clientSecret : List UInt8) :
    Keeps server (fun ret => ret ≠ gsOk)
      (sendClientSecret world mbedtls stack client clientSecret) := by
  unfold sendClientSecret
  cases generateSignature mbedtls clientSecret with
  | none => exact keeps_fail _ _ (by decide)
  | some signature =>
      refine keeps_bind (pairUrl_keeps world client false _) fun url => ?_
      refine keeps_bind (confirmStage_keeps world "4" url) fun _ => ?_
      refine keeps_bind (pairUrl_keeps world client true _) fun url => ?_
      exact keeps_bind (confirmStage_keeps world "5" url) fun _ => keeps_pure _

theorem exchangeSecrets_keeps (cert : Certificate) :
    Keeps server (fun ret => ret ≠ gsOk)
      (exchangeSecrets world mbedtls stack client algo aesKey cert) := by
  refine keeps_bind (keeps_drbgRandom world 16) fun randomChallenge => ?_
  refine keeps_bind (sendClientChallenge_keeps world mbedtls stack client aesKey _) fun decrypted =>
    ?_
  refine keeps_bind (keeps_drbgRandom world 16) fun clientSecret => ?_
  refine keeps_bind (sendChallengeResponse_keeps world mbedtls stack client algo aesKey _ _)
    fun pairingSecret => ?_
  refine keeps_bind (checkPairingSecret_keeps mbedtls stack algo cert _ _ _) fun _ => ?_
  exact sendClientSecret_keeps world mbedtls stack client clientSecret

end LaterStages

/-! ## The returned code and the pairing flag -/

section Pairing

variable (world : World) (mbedtls : Mbedtls) (stack : Stack) (client : Client) (pin : List UInt8)

def LeavesOkAtStageOne (call : Call) : Prop :=
  world.seed.code = 0 ∧ call.server.paired = false ∧ FirstAnswerLeavesOk world call

theorem pairBody_ensures (call : Call) :
    Ensures (fun state => state = call) (pairBody world mbedtls stack client pin)
      (fun _ after => ¬ LeavesOkAtStageOne world call ∧ call.server.paired = false ∧
        after.server = call.server.withPaired true)
      (fun ret after => (ret = gsOk ↔ LeavesOkAtStageOne world call) ∧
        after.server = call.server) := by
  refine ensures_bind (fun _ state => world.seed.code = 0 ∧ state = call) ?_
    fun _ => ensures_fact fun seeded => ?_
  · refine ensures_ite (fun seeded => ensures_pure _ fun _ same => ⟨seeded, same⟩) fun failed => ?_
    refine ensures_throw _ fun _ same => ⟨iff_of_false failed ?_, congrArg Call.server same⟩
    exact fun leaves => failed leaves.1
  refine ensures_bind (fun read state => read = call ∧ state = call)
    (ensures_get fun _ same => ⟨same, same⟩) fun read => ensures_fact fun same => ?_
  subst same
  refine ensures_ite (fun paired => ?_) fun unpaired => ?_
  · intro state same
    have server : state.server = read.server := congrArg Call.server same
    refine ⟨iff_of_false (by decide) ?_, server⟩
    rintro ⟨_, unpaired, _⟩
    rw [paired] at unpaired
    cases unpaired
  have unpaired : read.server.paired = false := Bool.not_eq_true _ ▸ unpaired
  have exact : LeavesOkAtStageOne world read ↔ FirstAnswerLeavesOk world read :=
    ⟨fun leaves => leaves.2.2, fun leaves => ⟨seeded, unpaired, leaves⟩⟩
  rw [exact]
  refine ensures_bind (fun _ => SameStart read)
    (fun state same => by rw [same]; exact ⟨rfl, rfl, rfl⟩) fun salt => ?_
  refine ensures_bind _ (getServerCert_leavesOk world mbedtls client salt read)
    fun cert => ensures_fact fun never => ?_
  refine ensures_bind (fun _ after => after.server = read.server)
    (ensures_weaken (exchangeSecrets_keeps world mbedtls stack client _ _ cert)
      (fun _ same => same) (fun _ _ same => same)
      fun _ _ left => ⟨iff_of_false left.1 never, left.2⟩) fun _ => ?_
  refine ensures_modify _ fun state same => ⟨never, unpaired, ?_⟩
  simp only [same]

theorem cleanupFailed_ensures (server : Server) (ret : Int) (failed : ret ≠ gsOk) :
    Ensures (fun call => call.server = server) (cleanupFailed world client ret)
      (fun returned after => returned ≠ gsOk ∧
        (after.server = server ∨ after.server = server.withPaired false))
      (fun _ _ => False) := by
  refine ensures_bind _ (gsUnpair_ensures server world client) fun _ => ?_
  refine ensures_bind (fun _ after =>
    after.server = server ∨ after.server = server.withPaired false)
    (ensures_get fun _ same => same) fun call => ?_
  refine ensures_ite (fun _ => ?_) fun _ => ensures_pure _ fun _ same => ⟨failed, same⟩
  refine ensures_bind (fun _ after =>
    after.server = server ∨ after.server = server.withPaired false)
    (ensures_modify _ fun _ same => same) fun _ => ensures_pure _ fun _ same => ⟨by decide, same⟩

def SetPaired (before after : Call) : Prop :=
  before.server.paired = false ∧ after.server.paired = true

theorem not_setPaired {before after : Call}
    (kept : after.server = before.server ∨ after.server = before.server.withPaired false) :
    ¬ SetPaired before after := by
  rintro ⟨unpaired, paired⟩
  rcases kept with same | cleared
  · rw [same, unpaired] at paired
    cases paired
  · rw [cleared] at paired
    cases paired

/-- `gs_pair` returns `GS_OK` exactly when it has set `server->paired`, unless the
first answer declines the pairing or carries a certificate that is too big, and
only then not. -/
theorem pair_ok_iff_set_paired_iff (call : Call) :
    ((gsPair world mbedtls stack client pin call).1 = gsOk ↔
        SetPaired call (gsPair world mbedtls stack client pin call).2) ↔
      ¬ LeavesOkAtStageOne world call := by
  have body := pairBody_ensures world mbedtls stack client pin call call rfl
  unfold gsPair pairWithCleanup
  cases ran : pairBody world mbedtls stack client pin call with
  | ok value after =>
      rw [ran] at body
      obtain ⟨never, unpaired, server⟩ := body
      refine iff_of_true (iff_of_true rfl ⟨unpaired, ?_⟩) never
      simp only [server]
      rfl
  | error ret after =>
      rw [ran] at body
      obtain ⟨exact, server⟩ := body
      by_cases ok : ret = gsOk
      · simp only [if_pos ok]
        refine iff_of_false ?_ (Classical.not_not.mpr (exact.mp ok))
        intro meets
        exact not_setPaired (.inl server) (meets.mp trivial)
      · simp only [if_neg ok]
        have cleaned := cleanupFailed_ensures world client after.server ret ok after rfl
        cases result : cleanupFailed world client ret after with
        | ok returned final =>
            rw [result] at cleaned
            rw [server] at cleaned
            refine iff_of_true (iff_of_false cleaned.1 (not_setPaired cleaned.2)) ?_
            exact fun leaves => ok (exact.mpr leaves)
        | error returned final =>
            rw [result] at cleaned
            exact cleaned.elim

end Pairing

def hostAnswering (paired : String) : World :=
  constantHost
    { events :=
        [.startElement "root".toList [("status_code".toList, "200".toList)],
          .startElement "paired".toList [], .characterData paired.toList,
          .endElement "paired".toList, .endElement "root".toList]
      error := none }

def rejectingMbedtls : Mbedtls where
  sha1 := fun _ => List.replicate 20 0
  sha256 := fun _ => List.replicate 32 0
  sha1_length := fun _ => List.length_replicate
  sha256_length := fun _ => List.length_replicate
  aesCryptEcb := fun _ _ block => some block
  x509CrtParse := fun _ => none
  pkVerify := fun _ _ _ => -1
  pkSign := fun _ => none

theorem declined_pairing_returns_ok :
    ¬ ∀ (world : World) (mbedtls : Mbedtls) (stack : Stack) (client : Client)
      (pin : List UInt8) (call : Call),
      (gsPair world mbedtls stack client pin call).1 = gsOk ↔
        SetPaired call (gsPair world mbedtls stack client pin call).2 := by
  intro always
  have exact := always (hostAnswering "0") rejectingMbedtls ⟨fun _ _ => 0, 0⟩
    ⟨"0123456789ABCDEF".toList, [], []⟩ [49, 50, 51, 52] (freshCall false)
  have ok : (gsPair (hostAnswering "0") rejectingMbedtls ⟨fun _ _ => 0, 0⟩
      ⟨"0123456789ABCDEF".toList, [], []⟩ [49, 50, 51, 52] (freshCall false)).1 = gsOk := by
    decide
  have unpaired : (gsPair (hostAnswering "0") rejectingMbedtls ⟨fun _ _ => 0, 0⟩
      ⟨"0123456789ABCDEF".toList, [], []⟩ [49, 50, 51, 52] (freshCall false)).2.server.paired =
        false := by
    decide
  have paired := (exact.mp ok).2
  rw [unpaired] at paired
  cases paired

end MoonlightWii.Gamestream.Pair
