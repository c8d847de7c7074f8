import MoonlightWii.Gamestream.Pair
import MoonlightWii.Gamestream.SentRequests

/-!
# The requests of `gs_pair`

The first one carries the whole certificate, which need not fit; the buffers of
the call are large enough that a URL with a cut certificate is refused.
-/

set_option autoImplicit false

namespace MoonlightWii.Gamestream.PairRequests

open Foundation.EarlyExit
open MoonlightWii.Gamestream.Conf
open MoonlightWii.Gamestream.Crypto
open MoonlightWii.Gamestream.Errors
open MoonlightWii.Gamestream.Http
open MoonlightWii.Gamestream.Pair
open MoonlightWii.Gamestream.Request
open MoonlightWii.Gamestream.RequestTarget
open MoonlightWii.Gamestream.SentRequests
open MoonlightWii.Gamestream.Xml

def pairingRequest (secure : Bool) (params : List (String × CString)) : IntendedRequest where
  secure := secure
  action := "pair"
  params := ("devicename", "roth".toList) :: ("updateState", "1".toList) :: params
  extra := []

def serverCertRequest (salt file : List UInt8) : IntendedRequest :=
  pairingRequest false
    [("phrase", "getservercert".toList), ("salt", bytesToHex salt), ("clientcert", bytesToHex file)]

def pairAesKey (mbedtls : Mbedtls) (serverMajorVersion : Int) (salt pin : List UInt8) :
    List UInt8 :=
  (hashData mbedtls (hashAlgo serverMajorVersion) (salt ++ pin)).take 16

/-- The requests of a call that starts in this state, with the certificate file. -/
inductive PairIntends (world : World) (mbedtls : Mbedtls) (pin file : List UInt8) (call : Call) :
    IntendedRequest → Prop where
  | serverCert : PairIntends world mbedtls pin file call
      (serverCertRequest (drawn world call.draws 16) file)
  | clientChallenge : PairIntends world mbedtls pin file call
      (pairingRequest false [("clientchallenge", bytesToHex
        (cryptData (mbedtls.aesCryptEcb .encrypt (pairAesKey mbedtls call.server.serverMajorVersion
          (drawn world call.draws 16) pin)) 1 (drawn world (call.draws + 1) 16)).1)])
  | challengeResponse (response : List UInt8) (size : response.length = 32) :
      PairIntends world mbedtls pin file call
        (pairingRequest false [("serverchallengeresp", bytesToHex response)])
  | clientSecret (signature : List UInt8) (size : signature.length = 256) :
      PairIntends world mbedtls pin file call
        (pairingRequest false [("clientpairingsecret", bytesToHex
          (drawn world (call.draws + 2) 16 ++ signature))])
  | pairChallenge : PairIntends world mbedtls pin file call
      (pairingRequest true [("phrase", "pairchallenge".toList)])
  | unpair : PairIntends world mbedtls pin file call (plainRequest false "unpair")

section Stages

variable {watch : Watch} {draws : Nat}

theorem pairUrl_sendable {secure : Bool} {params : List (String × CString)} {text : CString}
    (intended : watch.intends (pairingRequest secure params))
    (prints : params.flatMap parameter = '&' :: text)
    (short : secure = true → text.length ≤ 100) (index : Nat) :
    Sendable watch (constructUrl watch.client (watch.world.uuid index) 5120 secure watch.address
      "pair".toList (some ("devicename=roth&updateState=1&".toList ++ text))) := by
  refine ⟨index, pairingRequest secure params, intended, ?_⟩
  apply large_constructUrl_arrives watch.memory watch.noColon watch.noSlash watch.client
    (watch.known index) (pairingRequest secure params)
  · simp [Prints, pairingRequest, prints, parameter]
  · intro https
    have bound := short https
    have identified := watch.identified
    have known := watch.known index
    have size := congrArg List.length prints
    rw [List.length_cons] at size
    simp [pairingRequest, IntendedRequest.target, parameter, known] at size ⊢
    omega

/-- A request that carries one value. -/
theorem valueUrl_sendable {name : String} {value text : CString}
    (intended : watch.intends (pairingRequest false [(name, value)]))
    (prints : text = name.toList ++ '=' :: value) (index : Nat) :
    Sendable watch (constructUrl watch.client (watch.world.uuid index) 5120 false watch.address
      "pair".toList (some ("devicename=roth&updateState=1&".toList ++ text))) := by
  refine pairUrl_sendable intended ?_ (fun https => absurd https (by decide)) index
  simp [parameter, prints]

/-- A certificate of which `load_cert` kept only a part makes the path too long. -/
theorem serverCertUrl_sendable {salt file : List UInt8}
    (hexed : watch.client.certHex = bytesToHex (file.take 4095))
    (intended : watch.intends (serverCertRequest salt file)) (index : Nat) :
    Sendable watch (constructUrl watch.client (watch.world.uuid index) 5120 false watch.address
      "pair".toList (some ("devicename=roth&updateState=1&".toList ++
        ("phrase=getservercert&salt=".toList ++ bytesToHex salt ++ "&clientcert=".toList ++
          watch.client.certHex)))) := by
  by_cases whole : file.length ≤ 4095
  · rw [hexed, List.take_of_length_le whole]
    refine pairUrl_sendable intended ?_ (fun https => absurd https (by decide)) index
    simp [parameter]
  · refine ⟨index, serverCertRequest salt file, intended, .inl ?_⟩
    apply long_params_refused watch.memory false watch.noColon watch.noSlash
    have size : watch.client.certHex.length = 8190 := by
      rw [hexed, bytesToHex_length, List.length_take]
      omega
    simp only [List.length_append, size]
    omega

theorem confirmStage_stays (stage : String) {url : CString} (sendable : Sendable watch url) :
    Stays watch draws (confirmStage watch.world stage url) := by
  refine stays_bind (stays_requestOrExit sendable) fun document => ?_
  refine stays_bind (stays_statusOrExitOne document) fun _ => ?_
  refine stays_bind (stays_searchOrExit document "paired") fun paired => ?_
  exact stays_ite (stays_fail _ _) (stays_pure document)

theorem searchOrInvalid_stays (document : Document) (node : String) :
    Stays watch draws (searchOrInvalid document node) := by
  apply stays_report_bind
  cases (xmlSearch document node.toList).result with
  | ok value => exact stays_pure value
  | error ret => exact stays_throw _

theorem parseServerCert_stays (mbedtls : Mbedtls) (document : Document) :
    Stays watch draws (parseServerCert mbedtls document) := by
  apply stays_report_bind
  apply stays_ite
  · exact stays_exitWith _ _ _
  · apply stays_report_bind
    cases (xmlSearch document "paired".toList).result with
    | error ret => exact stays_exitWith _ _ _
    | ok paired =>
        apply stays_ite
        · exact stays_exitWith _ _ _
        · apply stays_report_bind
          cases (xmlSearch document "plaincert".toList).result with
          | error ret => exact stays_exitWith _ _ _
          | ok plaincert =>
              apply stays_ite
              · exact stays_exitWith _ _ _
              · simp only
                split
                · exact stays_fail _ _
                · exact stays_pure _

variable {mbedtls : Mbedtls} {stack : Stack}

theorem getServerCert_stays {salt file : List UInt8}
    (hexed : watch.client.certHex = bytesToHex (file.take 4095))
    (intended : watch.intends (serverCertRequest salt file)) :
    Stays watch draws (getServerCert watch.world mbedtls watch.client salt) := by
  refine stays_built 5120 false "pair" _ (serverCertUrl_sendable hexed intended)
    fun url sendable => ?_
  refine stays_bind (stays_httpDataAlloc _) fun allocated => ?_
  refine stays_ite ?_ (stays_fail _ _)
  refine stays_bind (stays_httpRequest sendable) fun answer => ?_
  cases answer with
  | failed => exact stays_exitWith _ _ _
  | completed document => exact parseServerCert_stays mbedtls document

theorem sendClientChallenge_stays {aesKey challenge : List UInt8}
    (intended : watch.intends (pairingRequest false [("clientchallenge", bytesToHex
      (cryptData (mbedtls.aesCryptEcb .encrypt aesKey) 1 challenge).1)])) :
    Stays watch draws
      (sendClientChallenge watch.world mbedtls stack watch.client aesKey challenge) := by
  refine stays_ite (stays_fail _ _) ?_
  refine stays_built 5120 false "pair" _ (fun index => ?_) fun url sendable => ?_
  · exact valueUrl_sendable intended (by simp) index
  refine stays_bind (confirmStage_stays "2" sendable) fun document => ?_
  exact stays_bind (searchOrInvalid_stays document "challengeresponse") fun text => stays_pure _

theorem sendChallengeResponse_stays (algo : HashAlgo) (aesKey decrypted clientSecret : List UInt8)
    (intended : ∀ response : List UInt8, response.length = 32 →
      watch.intends (pairingRequest false [("serverchallengeresp", bytesToHex response)])) :
    Stays watch draws (sendChallengeResponse watch.world mbedtls stack watch.client algo aesKey
      decrypted clientSecret) := by
  refine stays_built 5120 false "pair" _ (fun index => ?_) fun url sendable => ?_
  · exact valueUrl_sendable (intended _ (filled_length stack .challengeResponseEncrypted 32 _))
      (by simp; rfl) index
  refine stays_bind (confirmStage_stays "3" sendable) fun document => ?_
  exact stays_bind (searchOrInvalid_stays document "pairingsecret") fun text => stays_pure _

theorem checkPairingSecret_stays (algo : HashAlgo) (cert : Certificate)
    (challenge decrypted pairingSecret : List UInt8) :
    Stays watch draws
      (checkPairingSecret mbedtls stack algo cert challenge decrypted pairingSecret) :=
  stays_ite (stays_fail _ _) (stays_ite (stays_fail _ _) (stays_pure _))

theorem sendClientSecret_stays {clientSecret : List UInt8}
    (intended : ∀ signature : List UInt8, signature.length = 256 →
      watch.intends (pairingRequest false
        [("clientpairingsecret", bytesToHex (clientSecret ++ signature))]))
    (secure : watch.intends (pairingRequest true [("phrase", "pairchallenge".toList)])) :
    Stays watch draws (sendClientSecret watch.world mbedtls stack watch.client clientSecret) := by
  unfold sendClientSecret
  cases generateSignature mbedtls clientSecret with
  | none => exact stays_fail _ _
  | some signature =>
      refine stays_built 5120 false "pair" _ (fun index => ?_) fun url sendable => ?_
      · exact valueUrl_sendable
          (intended _ (filled_length stack .clientPairingSecret 256 signature)) (by simp) index
      refine stays_bind (confirmStage_stays "4" sendable) fun _ => ?_
      refine stays_built 5120 true "pair" _ (fun index => ?_) fun url sendable => ?_
      · exact pairUrl_sendable secure (by simp [parameter]) (fun _ => by decide) index
      exact stays_bind (confirmStage_stays "5" sendable) fun _ => stays_pure _

end Stages

/-! ## The whole call -/

theorem cleanupFailed_stays {watch : Watch} {draws : Nat} (ret : Int)
    (intended : watch.intends (plainRequest false "unpair")) :
    Stays watch draws (cleanupFailed watch.world watch.client ret) := by
  refine stays_bind (gsUnpair_stays intended) fun _ => ?_
  refine ensures_bind (fun _ => Drawn watch draws) (ensures_get fun _ holds => holds) fun call => ?_
  exact stays_ite (stays_bind (stays_setError _) fun _ => stays_pure _) (stays_pure ret)

section Pairing

variable {watch : Watch} {mbedtls : Mbedtls} (stack : Stack) {pin file : List UInt8} {call : Call}
  (hexed : watch.client.certHex = bytesToHex (file.take 4095))
  (intended : ∀ request, PairIntends watch.world mbedtls pin file call request →
    watch.intends request)

include intended

theorem exchangeSecrets_issues (cert : Certificate) :
    Ensures (Drawn watch (call.draws + 1))
      (exchangeSecrets watch.world mbedtls stack watch.client
        (hashAlgo call.server.serverMajorVersion) (pairAesKey mbedtls
          call.server.serverMajorVersion (drawn watch.world call.draws 16) pin) cert)
      (fun _ => Issued watch) (fun _ => Issued watch) := by
  refine ensures_drbgRandom_bind 16 ?_
  refine ensures_bind _ (sendClientChallenge_stays (intended _ .clientChallenge))
    fun decrypted => ?_
  refine ensures_drbgRandom_bind 16 ?_
  refine ensures_bind _ (sendChallengeResponse_stays _ _ decrypted _ fun response size =>
    intended _ (.challengeResponse response size)) fun pairingSecret => ?_
  refine ensures_bind _ (checkPairingSecret_stays _ cert _ decrypted pairingSecret) fun _ => ?_
  exact stays_issues (sendClientSecret_stays
    (fun signature size => intended _ (.clientSecret signature size)) (intended _ .pairChallenge))

include hexed

theorem pairBody_issues (started : Drawn watch call.draws call) :
    Ensures (fun state => state = call) (pairBody watch.world mbedtls stack watch.client pin)
      (fun _ => Issued watch) (fun _ => Issued watch) := by
  refine ensures_bind (fun _ state => state = call) ?_ fun _ => ?_
  · refine ensures_ite (fun _ => ensures_pure _ fun _ same => same) fun _ => ?_
    refine ensures_throw _ fun state same => ?_
    rw [same]
    exact started.2
  refine ensures_bind (fun read state => read = call ∧ Drawn watch call.draws state)
    (ensures_get fun state same => ⟨same, same ▸ started⟩) fun read => ensures_fact fun same => ?_
  subst same
  refine ensures_ite (fun _ => stays_issues (stays_fail _ _)) fun _ => ?_
  refine ensures_drbgRandom_bind 16 ?_
  refine ensures_bind _ (getServerCert_stays hexed (intended _ .serverCert)) fun cert => ?_
  refine ensures_bind _ (exchangeSecrets_issues stack intended cert) fun _ => ?_
  exact ensures_modify _ fun state issued => ⟨issued.address, issued.sent⟩

theorem gsPair_issues (started : Issued watch call) :
    Issued watch (gsPair watch.world mbedtls stack watch.client pin call).2 := by
  have ensured := pairBody_issues stack hexed intended ⟨rfl, started⟩ call rfl
  unfold gsPair pairWithCleanup
  cases ran : pairBody watch.world mbedtls stack watch.client pin call with
  | ok value after =>
      rw [ran] at ensured
      exact ensured
  | error ret after =>
      rw [ran] at ensured
      simp only
      by_cases left : ret = gsOk
      · rw [if_pos left]
        exact ensured
      · have cleaned := cleanupFailed_stays ret (intended _ .unpair) after ⟨rfl, ensured⟩
        rw [if_neg left]
        cases cleanup : cleanupFailed watch.world watch.client ret after with
        | ok code final =>
            rw [cleanup] at cleaned
            exact cleaned.2
        | error code final =>
            rw [cleanup] at cleaned
            exact cleaned

end Pairing

end MoonlightWii.Gamestream.PairRequests
