import MoonlightWii.Foundation.TracedExit
import MoonlightWii.Gamestream.Authentication
import MoonlightWii.Gamestream.HexText

/-!
# The bytes that pairing uses (`gs_pair` in `client.c`)

`hex_to_bytes` leaves its output alone on a text that it does not accept, and no
caller asks.  The program of `Pair` runs here over cells that know whether
anything was stored in them, and notes this for every byte that is decrypted,
hashed, verified or compared after stage 1.
-/

set_option autoImplicit false

namespace MoonlightWii.Gamestream.DefinedBytes

open Foundation.EarlyExit
open Foundation.TracedExit
open MoonlightWii.Gamestream.Authentication
open MoonlightWii.Gamestream.Crypto
open MoonlightWii.Gamestream.Errors
open MoonlightWii.Gamestream.HexText
open MoonlightWii.Gamestream.Pair
open MoonlightWii.Gamestream.Request
open MoonlightWii.Gamestream.Xml

/-! ## Cells -/

/-- A byte of a C object, and whether anything has been stored there. -/
structure Cell where
  byte : UInt8
  defined : Bool

def stored (bytes : List UInt8) : List Cell := bytes.map fun byte => ⟨byte, true⟩

def bytes (cells : List Cell) : List UInt8 := cells.map Cell.byte

/-- `filled`, as cells. -/
def filledCells (stack : Stack) (buffer : Stale) (size : Nat) (written : List UInt8) : List Cell :=
  (List.range size).map fun index =>
    ⟨written[index]?.getD (stack.bytes buffer index), decide (index < written.length)⟩

theorem bytes_stored (plain : List UInt8) : bytes (stored plain) = plain := by
  unfold bytes stored
  rw [List.map_map]
  exact List.map_id plain

theorem bytes_append (first second : List Cell) :
    bytes (first ++ second) = bytes first ++ bytes second :=
  List.map_append

theorem bytes_take (count : Nat) (cells : List Cell) :
    bytes (cells.take count) = (bytes cells).take count :=
  List.map_take

theorem bytes_drop (count : Nat) (cells : List Cell) :
    bytes (cells.drop count) = (bytes cells).drop count :=
  List.map_drop

theorem bytes_filledCells (stack : Stack) (buffer : Stale) (size : Nat) (written : List UInt8) :
    bytes (filledCells stack buffer size written) = filled stack buffer size written := by
  unfold bytes filledCells filled
  rw [List.map_map]
  rfl

/-! ## The program over cells -/

abbrev UseM (α : Type) := TracedM Int Call Bool α

/-- A use of these cells. -/
def use (cells : List Cell) : UseM PUnit := note (cells.map Cell.defined)

def decryptCells (mbedtls : Mbedtls) (stack : Stack) (aesKey : List UInt8) (text : CString) :
    UseM (List Cell) := do
  let decoded := hexToBytes text 128
  let encrypted := filledCells stack .encServerChallengeResponse 128 decoded.1
  let len := decoded.2.getD stack.challengeRespLen
  note [decoded.2.isSome]
  use (encrypted.take (16 * blockCount len))
  pure (filledCells stack .decServerChallengeResponse 128
    (cryptData (mbedtls.aesCryptEcb .decrypt aesKey) (blockCount len) (bytes encrypted)).1)

def challengeResponseCells (stack : Stack) (buffer : Stale) (challenge : List Cell)
    (sig : List UInt8) (secret : List Cell) : List Cell :=
  challenge ++ filledCells stack buffer 256 sig ++ secret

def sendClientChallengeCells (world : World) (mbedtls : Mbedtls) (stack : Stack) (client : Client)
    (aesKey randomChallenge : List UInt8) : UseM (List Cell) := do
  let encrypted := cryptData (mbedtls.aesCryptEcb .encrypt aesKey) 1 randomChallenge
  if encrypted.2 = false then lift (fail gsFailed "Failed to encrypt random_challenge") else
  let url ← lift (pairUrl world client false ("clientchallenge=".toList ++ bytesToHex encrypted.1))
  let document ← lift (confirmStage world "2" url)
  let text ← lift (searchOrInvalid document "challengeresponse")
  decryptCells mbedtls stack aesKey text

def sendChallengeResponseCells (world : World) (mbedtls : Mbedtls) (stack : Stack)
    (client : Client) (algo : HashAlgo) (aesKey : List UInt8) (decrypted : List Cell)
    (clientSecret : List UInt8) : UseM (List Cell) := do
  let response := challengeResponseCells stack .clientCertSignature
    ((decrypted.drop algo.length).take 16) client.certSig (stored clientSecret)
  use response
  let hash := hashData mbedtls algo (bytes response)
  let padded := hash ++ List.replicate (32 - hash.length) 0
  let encrypted := (cryptData (mbedtls.aesCryptEcb .encrypt aesKey) 2 padded).1
  let url ← lift (pairUrl world client false ("serverchallengeresp=".toList ++
    bytesToHex (filled stack .challengeResponseEncrypted 32 encrypted)))
  let document ← lift (confirmStage world "3" url)
  let text ← lift (searchOrInvalid document "pairingsecret")
  pure (filledCells stack .pairingSecret 272 (hexToBytes text 272).1)

def checkPairingSecretCells (mbedtls : Mbedtls) (stack : Stack) (algo : HashAlgo)
    (cert : Certificate) (randomChallenge : List UInt8) (decrypted pairingSecret : List Cell) :
    UseM PUnit := do
  let secret := pairingSecret.take 16
  let signature := pairingSecret.drop 16
  use (secret ++ signature)
  if verifySignature mbedtls (bytes secret) (bytes signature) cert = false then
    lift (fail gsFailed "MITM attack detected") else
  let expected := challengeResponseCells stack .serverCertSignature (stored randomChallenge)
    cert.sig secret
  use (expected ++ decrypted.take algo.length)
  if hashData mbedtls algo (bytes expected) ≠ bytes (decrypted.take algo.length) then
    lift (fail gsFailed "Incorrect PIN")
  else
    pure ⟨⟩

def exchangeSecretsCells (world : World) (mbedtls : Mbedtls) (stack : Stack) (client : Client)
    (algo : HashAlgo) (aesKey : List UInt8) (cert : Certificate) : UseM PUnit := do
  let randomChallenge ← lift (drbgRandom world 16)
  let decrypted ← sendClientChallengeCells world mbedtls stack client aesKey randomChallenge
  let clientSecret ← lift (drbgRandom world 16)
  let pairingSecret ←
    sendChallengeResponseCells world mbedtls stack client algo aesKey decrypted clientSecret
  checkPairingSecretCells mbedtls stack algo cert randomChallenge decrypted pairingSecret
  use (stored clientSecret)
  lift (sendClientSecret world mbedtls stack client clientSecret)

def pairBodyCells (world : World) (mbedtls : Mbedtls) (stack : Stack) (client : Client)
    (pin : List UInt8) : UseM PUnit := do
  lift (drbgSeed world)
  let call ← lift get
  if call.server.paired then lift (fail gsWrongState "Already paired") else
  let algo := hashAlgo call.server.serverMajorVersion
  let salt ← lift (drbgRandom world 16)
  let aesKey := (hashData mbedtls algo (salt ++ pin)).take 16
  let cert ← lift (getServerCert world mbedtls client salt)
  exchangeSecretsCells world mbedtls stack client algo aesKey cert
  lift (setPaired true)

/-- For each use in a call of `gs_pair`, in order, whether it was of something
defined. -/
def pairUses (world : World) (mbedtls : Mbedtls) (stack : Stack) (client : Client)
    (pin : List UInt8) (call : Call) : List Bool :=
  match pairBodyCells world mbedtls stack client pin ⟨call, []⟩ with
  | .ok _ after => after.marks
  | .error _ after => after.marks

/-! ## Without the notes it is `gs_pair` -/

section Erasure

variable (world : World) (mbedtls : Mbedtls) (stack : Stack) (client : Client)
  (algo : HashAlgo) (aesKey : List UInt8)

theorem decryptCells_erases (text : CString) :
    Erases (decryptCells mbedtls stack aesKey text)
      (pure (decryptChallengeResponse mbedtls stack aesKey text)) bytes := by
  have same : bytes (filledCells stack .decServerChallengeResponse 128
      (cryptData (mbedtls.aesCryptEcb .decrypt aesKey)
        (blockCount ((hexToBytes text 128).2.getD stack.challengeRespLen))
        (bytes (filledCells stack .encServerChallengeResponse 128 (hexToBytes text 128).1))).1) =
      decryptChallengeResponse mbedtls stack aesKey text := by
    rw [bytes_filledCells, bytes_filledCells]
    rfl
  rw [← same]
  apply erases_note_bind
  apply erases_note_bind
  exact erases_pure _ bytes

theorem sendClientChallengeCells_erases (randomChallenge : List UInt8) :
    Erases (sendClientChallengeCells world mbedtls stack client aesKey randomChallenge)
      (sendClientChallenge world mbedtls stack client aesKey randomChallenge) bytes := by
  apply erases_ite
  · exact fun _ => rfl
  apply erases_bind (erases_lift _)
  intro url
  apply erases_bind (erases_lift _)
  intro document
  apply erases_bind (erases_lift _)
  intro text
  exact decryptCells_erases mbedtls stack aesKey text

theorem bytes_challengeResponseCells (buffer : Stale) (challenge : List Cell)
    (sig : List UInt8) (secret : List Cell) :
    bytes (challengeResponseCells stack buffer challenge sig secret) =
      challengeResponse stack buffer (bytes challenge) sig (bytes secret) := by
  unfold challengeResponseCells challengeResponse
  rw [bytes_append, bytes_append, bytes_filledCells]

theorem sendChallengeResponseCells_erases (decrypted : List Cell) (clientSecret : List UInt8) :
    Erases (sendChallengeResponseCells world mbedtls stack client algo aesKey decrypted
        clientSecret)
      (sendChallengeResponse world mbedtls stack client algo aesKey (bytes decrypted)
        clientSecret) bytes := by
  have same : bytes (challengeResponseCells stack .clientCertSignature
      ((decrypted.drop algo.length).take 16) client.certSig (stored clientSecret)) =
      challengeResponse stack .clientCertSignature (((bytes decrypted).drop algo.length).take 16)
        client.certSig clientSecret := by
    rw [bytes_challengeResponseCells, bytes_take, bytes_drop, bytes_stored]
  unfold sendChallengeResponse
  rw [← same]
  apply erases_note_bind
  apply erases_bind (erases_lift _)
  intro url
  apply erases_bind (erases_lift _)
  intro document
  apply erases_bind (erases_lift _)
  intro text
  rw [id, ← bytes_filledCells]
  exact erases_pure _ bytes

theorem checkPairingSecretCells_erases (cert : Certificate) (randomChallenge : List UInt8)
    (decrypted pairingSecret : List Cell) :
    Erases (checkPairingSecretCells mbedtls stack algo cert randomChallenge decrypted
        pairingSecret)
      (checkPairingSecret mbedtls stack algo cert randomChallenge (bytes decrypted)
        (bytes pairingSecret)) id := by
  have expected : bytes (challengeResponseCells stack .serverCertSignature
      (stored randomChallenge) cert.sig (pairingSecret.take 16)) =
      challengeResponse stack .serverCertSignature randomChallenge cert.sig
        ((bytes pairingSecret).take 16) := by
    rw [bytes_challengeResponseCells, bytes_stored, bytes_take]
  unfold checkPairingSecret
  dsimp only
  rw [← expected, ← bytes_take, ← bytes_drop, ← bytes_take]
  apply erases_note_bind
  apply erases_ite
  · exact fun _ => rfl
  apply erases_note_bind
  apply erases_ite
  · exact fun _ => rfl
  · exact fun _ => rfl

theorem exchangeSecretsCells_erases (cert : Certificate) :
    Erases (exchangeSecretsCells world mbedtls stack client algo aesKey cert)
      (exchangeSecrets world mbedtls stack client algo aesKey cert) id := by
  apply erases_bind (erases_lift _)
  intro randomChallenge
  apply erases_bind (sendClientChallengeCells_erases world mbedtls stack client aesKey _)
  intro decrypted
  apply erases_bind (erases_lift _)
  intro clientSecret
  apply erases_bind (sendChallengeResponseCells_erases world mbedtls stack client algo aesKey _ _)
  intro pairingSecret
  apply erases_bind (checkPairingSecretCells_erases mbedtls stack algo cert _ _ _)
  intro _
  apply erases_note_bind
  exact erases_lift _

/-- What the uses are noted of is the run of `gs_pair` itself. -/
theorem pairBodyCells_erases (pin : List UInt8) :
    Erases (pairBodyCells world mbedtls stack client pin)
      (pairBody world mbedtls stack client pin) id := by
  apply erases_bind (erases_lift _)
  intro _
  apply erases_bind (erases_lift _)
  intro call
  apply erases_ite
  · exact erases_lift _
  apply erases_bind (erases_lift _)
  intro salt
  apply erases_bind (erases_lift _)
  intro cert
  apply erases_bind (exchangeSecretsCells_erases world mbedtls stack client _ _ cert)
  intro _
  exact erases_lift _

end Erasure

/-! ## Which cells are defined -/

def AllDefined (marks : List Bool) : Prop := ∀ mark ∈ marks, mark = true

theorem allDefined_nil : AllDefined [] := List.forall_mem_nil _

theorem allDefined_append (first second : List Bool) :
    AllDefined (first ++ second) ↔ AllDefined first ∧ AllDefined second :=
  List.forall_mem_append

theorem allDefined_stored (plain : List UInt8) :
    AllDefined ((stored plain).map Cell.defined) := by
  intro mark member
  unfold stored at member
  rw [List.map_map, List.mem_map] at member
  obtain ⟨_, _, same⟩ := member
  exact same.symm

/-- The cells from `start` on, as many as `count`. -/
theorem segment_defined_iff (stack : Stack) (buffer : Stale) {size start count : Nat}
    (written : List UInt8) (fits : start + count ≤ size) (positive : 0 < count) :
    AllDefined ((((filledCells stack buffer size written).drop start).take count).map
      Cell.defined) ↔ start + count ≤ written.length := by
  have marks : (((filledCells stack buffer size written).drop start).take count).map
      Cell.defined = (List.range' start count).map fun index => decide (index < written.length) := by
    apply List.ext_getElem
    · simp [filledCells]
      omega
    · intro index inside _
      simp [filledCells]
  rw [marks]
  unfold AllDefined
  simp only [List.mem_map, List.mem_range'_1, forall_exists_index, and_imp]
  constructor
  · intro all
    have last := all _ (start + count - 1) (by omega) (by omega) rfl
    have inside := of_decide_eq_true last
    omega
  · intro enough mark index _ _ same
    rw [← same]
    exact decide_eq_true (by omega)

/-- All cells of the buffer. -/
theorem filledCells_defined_iff (stack : Stack) (buffer : Stale) {size : Nat}
    (written : List UInt8) (positive : 0 < size) :
    AllDefined ((filledCells stack buffer size written).map Cell.defined) ↔
      size ≤ written.length := by
  have segment := segment_defined_iff stack buffer written (Nat.le_of_eq (Nat.zero_add size))
    positive
  rw [List.drop_zero, List.take_of_length_le (by simp [filledCells]), Nat.zero_add] at segment
  exact segment

theorem challengeResponseCells_defined_iff (stack : Stack) (buffer : Stale)
    (challenge : List Cell) (sig : List UInt8) (secret : List Cell) :
    AllDefined ((challengeResponseCells stack buffer challenge sig secret).map Cell.defined) ↔
      (AllDefined (challenge.map Cell.defined) ∧ 256 ≤ sig.length) ∧
        AllDefined (secret.map Cell.defined) := by
  unfold challengeResponseCells
  rw [List.map_append, List.map_append, allDefined_append, allDefined_append,
    filledCells_defined_iff stack buffer sig (by omega)]

/-! ## The texts that gs_pair can use -/

/-- mbedtls with a cipher that works on every whole block. -/
structure WorkingMbedtls extends Mbedtls where
  aesCryptEcb_works : ∀ mode key block, block.length = 16 →
    ∃ output, aesCryptEcb mode key block = some output ∧ output.length = 16

/-- Whole blocks, enough of them for the hash and the challenge behind it. -/
structure UsableResponse (text : CString) : Prop where
  decodes : Decodes text 128
  blocks : 256 ≤ text.length ∨ 32 ∣ text.length
  long : 96 ≤ text.length

structure UsableSecret (text : CString) : Prop where
  decodes : Decodes text 272
  long : 544 ≤ text.length

theorem cryptData_whole (mbedtls : WorkingMbedtls) (mode : AesMode) (key : List UInt8)
    (blocks : Nat) (input : List UInt8) (enough : 16 * blocks ≤ input.length) :
    (cryptData (mbedtls.aesCryptEcb mode key) blocks input).1.length = 16 * blocks ∧
      (cryptData (mbedtls.aesCryptEcb mode key) blocks input).2 = true := by
  induction blocks generalizing input with
  | zero => exact ⟨rfl, rfl⟩
  | succ blocks ih =>
      obtain ⟨output, crypted, whole⟩ := mbedtls.aesCryptEcb_works mode key (input.take 16)
        (by rw [List.length_take]; omega)
      have later := ih (input.drop 16) (by rw [List.length_drop]; omega)
      unfold cryptData
      rw [crypted]
      dsimp only
      rw [List.length_append, whole, later.1]
      exact ⟨by omega, later.2⟩

/-- The marks of the decryption of a text. -/
def decryptMarks (stack : Stack) (text : CString) : List Bool :=
  [(hexToBytes text 128).2.isSome] ++
    ((filledCells stack .encServerChallengeResponse 128 (hexToBytes text 128).1).take
      (16 * blockCount ((hexToBytes text 128).2.getD stack.challengeRespLen))).map Cell.defined

/-- The cells that the decryption of a text leaves. -/
def decryptedCells (mbedtls : Mbedtls) (stack : Stack) (aesKey : List UInt8) (text : CString) :
    List Cell :=
  filledCells stack .decServerChallengeResponse 128
    (cryptData (mbedtls.aesCryptEcb .decrypt aesKey)
      (blockCount ((hexToBytes text 128).2.getD stack.challengeRespLen))
      (bytes (filledCells stack .encServerChallengeResponse 128 (hexToBytes text 128).1))).1

theorem decryptMarks_defined_iff (stack : Stack) (text : CString) :
    AllDefined (decryptMarks stack text) ↔
      Decodes text 128 ∧ 16 ∣ min 128 (text.length / 2) := by
  unfold decryptMarks
  rw [allDefined_append]
  by_cases decodes : Decodes text 128
  · obtain ⟨len, count⟩ := hexToBytes_decodes decodes
    rw [len, Option.getD_some]
    have set : AllDefined [(some (min 128 (text.length / 2))).isSome] := by
      intro mark member
      exact List.mem_singleton.mp member
    rw [and_iff_right set, and_iff_right decodes]
    by_cases none : min 128 (text.length / 2) = 0
    · rw [none]
      exact iff_of_true allDefined_nil (Nat.dvd_zero 16)
    · have fits : 0 + 16 * blockCount (min 128 (text.length / 2)) ≤ 128 := by
        unfold blockCount
        omega
      have segment := segment_defined_iff stack .encServerChallengeResponse
        (hexToBytes text 128).1 fits (by unfold blockCount; omega)
      rw [List.drop_zero] at segment
      rw [segment, count]
      unfold blockCount
      omega
  · rw [(hexToBytes_refuses decodes).1]
    refine iff_of_false (fun both => ?_) fun both => decodes both.1
    exact Bool.false_ne_true (both.1 false (List.mem_singleton.mpr rfl))

theorem hash_length (algo : HashAlgo) : algo.length = 20 ∨ algo.length = 32 := by
  cases algo with
  | sha1 => exact .inl rfl
  | sha256 => exact .inr rfl

/-- How much of the decrypted response the hash and the challenge take. -/
theorem usableResponse_iff (algo : HashAlgo) (text : CString) :
    UsableResponse text ↔ (Decodes text 128 ∧ 16 ∣ min 128 (text.length / 2)) ∧
      algo.length + 16 ≤ 16 * blockCount (min 128 (text.length / 2)) := by
  have hash := hash_length algo
  unfold blockCount
  constructor
  · rintro ⟨decodes, blocks, long⟩
    have even := decodes.even
    exact ⟨⟨decodes, by omega⟩, by omega⟩
  · rintro ⟨⟨decodes, blocks⟩, enough⟩
    have even := decodes.even
    exact ⟨decodes, by omega, by omega⟩

theorem decryptedCells_written (mbedtls : WorkingMbedtls) (stack : Stack) (aesKey : List UInt8)
    {text : CString} (decodes : Decodes text 128) :
    ∃ written : List UInt8, written.length = 16 * blockCount (min 128 (text.length / 2)) ∧
      decryptedCells mbedtls.toMbedtls stack aesKey text =
        filledCells stack .decServerChallengeResponse 128 written := by
  have room : 16 * blockCount (min 128 (text.length / 2)) ≤
      (bytes (filledCells stack .encServerChallengeResponse 128
        (hexToBytes text 128).1)).length := by
    rw [bytes_filledCells, filled_length]
    unfold blockCount
    omega
  refine ⟨_, (cryptData_whole mbedtls .decrypt aesKey _ _ room).1, ?_⟩
  unfold decryptedCells
  rw [(hexToBytes_decodes decodes).1, Option.getD_some]

/-- The marks up to the hash of the challenge response. -/
theorem response_defined_iff (mbedtls : WorkingMbedtls) (stack : Stack) (algo : HashAlgo)
    (aesKey sig clientSecret : List UInt8) (text : CString) :
    AllDefined (decryptMarks stack text ++ (challengeResponseCells stack .clientCertSignature
      (((decryptedCells mbedtls.toMbedtls stack aesKey text).drop algo.length).take 16) sig
      (stored clientSecret)).map Cell.defined) ↔ UsableResponse text ∧ 256 ≤ sig.length := by
  rw [allDefined_append, decryptMarks_defined_iff, challengeResponseCells_defined_iff,
    and_iff_left (allDefined_stored clientSecret), ← and_assoc]
  apply and_congr_left
  intro _
  rw [usableResponse_iff algo text]
  apply and_congr_right
  intro whole
  obtain ⟨written, count, same⟩ := decryptedCells_written mbedtls stack aesKey whole.1
  have hash := hash_length algo
  have fits : algo.length + 16 ≤ 128 := by omega
  rw [same, segment_defined_iff stack _ written fits (by omega), count]

/-- The hash that is compared lies in what has been decrypted. -/
theorem compared_defined (mbedtls : WorkingMbedtls) (stack : Stack) (algo : HashAlgo)
    (aesKey : List UInt8) {text : CString} (usable : UsableResponse text) :
    AllDefined (((decryptedCells mbedtls.toMbedtls stack aesKey text).take algo.length).map
      Cell.defined) := by
  obtain ⟨whole, enough⟩ := (usableResponse_iff algo text).mp usable
  obtain ⟨written, count, same⟩ := decryptedCells_written mbedtls stack aesKey whole.1
  have hash := hash_length algo
  have fits : 0 + algo.length ≤ 128 := by omega
  have positive : 0 < algo.length := by omega
  have segment := segment_defined_iff stack .decServerChallengeResponse written fits positive
  rw [List.drop_zero] at segment
  rw [same, segment, count]
  omega

theorem secret_defined_iff (stack : Stack) (text : CString) :
    AllDefined ((filledCells stack .pairingSecret 272 (hexToBytes text 272).1).map Cell.defined) ↔
      UsableSecret text := by
  rw [filledCells_defined_iff stack .pairingSecret _ (by omega)]
  by_cases decodes : Decodes text 272
  · rw [(hexToBytes_decodes decodes).2]
    have even := decodes.even
    constructor
    · intro enough
      exact ⟨decodes, by omega⟩
    · intro usable
      have long := usable.long
      omega
  · have short := (hexToBytes_refuses decodes).2 (by omega)
    exact iff_of_false (Nat.not_le.mpr short) fun usable => decodes usable.decodes

/-! ## The stages -/

/-- What the client checks with the certificate of the host. -/
def Signed (mbedtls : Mbedtls) (cert : Certificate) (secret : CString) : Prop :=
  verifySignature mbedtls ((hexToBytes secret 272).1.take 16) ((hexToBytes secret 272).1.drop 16)
    cert = true

def UsableSecrets (world : World) (mbedtls : Mbedtls) (number : Nat) (cert : Certificate) : Prop :=
  ∀ secret, AnswersWith world number "pairingsecret" secret →
    UsableSecret secret ∧ (Signed mbedtls cert secret → 256 ≤ cert.sig.length)

def UsableTexts (world : World) (mbedtls : Mbedtls) (client : Client) (number : Nat)
    (cert : Certificate) : Prop :=
  ∀ response, AnswersWith world number "challengeresponse" response →
    (UsableResponse response ∧ 256 ≤ client.certSig.length) ∧
      UsableSecrets world mbedtls (number + 1) cert

/-- All uses so far were defined exactly where the goal holds. -/
def Exact (goal : Prop) (traced : Traced Call Bool) : Prop := AllDefined traced.marks ↔ goal

/-- However the program ends, its marks say whether the goal holds. -/
def Settles (pre : Traced Call Bool → Prop) (program : UseM PUnit) (goal : Prop) : Prop :=
  Ensures pre program (fun _ => Exact goal) (fun _ => Exact goal)

section Stages

variable {call : Call} {requests draws : Nat} {marks : List Bool} {goal : Prop}

/-- A plain program at the end changes nothing. -/
theorem settles_lift (program : GsM PUnit) : Settles (Exact goal) (lift program) goal := by
  intro start exact_iff
  unfold lift
  cases program start.state with
  | ok value after => exact exact_iff
  | error exit after => exact exact_iff

theorem settles_fail {pre : Call → Prop} (code : Int) (text : String)
    (exact_iff : AllDefined marks ↔ goal) :
    Settles (At marks pre) (lift (fail code text)) goal := by
  intro start here
  apply settles_lift (fail code text) start
  unfold Exact
  rw [here.2]
  exact exact_iff

/-- Nor does a use of bytes that are all stored. -/
theorem settles_use_stored (plain : List UInt8) (program : GsM PUnit) :
    Settles (Exact goal) (use (stored plain) >>= fun _ => lift program) goal := by
  intro start exact_iff
  apply settles_lift program { start with marks := start.marks ++ (stored plain).map Cell.defined }
  unfold Exact
  rw [allDefined_append, and_iff_left (allDefined_stored plain)]
  exact exact_iff

variable (world : World) (mbedtls : WorkingMbedtls) (stack : Stack) (client : Client)

/-- One request of stage 2 or 3, up to the text that the program reads from it. -/
theorem requestText_ensures {β : Type} (params : CString) (stage node : String)
    {next : CString → UseM β} {done : β → Traced Call Bool → Prop}
    {left : Int → Traced Call Bool → Prop}
    (absent : (¬ ∃ text, AnswersWith world (call.sent.length + requests) node text) →
      ∀ exit after, left exit ⟨after, marks⟩)
    (carried : ∀ text, AnswersWith world (call.sent.length + requests) node text →
      Ensures (At marks (Position call (requests + 1) draws)) (next text) done left) :
    Ensures (At marks (Position call requests draws))
      (do
        let url ← lift (pairUrl world client false params)
        let document ← lift (confirmStage world stage url)
        let text ← lift (searchOrInvalid document node)
        next text) done left := by
  apply ensures_lift_bind (buildUrl_keeps world client 5120 false "pair" _)
  · exact fun _ _ never => never
  intro url
  apply ensures_lift_bind (confirmStage_splits world stage url)
  · intro exit after unanswered
    apply absent
    rintro ⟨_, document, paired, -⟩
    exact unanswered ⟨document, paired⟩
  intro document
  apply ensures_at_fact
  intro paired
  apply ensures_lift_bind (searchOrInvalid_splits document node)
  · intro exit after missing
    apply absent
    rintro ⟨text, carries⟩
    exact missing ⟨text, (carries.read paired.1).2⟩
  intro text
  apply ensures_at_fact
  intro found
  exact carried text ⟨document, paired, found⟩

/-- A secret that is decoded in full leaves no stale byte in its buffer. -/
theorem bytes_usableSecret {secret : CString} (usable : UsableSecret secret) :
    bytes (filledCells stack .pairingSecret 272 (hexToBytes secret 272).1) =
      (hexToBytes secret 272).1 := by
  have long := usable.long
  have whole : (hexToBytes secret 272).1.length = 272 := by
    rw [(hexToBytes_decodes usable.decodes).2]
    omega
  rw [bytes_filledCells]
  apply List.ext_getElem
  · rw [filled_length, whole]
  · intro index _ inside
    simp [filled, List.getElem?_eq_getElem inside]

theorem checkPairingSecretCells_settles (pre : Call → Prop) {known : Prop} (algo : HashAlgo)
    (cert : Certificate) (randomChallenge : List UInt8) (decrypted : List Cell) (secret : CString)
    (before : AllDefined marks ↔ known)
    (compared : known → AllDefined ((decrypted.take algo.length).map Cell.defined)) :
    Settles (At marks pre)
      (checkPairingSecretCells mbedtls.toMbedtls stack algo cert randomChallenge decrypted
        (filledCells stack .pairingSecret 272 (hexToBytes secret 272).1))
      (known ∧ UsableSecret secret ∧
        (Signed mbedtls.toMbedtls cert secret → 256 ≤ cert.sig.length)) := by
  have secretCells := secret_defined_iff stack secret
  have decodedBytes := @bytes_usableSecret stack secret
  generalize filledCells stack .pairingSecret 272 (hexToBytes secret 272).1 = cells at *
  have verified_iff (usable : UsableSecret secret) :
      verifySignature mbedtls.toMbedtls (bytes (cells.take 16)) (bytes (cells.drop 16)) cert =
        true ↔ Signed mbedtls.toMbedtls cert secret := by
    unfold Signed
    rw [bytes_take, bytes_drop, decodedBytes usable]
  have verifies : AllDefined (marks ++ (cells.take 16 ++ cells.drop 16).map Cell.defined) ↔
      known ∧ UsableSecret secret := by
    rw [List.take_append_drop, allDefined_append, before, secretCells]
  apply ensures_note_bind
  apply ensures_ite
  · intro unsigned
    apply settles_fail
    rw [verifies]
    apply and_congr_right
    intro _
    constructor
    · intro usable
      refine ⟨usable, fun signed => ?_⟩
      rw [(verified_iff usable).mpr signed] at unsigned
      cases unsigned
    · exact fun both => both.1
  · intro signed
    have signed := Bool.not_eq_false _ ▸ signed
    have secretDefined (usable : UsableSecret secret) :
        AllDefined ((cells.take 16).map Cell.defined) := by
      have whole := secretCells.mpr usable
      rw [← List.take_append_drop 16 cells, List.map_append, allDefined_append] at whole
      exact whole.1
    have checks : AllDefined ((marks ++ (cells.take 16 ++ cells.drop 16).map Cell.defined) ++
        (challengeResponseCells stack .serverCertSignature (stored randomChallenge) cert.sig
          (cells.take 16) ++ decrypted.take algo.length).map Cell.defined) ↔
        known ∧ UsableSecret secret ∧
          (Signed mbedtls.toMbedtls cert secret → 256 ≤ cert.sig.length) := by
      rw [← and_assoc, allDefined_append, verifies, List.map_append, allDefined_append,
        challengeResponseCells_defined_iff, and_iff_right (allDefined_stored randomChallenge)]
      apply and_congr_right
      intro both
      rw [and_iff_left (secretDefined both.2), and_iff_left (compared both.1)]
      exact ⟨fun long _ => long, fun needed => needed ((verified_iff both.2).mp signed)⟩
    apply ensures_note_bind
    apply ensures_ite
    · intro _
      exact settles_fail _ _ checks
    · intro _
      apply ensures_pure
      intro traced here
      unfold Exact
      rw [here.2]
      exact checks

/-- Stage 3 and the checks after it, for the text of stage 2. -/
theorem afterResponse_settles {algo : HashAlgo} {aesKey randomChallenge : List UInt8}
    {cert : Certificate} {response : CString}
    (carries : AnswersWith world (call.sent.length + 1) "challengeresponse" response) :
    Settles (At (decryptMarks stack response) (Position call 2 2))
      (do
        let clientSecret ← lift (drbgRandom world 16)
        let pairingSecret ← sendChallengeResponseCells world mbedtls.toMbedtls stack client algo
          aesKey (decryptedCells mbedtls.toMbedtls stack aesKey response) clientSecret
        checkPairingSecretCells mbedtls.toMbedtls stack algo cert randomChallenge
          (decryptedCells mbedtls.toMbedtls stack aesKey response) pairingSecret
        use (stored clientSecret)
        lift (sendClientSecret world mbedtls.toMbedtls stack client clientSecret))
      (UsableTexts world mbedtls.toMbedtls client (call.sent.length + 1) cert) := by
  have known : UsableTexts world mbedtls.toMbedtls client (call.sent.length + 1) cert ↔
      (UsableResponse response ∧ 256 ≤ client.certSig.length) ∧
        UsableSecrets world mbedtls.toMbedtls (call.sent.length + 2) cert := by
    constructor
    · exact fun usable => usable response carries
    · intro both other again
      rw [again.unique carries]
      exact both
  apply ensures_lift_bind (drbgRandom_position world)
  · exact fun _ _ never => never
  intro clientSecret
  apply ensures_at_fact
  intro _
  have responds := response_defined_iff mbedtls stack algo aesKey client.certSig clientSecret
    response
  apply ensures_bind (fun pairingSecret after => ∃ secret,
    (AnswersWith world (call.sent.length + 2) "pairingsecret" secret ∧
      pairingSecret = filledCells stack .pairingSecret 272 (hexToBytes secret 272).1) ∧
    At (decryptMarks stack response ++ (challengeResponseCells stack .clientCertSignature
      (((decryptedCells mbedtls.toMbedtls stack aesKey response).drop algo.length).take 16)
      client.certSig (stored clientSecret)).map Cell.defined) (Position call 3 3) after)
  · apply ensures_note_bind
    apply requestText_ensures
    · intro absent _ _
      unfold Exact
      rw [known, responds]
      exact (and_iff_left fun secret answers => absurd ⟨secret, answers⟩ absent).symm
    · intro secret answers
      apply ensures_pure
      exact fun _ here => ⟨secret, ⟨answers, rfl⟩, here⟩
  · intro pairingSecret start reached
    obtain ⟨secret, ⟨answers, same⟩, here⟩ := reached
    subst same
    have secrets : UsableSecrets world mbedtls.toMbedtls (call.sent.length + 2) cert ↔
        UsableSecret secret ∧
          (Signed mbedtls.toMbedtls cert secret → 256 ≤ cert.sig.length) := by
      constructor
      · exact fun usable => usable secret answers
      · intro both other again
        rw [again.unique answers]
        exact both
    rw [known, secrets]
    have checked := checkPairingSecretCells_settles mbedtls stack (Position call 3 3) algo cert
      randomChallenge (decryptedCells mbedtls.toMbedtls stack aesKey response) secret responds
      fun usable => compared_defined mbedtls stack algo aesKey usable.1
    apply ensures_bind _ checked _ start here
    intro _
    exact settles_use_stored clientSecret _

theorem exchangeSecretsCells_settles (algo : HashAlgo) (aesKey : List UInt8) (cert : Certificate) :
    Settles (At [] (Position call 1 1))
      (exchangeSecretsCells world mbedtls.toMbedtls stack client algo aesKey cert)
      (UsableTexts world mbedtls.toMbedtls client (call.sent.length + 1) cert) := by
  apply ensures_lift_bind (drbgRandom_position world)
  · exact fun _ _ never => never
  intro randomChallenge
  apply ensures_at_fact
  intro drawn
  have whole : 16 * 1 ≤ randomChallenge.length := by
    rw [drawn]
    simp [randomBytes]
  have encrypts := (cryptData_whole mbedtls .encrypt aesKey 1 randomChallenge whole).2
  apply ensures_bind (fun decrypted after => ∃ response,
    (AnswersWith world (call.sent.length + 1) "challengeresponse" response ∧
      decrypted = decryptedCells mbedtls.toMbedtls stack aesKey response) ∧
    At (decryptMarks stack response) (Position call 2 2) after)
  · unfold sendClientChallengeCells
    dsimp only
    rw [if_neg fun failed => Bool.false_ne_true (failed.symm.trans encrypts)]
    apply requestText_ensures
    · intro absent _ _
      apply iff_of_true
      · exact allDefined_nil
      · exact fun response answers => absurd ⟨response, answers⟩ absent
    · intro response answers
      apply ensures_note_bind
      apply ensures_note_bind
      apply ensures_pure
      exact fun _ here => ⟨response, ⟨answers, rfl⟩, here⟩
  · intro decrypted start reached
    obtain ⟨response, ⟨answers, same⟩, here⟩ := reached
    subst same
    exact afterResponse_settles world mbedtls stack client answers start here

end Stages

/-! ## The whole call -/

/-- Whatever certificate the host starts with, the texts that it sends afterwards can be
used, and so can the signatures of the two certificates. -/
def HostTextsUsable (world : World) (mbedtls : Mbedtls) (client : Client) (call : Call) : Prop :=
  world.seed.code = 0 → call.server.paired = false →
    ∀ cert, StartsWith world mbedtls call call.sent.length cert →
      UsableTexts world mbedtls client (call.sent.length + 1) cert

section Call

variable (world : World) (mbedtls : WorkingMbedtls) (stack : Stack) (client : Client)
  (pin : List UInt8)

theorem pairBodyCells_settles (call : Call) :
    Settles (At [] fun state => state = call)
      (pairBodyCells world mbedtls.toMbedtls stack client pin)
      (HostTextsUsable world mbedtls.toMbedtls client call) := by
  have unused (usable : HostTextsUsable world mbedtls.toMbedtls client call) :
      AllDefined [] ↔ HostTextsUsable world mbedtls.toMbedtls client call :=
    iff_of_true allDefined_nil usable
  have seeds : Ensures (fun state => state = call) (drbgSeed world)
      (fun _ state => world.seed.code = 0 ∧ state = call) fun _ _ => world.seed.code ≠ 0 := by
    apply ensures_ite
    · exact fun seeded => ensures_pure _ fun _ same => ⟨seeded, same⟩
    · exact fun failed => ensures_throw _ fun _ _ => failed
  apply ensures_lift_bind seeds
  · intro _ _ failed
    exact unused fun seeded => absurd seeded failed
  intro _
  apply ensures_at_fact
  intro seeded
  have reads : Ensures (fun state => state = call) (get : GsM Call)
      (fun read state => read = call ∧ state = call) fun _ _ => False :=
    ensures_get fun _ same => ⟨same, same⟩
  apply ensures_lift_bind reads
  · exact fun _ _ never => never.elim
  intro read
  apply ensures_at_fact
  intro same
  subst same
  apply ensures_ite
  · intro paired
    apply settles_fail
    apply unused
    intro _ unpaired
    rw [paired] at unpaired
    cases unpaired
  intro notPaired
  have unpaired : read.server.paired = false := Bool.not_eq_true _ ▸ notPaired
  apply ensures_lift_bind (firstDraw world)
  · exact fun _ _ never => never
  intro salt
  apply ensures_at_fact
  intro _
  apply ensures_lift_bind (getServerCert_splits world mbedtls.toMbedtls client salt)
  · intro _ _ absent
    exact unused fun _ _ cert started => absurd ⟨cert, started⟩ absent
  intro cert
  apply ensures_at_fact
  intro started
  have goal_iff : HostTextsUsable world mbedtls.toMbedtls client read ↔
      UsableTexts world mbedtls.toMbedtls client (read.sent.length + 1) cert := by
    constructor
    · exact fun usable => usable seeded unpaired cert started
    · intro usable _ _ other again
      rw [again.2.unique started.2]
      exact usable
  rw [goal_iff]
  apply ensures_bind _ (exchangeSecretsCells_settles world mbedtls stack client _ _ cert)
  intro _
  exact settles_lift _

/-- Every byte that `gs_pair` decrypts, hashes, verifies or compares is defined exactly
when the texts of the host can be used. -/
theorem pair_uses_defined_iff (call : Call) :
    AllDefined (pairUses world mbedtls.toMbedtls stack client pin call) ↔
      HostTextsUsable world mbedtls.toMbedtls client call := by
  have settled := pairBodyCells_settles world mbedtls stack client pin call ⟨call, []⟩ ⟨rfl, rfl⟩
  unfold pairUses
  cases ran : pairBodyCells world mbedtls.toMbedtls stack client pin ⟨call, []⟩ with
  | ok value after =>
      rw [ran] at settled
      exact settled
  | error ret after =>
      rw [ran] at settled
      exact settled

end Call

/-! ## A host with an odd text -/

def copyingMbedtls : WorkingMbedtls where
  toMbedtls := acceptingMbedtls
  aesCryptEcb_works := fun _ _ block whole => ⟨block, rfl, whole⟩

/-- Three digits in `challengeresponse`. -/
def oddHost : World :=
  constantHost
    { events :=
        .startElement "root".toList [("status_code".toList, "200".toList)] ::
          (element "paired" "1".toList ++ element "plaincert" "30820100".toList ++
            element "challengeresponse" "000".toList ++ [.endElement "root".toList])
      error := none }

theorem odd_response_uses_undefined :
    ¬ ∀ (world : World) (mbedtls : WorkingMbedtls) (stack : Stack) (client : Client)
      (pin : List UInt8) (call : Call),
      AllDefined (pairUses world mbedtls.toMbedtls stack client pin call) := by
  intro always
  have defined := always oddHost copyingMbedtls ⟨fun _ _ => 255, 64⟩
    ⟨"0123456789ABCDEF".toList, [], List.replicate 256 7⟩ [49, 50, 51, 52] (freshCall false)
  have unset : false ∈ pairUses oddHost copyingMbedtls.toMbedtls ⟨fun _ _ => 255, 64⟩
      ⟨"0123456789ABCDEF".toList, [], List.replicate 256 7⟩ [49, 50, 51, 52]
      (freshCall false) := by
    decide
  exact Bool.false_ne_true (defined false unset)

end MoonlightWii.Gamestream.DefinedBytes
