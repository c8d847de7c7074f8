import MoonlightWii.Foundation.BufferedStream
import MoonlightWii.Foundation.EarlyExit
import MoonlightWii.Gamestream.Errors

/-!
# A new key and certificate (`mkcert.c`)

`mkcert_generate` writes `key.pem` before the certificate exists, and it does not
look at what `fwrite` and `fflush` return.  Which step of a call fails, and how
much of each text is stored, is given from outside.
-/

set_option autoImplicit false

namespace MoonlightWii.Gamestream.Mkcert

open Foundation.BufferedStream
open Foundation.EarlyExit
open MoonlightWii.Gamestream.Errors

/-! ## The key directory -/

/-- The pair of key and certificate that a text was made for. -/
inductive Pair where
  | previous
  | generated
  deriving DecidableEq

structure PemFile where
  pair : Pair
  text : List UInt8
  deriving DecidableEq

/-- `uniqueid.dat`, `client.pem` and `key.pem`, where they exist. -/
structure KeyFiles where
  uniqueId : Option (List UInt8)
  clientPem : Option PemFile
  keyPem : Option PemFile
  deriving DecidableEq

def KeyFiles.storeId (files : KeyFiles) (bytes : List UInt8) : KeyFiles :=
  { files with uniqueId := some bytes }

def KeyFiles.storeCert (files : KeyFiles) (file : PemFile) : KeyFiles :=
  { files with clientPem := some file }

def KeyFiles.storeKey (files : KeyFiles) (file : PemFile) : KeyFiles :=
  { files with keyPem := some file }

structure Disk where
  files : KeyFiles
  lastError : Option GsError

/-- Code that works on the key directory and leaves with the value of `ret`. -/
abbrev DiskM := EStateM Int Disk

/-- `return gs_set_error(code, text)`. -/
def fail {α : Type} (code : Int) (text : CString) : DiskM α := do
  modify fun disk => { disk with lastError := some (gsSetError code text) }
  throw code

/-! ## The steps of one call -/

/-- What becomes of a file that is opened for writing. -/
structure FileSteps where
  opens : Bool
  /-- The bytes that `fwrite` takes. -/
  accepted : Nat
  /-- The bytes that `fflush` hands on. -/
  flushed : Nat
  /-- The bytes that `fclose` hands on. -/
  closed : Nat

/-- A PEM text that mbedtls leaves in `buf` when `ret` is 0. -/
structure Encoded where
  ret : Int
  text : List UInt8

structure Steps where
  seed : Int
  pkSetup : Int
  rsaGenKey : Int
  setValidity : Int
  keyPem : Encoded
  keyFile : FileSteps
  certPem : Encoded
  certFile : FileSteps

/-- `%04x` of `(unsigned int) -ret`. -/
def hex4 (ret : Int) : CString :=
  (Nat.toDigits 16 (-ret % 4294967296).toNat).leftpad 4 '0'

/-- `if (ret != 0)`, with `mbedtls_strerror` into 512 bytes. -/
def checkMbedtls (strerror : Int → CString) (function : String) (ret : Int) : DiskM PUnit :=
  if ret ≠ 0 then
    fail gsFailed (function.toList ++ " returned -0x".toList ++ hex4 ret ++ " - ".toList ++
      snprintf 512 (strerror ret))
  else
    pure ⟨⟩

/-- `fopen`, `fwrite`, `fflush` and `fclose` of one of the two files. -/
def writePem (store : KeyFiles → PemFile → KeyFiles) (which : String) (path : CString)
    (steps : FileSteps) (text : List UInt8) : DiskM PUnit :=
  if steps.opens then
    modify fun disk =>
      { disk with
        files := store disk.files
          ⟨.generated, leaves steps.accepted [steps.flushed, steps.closed] text⟩ }
  else
    fail gsIoError ("Failed to open ".toList ++ which.toList ++ " ".toList ++ path ++
      " for writing".toList)

def mkcertGenerateImpl (strerror : Int → CString) (steps : Steps) : DiskM PUnit := do
  checkMbedtls strerror "mbedtls_pk_setup" steps.pkSetup
  checkMbedtls strerror "mbedtls_rsa_gen_key" steps.rsaGenKey
  checkMbedtls strerror "mbedtls_x509write_crt_set_validity" steps.setValidity

/-- `mkcert_generate` up to its label `finally`. -/
def mkcertBody (strerror : Int → CString) (certFile keyFile : CString) (steps : Steps) :
    DiskM PUnit := do
  checkMbedtls strerror "mbedtls_ctr_drbg_seed" steps.seed
  mkcertGenerateImpl strerror steps
  checkMbedtls strerror "mbedtls_pk_write_key_pem" steps.keyPem.ret
  writePem KeyFiles.storeKey "keyFile" keyFile steps.keyFile steps.keyPem.text
  checkMbedtls strerror "mbedtls_x509write_crt_pem" steps.certPem.ret
  writePem KeyFiles.storeCert "certFile" certFile steps.certFile steps.certPem.text

def mkcertGenerate (strerror : Int → CString) (certFile keyFile : CString) (steps : Steps)
    (disk : Disk) : Int × Disk :=
  match mkcertBody strerror certFile keyFile steps disk with
  | .ok _ after => (gsOk, after)
  | .error ret after => (ret, after)

/-! ## How far a call comes -/

def KeyFileOpened (steps : Steps) : Prop :=
  steps.seed = 0 ∧ steps.pkSetup = 0 ∧ steps.rsaGenKey = 0 ∧ steps.setValidity = 0 ∧
    steps.keyPem.ret = 0 ∧ steps.keyFile.opens = true

def CertFileOpened (steps : Steps) : Prop :=
  KeyFileOpened steps ∧ steps.certPem.ret = 0 ∧ steps.certFile.opens = true

/-- The file that a call leaves where it opens one. -/
def written (steps : FileSteps) (text : List UInt8) : PemFile :=
  ⟨.generated, leaves steps.accepted [steps.flushed, steps.closed] text⟩

/-- A call that opened both files. -/
structure Finished (steps : Steps) (before after : KeyFiles) : Prop where
  opened : CertFileOpened steps
  files : after = (before.storeKey (written steps.keyFile steps.keyPem.text)).storeCert
    (written steps.certFile steps.certPem.text)

/-- A call that left earlier, after it had written `key.pem` or before. -/
structure Stopped (steps : Steps) (before after : KeyFiles) : Prop where
  early : ¬ CertFileOpened steps
  untouched : ¬ KeyFileOpened steps → after = before
  keyOnly : KeyFileOpened steps →
    after = before.storeKey (written steps.keyFile steps.keyPem.text)

section Run

variable {files : KeyFiles} {left : Int → Disk → Prop}

theorem fail_ensures {α : Type} {code : Int} (text : CString) {done : α → Disk → Prop}
    (stops : ∀ disk, disk.files = files → left code disk) :
    Ensures (fun disk => disk.files = files) (fail code text : DiskM α) done left :=
  fun _ same => stops _ same

theorem checkMbedtls_ensures (strerror : Int → CString) (function : String) (ret : Int)
    (stops : ret ≠ 0 → ∀ disk, disk.files = files → left gsFailed disk) :
    Ensures (fun disk => disk.files = files) (checkMbedtls strerror function ret)
      (fun _ disk => ret = 0 ∧ disk.files = files) left := by
  apply ensures_ite
  · intro failed
    exact fail_ensures _ (stops failed)
  · intro passed
    exact ensures_pure _ fun _ same => ⟨Classical.not_not.mp passed, same⟩

theorem writePem_ensures (store : KeyFiles → PemFile → KeyFiles) (which : String)
    (path : CString) (steps : FileSteps) (text : List UInt8)
    (stops : steps.opens ≠ true → ∀ disk, disk.files = files → left gsIoError disk) :
    Ensures (fun disk => disk.files = files) (writePem store which path steps text)
      (fun _ disk => steps.opens = true ∧ disk.files = store files (written steps text)) left := by
  apply ensures_ite
  · intro opens
    apply ensures_modify
    intro disk same
    rw [← same]
    exact ⟨opens, rfl⟩
  · intro closed
    exact fail_ensures _ (stops closed)

variable {before : KeyFiles} {steps : Steps}

/-- What holds wherever a call leaves early. -/
def Leaves (steps : Steps) (before : KeyFiles) (ret : Int) (after : Disk) : Prop :=
  ret ≠ gsOk ∧ Stopped steps before after.files

theorem stopped_untouched (unopened : ¬ KeyFileOpened steps) (ret : Int) (nonzero : ret ≠ gsOk)
    (disk : Disk) (same : disk.files = before) : Leaves steps before ret disk :=
  ⟨nonzero, fun opened => unopened opened.1, fun _ => same, fun opened => absurd opened unopened⟩

theorem stopped_keyOnly (opened : KeyFileOpened steps) (early : ¬ CertFileOpened steps)
    (ret : Int) (nonzero : ret ≠ gsOk) (disk : Disk)
    (same : disk.files = before.storeKey (written steps.keyFile steps.keyPem.text)) :
    Leaves steps before ret disk :=
  ⟨nonzero, early, fun unopened => absurd opened unopened, fun _ => same⟩

theorem gsFailed_ne_gsOk : gsFailed ≠ gsOk := Int.negSucc_ne_zero 0

theorem gsIoError_ne_gsOk : gsIoError ≠ gsOk := Int.negSucc_ne_zero 4

theorem mkcertGenerateImpl_ensures (strerror : Int → CString) :
    Ensures (fun disk => disk.files = before) (mkcertGenerateImpl strerror steps)
      (fun _ disk => (steps.pkSetup = 0 ∧ steps.rsaGenKey = 0 ∧ steps.setValidity = 0) ∧
        disk.files = before)
      (Leaves steps before) := by
  have untouched := @stopped_untouched before steps
  apply ensures_bind _ (checkMbedtls_ensures _ _ _ fun failed =>
    untouched (fun opened => failed opened.2.1) _ gsFailed_ne_gsOk)
  intro _
  apply ensures_fact
  intro setup
  apply ensures_bind _ (checkMbedtls_ensures _ _ _ fun failed =>
    untouched (fun opened => failed opened.2.2.1) _ gsFailed_ne_gsOk)
  intro _
  apply ensures_fact
  intro keyed
  have last : Ensures _ _ _ (Leaves steps before) :=
    checkMbedtls_ensures strerror "mbedtls_x509write_crt_set_validity" steps.setValidity
      fun failed => untouched (fun opened => failed opened.2.2.2.1) _ gsFailed_ne_gsOk
  apply ensures_weaken last
  · exact fun _ same => same
  · exact fun _ _ passed => ⟨⟨setup, keyed, passed.1⟩, passed.2⟩
  · exact fun _ _ stopped => stopped

/-- The steps in the order of the code; each failure says why the next file is not
opened. -/
theorem mkcertBody_ensures (strerror : Int → CString) (certFile keyFile : CString) :
    Ensures (fun disk => disk.files = before) (mkcertBody strerror certFile keyFile steps)
      (fun _ after => Finished steps before after.files)
      (Leaves steps before) := by
  have untouched := @stopped_untouched before steps
  apply ensures_bind _ (checkMbedtls_ensures _ _ _ fun failed =>
    untouched (fun opened => failed opened.1) _ gsFailed_ne_gsOk)
  intro _
  apply ensures_fact
  intro seeded
  apply ensures_bind _ (mkcertGenerateImpl_ensures strerror)
  intro _
  apply ensures_fact
  intro made
  apply ensures_bind _ (checkMbedtls_ensures _ _ _ fun failed =>
    untouched (fun opened => failed opened.2.2.2.2.1) _ gsFailed_ne_gsOk)
  intro _
  apply ensures_fact
  intro encoded
  apply ensures_bind _ (writePem_ensures _ _ _ _ _ fun closed =>
    untouched (fun opened => closed opened.2.2.2.2.2) _ gsIoError_ne_gsOk)
  intro _
  apply ensures_fact
  intro opens
  have opened : KeyFileOpened steps := ⟨seeded, made.1, made.2.1, made.2.2, encoded, opens⟩
  have keyOnly := @stopped_keyOnly before steps opened
  apply ensures_bind _ (checkMbedtls_ensures _ _ _ fun failed =>
    keyOnly (fun both => failed both.2.1) _ gsFailed_ne_gsOk)
  intro _
  apply ensures_fact
  intro certEncoded
  have last : Ensures _ _ _ (Leaves steps before) :=
    writePem_ensures KeyFiles.storeCert "certFile" certFile steps.certFile steps.certPem.text
      fun closed => keyOnly (fun both => closed both.2.2) _ gsIoError_ne_gsOk
  apply ensures_weaken last
  · exact fun _ same => same
  · exact fun _ _ stored => ⟨⟨opened, certEncoded, stored.1⟩, stored.2⟩
  · exact fun _ _ stopped => stopped

/-- What a call leaves behind, and whether its code says so. -/
theorem mkcertGenerate_spec (steps : Steps) (strerror : Int → CString) (certFile keyFile : CString)
    (disk : Disk) (same : disk.files = before) :
    let ran := mkcertGenerate strerror certFile keyFile steps disk
    (ran.1 = gsOk ∧ Finished steps before ran.2.files) ∨
      (ran.1 ≠ gsOk ∧ Stopped steps before ran.2.files) := by
  have body := @mkcertBody_ensures before steps strerror certFile keyFile disk same
  unfold mkcertGenerate
  cases ran : mkcertBody strerror certFile keyFile steps disk with
  | ok value after =>
      rw [ran] at body
      exact .inl ⟨rfl, body⟩
  | error ret after =>
      rw [ran] at body
      exact .inr body

end Run

/-! ## Both files or none -/

/-- Both files hold the complete texts of the new pair. -/
def HoldsNewPair (steps : Steps) (files : KeyFiles) : Prop :=
  files.keyPem = some ⟨.generated, steps.keyPem.text⟩ ∧
    files.clientPem = some ⟨.generated, steps.certPem.text⟩

def OfOnePair (files : KeyFiles) : Prop :=
  ∀ key cert, files.keyPem = some key → files.clientPem = some cert → key.pair = cert.pair

structure KeepsPairs (steps : Steps) (before : KeyFiles) (ret : Int) (after : KeyFiles) :
    Prop where
  zero : ret = 0 → HoldsNewPair steps after
  nonzero : ret ≠ 0 → after = before
  onePair : OfOnePair after

/-- A directory with a key and its certificate. -/
def holdingPair (uniqueId : Option (List UInt8)) (cert key : List UInt8) : KeyFiles :=
  ⟨uniqueId, some ⟨.previous, cert⟩, some ⟨.previous, key⟩⟩

def FileSteps.StoresAll (steps : FileSteps) (text : List UInt8) : Prop :=
  text.length ≤ steps.accepted ∧ text.length ≤ steps.flushed + steps.closed

/-- Once `key.pem` has been opened, nothing fails any more. -/
def NothingFailsOnceOpened (steps : Steps) : Prop :=
  KeyFileOpened steps →
    steps.keyFile.StoresAll steps.keyPem.text ∧ steps.certPem.ret = 0 ∧
      steps.certFile.opens = true ∧ steps.certFile.StoresAll steps.certPem.text

theorem written_complete_iff (steps : FileSteps) (text : List UInt8) :
    written steps text = ⟨.generated, text⟩ ↔ steps.StoresAll text := by
  unfold written FileSteps.StoresAll
  rw [PemFile.mk.injEq, leaves_all_iff]
  exact and_iff_right rfl

theorem finished_keeps_iff {steps : Steps} {before after : KeyFiles} {ret : Int}
    (zero : ret = 0) (finished : Finished steps before after) :
    KeepsPairs steps before ret after ↔ NothingFailsOnceOpened steps := by
  obtain ⟨opened, files⟩ := finished
  have key : after.keyPem = some (written steps.keyFile steps.keyPem.text) := by rw [files]; rfl
  have cert : after.clientPem = some (written steps.certFile steps.certPem.text) := by
    rw [files]
    rfl
  have complete : HoldsNewPair steps after ↔ steps.keyFile.StoresAll steps.keyPem.text ∧
      steps.certFile.StoresAll steps.certPem.text := by
    unfold HoldsNewPair
    rw [key, cert, Option.some_inj, Option.some_inj, written_complete_iff, written_complete_iff]
  constructor
  · intro keeps _
    have both := complete.mp (keeps.zero zero)
    exact ⟨both.1, opened.2.1, opened.2.2, both.2⟩
  · intro nothing
    have all := nothing opened.1
    constructor
    · exact fun _ => complete.mpr ⟨all.1, all.2.2.2⟩
    · exact fun nonzero => absurd zero nonzero
    · intro keyFile certFile keyIs certIs
      rw [key] at keyIs
      rw [cert] at certIs
      cases keyIs
      cases certIs
      rfl

theorem stopped_keeps_iff {steps : Steps} {uniqueId : Option (List UInt8)}
    {cert key : List UInt8} {after : KeyFiles} {ret : Int} (nonzero : ret ≠ 0)
    (stopped : Stopped steps (holdingPair uniqueId cert key) after) :
    KeepsPairs steps (holdingPair uniqueId cert key) ret after ↔ NothingFailsOnceOpened steps := by
  by_cases opened : KeyFileOpened steps
  · have files := stopped.keyOnly opened
    constructor
    · intro keeps
      have one := keeps.onePair _ _ (congrArg KeyFiles.keyPem files)
        (congrArg KeyFiles.clientPem files)
      cases one
    · intro nothing
      have all := nothing opened
      exact absurd ⟨opened, all.2.1, all.2.2.1⟩ stopped.early
  · have files := stopped.untouched opened
    constructor
    · exact fun _ reached => absurd reached opened
    · intro _
      constructor
      · exact fun zero => absurd zero nonzero
      · exact fun _ => files
      · intro keyFile certFile keyIs certIs
        rw [files] at keyIs certIs
        cases keyIs
        cases certIs
        rfl

/-- `mkcert_generate` leaves a whole pair, new or old, and says which, exactly when
no step fails once it has opened `key.pem`. -/
theorem mkcert_keeps_pairs_iff (strerror : Int → CString) (certFile keyFile : CString)
    (steps : Steps) (uniqueId : Option (List UInt8)) (cert key : List UInt8)
    (lastError : Option GsError) :
    let before := holdingPair uniqueId cert key
    let ran := mkcertGenerate strerror certFile keyFile steps ⟨before, lastError⟩
    KeepsPairs steps before ran.1 ran.2.files ↔ NothingFailsOnceOpened steps := by
  intro before ran
  rcases mkcertGenerate_spec steps strerror certFile keyFile ⟨before, lastError⟩ rfl with
    finished | stopped
  · exact finished_keeps_iff finished.1 finished.2
  · exact stopped_keeps_iff stopped.1 stopped.2

/-- The key is written in full, and then the certificate cannot be encoded. -/
def certificateFails : Steps where
  seed := 0
  pkSetup := 0
  rsaGenKey := 0
  setValidity := 0
  keyPem := ⟨0, [75]⟩
  keyFile := ⟨true, 1, 1, 0⟩
  certPem := ⟨-10368, []⟩
  certFile := ⟨true, 1, 1, 0⟩

theorem failed_certificate_mixes_pairs :
    ¬ ∀ (strerror : Int → CString) (certFile keyFile : CString) (steps : Steps)
      (uniqueId : Option (List UInt8)) (cert key : List UInt8) (lastError : Option GsError),
      let before := holdingPair uniqueId cert key
      let ran := mkcertGenerate strerror certFile keyFile steps ⟨before, lastError⟩
      KeepsPairs steps before ran.1 ran.2.files := by
  intro always
  have keeps := always (fun _ => []) [] [] certificateFails none [67] [107] none
  have mixed := keeps.onePair ⟨.generated, [75]⟩ ⟨.previous, [67]⟩ rfl rfl
  cases mixed

end MoonlightWii.Gamestream.Mkcert
