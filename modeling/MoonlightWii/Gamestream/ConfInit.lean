import MoonlightWii.Gamestream.Conf
import MoonlightWii.Gamestream.Mkcert

/-!
# Loading and initialising the key directory (`gs_new` in `client.c`, `conf.c`)

`gs_new` answers every failure with `NULL`: a file that is missing or does not
parse, and memory that runs out.  `gs_conf_init` overwrites whatever is there.
-/

set_option autoImplicit false

namespace MoonlightWii.Gamestream.ConfInit

open Foundation.BufferedStream
open Foundation.EarlyExit
open MoonlightWii.Gamestream.Conf
open MoonlightWii.Gamestream.Crypto
open MoonlightWii.Gamestream.Errors
open MoonlightWii.Gamestream.Mkcert
open MoonlightWii.Gamestream.Request
open MoonlightWii.Gamestream.Xml

/-! ## `gs_new` -/

/-- The calls of one `gs_new` that need memory, and whether each of them gets it. -/
structure Allocations where
  /-- `malloc` of `struct GS_CLIENT_T`. -/
  client : Bool
  /-- `fopen` of `uniqueid.dat`. -/
  uniqueIdFile : Bool
  /-- `mbedtls_x509_crt_parse_file`. -/
  certificate : Bool
  /-- `fopen` of `client.pem`. -/
  certFile : Bool
  /-- `mbedtls_pk_parse_keyfile`. -/
  key : Bool
  /-- `calloc` of `struct HTTP_T`. -/
  http : Bool

structure AllSucceed (memory : Allocations) : Prop where
  client : memory.client = true
  uniqueIdFile : memory.uniqueIdFile = true
  certificate : memory.certificate = true
  certFile : memory.certFile = true
  key : memory.key = true
  http : memory.http = true

/-- The parsers of mbedtls, with the text of the error where they fail. -/
structure Parsers where
  x509CrtParseFile : Option (List UInt8) → Except CString Certificate
  pkParseKeyfile : Option (List UInt8) → Option CString
  /-- `strerror(ENOENT)` and `strerror(ENOMEM)`. -/
  noEntry : CString
  noMemory : CString
  /-- The texts of the parsers when an allocation fails. -/
  x509AllocFailed : CString
  pkAllocFailed : CString

/-- What `gs_conf_load` sees of the directory. -/
def readDirectory (parsers : Parsers) (keydir : CString) (files : KeyFiles)
    (memory : Allocations) : KeyDirectory where
  keydir := keydir
  uniqueId :=
    if memory.uniqueIdFile then
      match files.uniqueId with
      | some bytes => .ok bytes
      | none => .error parsers.noEntry
    else
      .error parsers.noMemory
  certificate :=
    if memory.certificate then parsers.x509CrtParseFile (files.clientPem.map PemFile.text)
    else .error parsers.x509AllocFailed
  certFile := if memory.certFile then files.clientPem.map PemFile.text else none
  keyError :=
    if memory.key then parsers.pkParseKeyfile (files.keyPem.map PemFile.text)
    else some parsers.pkAllocFailed

structure Http where
  certPath : CString
  keyPath : CString
  timeout : Int

def httpCreate (keydir : CString) : Http where
  certPath := snprintf 4096 (keydir ++ '/' :: "client.pem".toList)
  keyPath := snprintf 4096 (keydir ++ '/' :: "key.pem".toList)
  timeout := 10

structure GsClient where
  client : Client
  http : Http

def gsNew (parsers : Parsers) (keydir : CString) (files : KeyFiles) (memory : Allocations) :
    Reported (Option GsClient) :=
  if memory.client then
    match gsConfLoad (readDirectory parsers keydir files memory) with
    | ⟨.error _, recorded⟩ => ⟨none, recorded⟩
    | ⟨.ok client, recorded⟩ =>
        if memory.http then ⟨some ⟨client, { httpCreate keydir with timeout := 5 }⟩, recorded⟩
        else ⟨none, recorded⟩
  else
    ⟨none, none⟩

/-! ## `gs_conf_init` -/

inductive MkdirResult where
  | created
  | exists
  | failed (errno : CString)

/-- A path element ends before this text. -/
def endsElement : CString → Bool
  | [] => true
  | char :: _ => char == '/'

/-- The loop of `mkdirtree` behind the characters `walked`: the text of `errno` where
a directory cannot be created. -/
def mkdirtreeFrom (mkdir : CString → MkdirResult) : CString → CString → Option CString
  | _, [] => none
  | walked, char :: rest =>
      let path := walked ++ [char]
      if endsElement rest then
        match mkdir path with
        | .failed errno => some errno
        | _ => mkdirtreeFrom mkdir path rest
      else
        mkdirtreeFrom mkdir path rest

def mkdirtree (mkdir : CString → MkdirResult) (directory : CString) : Option CString :=
  mkdirtreeFrom mkdir [] (directory.take (pathMax - 1))

/-- What the steps of one `gs_conf_init` meet. -/
structure InitSteps where
  mkdir : CString → MkdirResult
  /-- `init_unique_id` does not call `fflush`. -/
  idFile : FileSteps
  openErrno : CString
  writeErrno : CString
  cert : Mkcert.Steps

def confPath (keydir : CString) (name : String) : CString :=
  snprintf pathMax (keydir ++ '/' :: name.toList)

/-- `UNIQUE_ID_DEFAULT`, which is `0123456789ABCDEF`. -/
def uniqueIdDefault : List UInt8 :=
  [48, 49, 50, 51, 52, 53, 54, 55, 56, 57, 65, 66, 67, 68, 69, 70]

/-- What `init_unique_id` leaves in a file that it opens. -/
def writtenId (steps : InitSteps) : List UInt8 :=
  leaves steps.idFile.accepted [steps.idFile.closed] uniqueIdDefault

def initUniqueId (keydir : CString) (steps : InitSteps) : DiskM PUnit := do
  if steps.idFile.opens then
    modify fun disk => { disk with files := disk.files.storeId (writtenId steps) }
    if steps.idFile.accepted < uniqueIdChars then
      fail gsBadConf ("Failed to write unique ID file: ".toList ++ steps.writeErrno)
    else
      pure ⟨⟩
  else
    fail gsBadConf ("Failed to create unique ID file ".toList ++
      confPath keydir "uniqueid.dat" ++ ": ".toList ++ steps.openErrno)

def initCert (strerror : Int → CString) (keydir : CString) (steps : InitSteps) : DiskM PUnit :=
  mkcertBody strerror (confPath keydir "client.pem") (confPath keydir "key.pem") steps.cert

def gsConfInit (strerror : Int → CString) (keydir : CString) (steps : InitSteps) :
    DiskM PUnit :=
  match mkdirtree steps.mkdir keydir with
  | some errno =>
      fail gsIoError ("Failed to create config directory ".toList ++ keydir ++ ": ".toList ++
        errno)
  | none => do
      initUniqueId keydir steps
      initCert strerror keydir steps

/-! ## What is loaded, and what is overwritten -/

/-- The three files are there and parse. -/
structure Stored (parsers : Parsers) (files : KeyFiles) : Prop where
  uniqueId : ∃ bytes, files.uniqueId = some bytes ∧ uniqueIdChars ≤ bytes.length
  clientPem : ∃ text cert, files.clientPem = some ⟨.previous, text⟩ ∧
    parsers.x509CrtParseFile (some text) = .ok cert
  keyPem : ∃ text, files.keyPem = some ⟨.previous, text⟩ ∧
    parsers.pkParseKeyfile (some text) = none

theorem gsConfLoad_ok_iff (directory : KeyDirectory) :
    (∃ client, (gsConfLoad directory).result = .ok client) ↔
      (∃ uniqueId, (loadUniqueId directory).result = .ok uniqueId) ∧
        ∃ cert, (loadCert directory).result = .ok cert := by
  unfold gsConfLoad
  rcases loadUniqueId directory with ⟨_ | uniqueId, _⟩
  · simp
  · rcases loadCert directory with ⟨_ | cert, _⟩
    · simp
    · simp

section Loading

variable {parsers : Parsers} {files : KeyFiles} (keydir : CString) (memory : Allocations)

theorem loadUniqueId_ok_iff (stored : Stored parsers files) :
    (∃ uniqueId, (loadUniqueId (readDirectory parsers keydir files memory)).result =
      .ok uniqueId) ↔ memory.uniqueIdFile = true := by
  obtain ⟨bytes, there, long⟩ := stored.uniqueId
  have enough : ¬ bytes.length < uniqueIdChars := Nat.not_lt.mpr long
  unfold loadUniqueId readDirectory
  cases memory.uniqueIdFile with
  | false => simp [refuse]
  | true => simp [there, enough]

theorem loadCert_ok_iff (stored : Stored parsers files) :
    (∃ cert, (loadCert (readDirectory parsers keydir files memory)).result = .ok cert) ↔
      memory.certificate = true ∧ memory.certFile = true ∧ memory.key = true := by
  obtain ⟨certText, cert, certThere, certParses⟩ := stored.clientPem
  obtain ⟨keyText, keyThere, keyParses⟩ := stored.keyPem
  unfold loadCert readDirectory
  cases memory.certificate with
  | false => simp [refuse]
  | true =>
      cases memory.certFile with
      | false => simp [certThere, certParses, refuse]
      | true =>
          cases memory.key with
          | false => simp [certThere, certParses, refuse]
          | true => simp [certThere, certParses, keyThere, keyParses]

/-- With the files in place only memory can make `gs_new` return `NULL`. -/
theorem gsNew_some_iff (stored : Stored parsers files) :
    (gsNew parsers keydir files memory).result ≠ none ↔ AllSucceed memory := by
  have loads := gsConfLoad_ok_iff (readDirectory parsers keydir files memory)
  rw [loadUniqueId_ok_iff keydir memory stored, loadCert_ok_iff keydir memory stored] at loads
  unfold gsNew
  generalize gsConfLoad (readDirectory parsers keydir files memory) = load at loads ⊢
  cases client : memory.client with
  | false =>
      have never : ¬ AllSucceed memory := by
        intro all
        rw [all.client] at client
        cases client
      simp [never]
  | true =>
      rcases load with ⟨code | loaded, recorded⟩
      · have never : ¬ AllSucceed memory := by
          intro all
          obtain ⟨loaded, same⟩ :=
            loads.mpr ⟨all.uniqueIdFile, all.certificate, all.certFile, all.key⟩
          cases same
        simp [never]
      · obtain ⟨uniqueIdFile, certificate, certFile, key⟩ := loads.mp ⟨loaded, rfl⟩
        cases http : memory.http with
        | false =>
            have never : ¬ AllSucceed memory := by
              intro all
              rw [all.http] at http
              cases http
            simp [never]
        | true =>
            have all : AllSucceed memory :=
              ⟨client, uniqueIdFile, certificate, certFile, key, http⟩
            simp [all]

end Loading

/-- The whole default id reaches the file. -/
def WritesDefault (steps : InitSteps) : Prop :=
  uniqueIdChars ≤ steps.idFile.accepted ∧ uniqueIdChars ≤ steps.idFile.closed

/-- `gs_conf_init` gets no further than to files that it leaves as they are. -/
def InitLeaves (keydir : CString) (steps : InitSteps) (files : KeyFiles) : Prop :=
  mkdirtree steps.mkdir keydir ≠ none ∨ steps.idFile.opens ≠ true ∨
    ((files.uniqueId = some uniqueIdDefault ∧ WritesDefault steps) ∧
      ¬ KeyFileOpened steps.cert)

theorem writtenId_eq_iff (steps : InitSteps) {bytes : List UInt8}
    (long : uniqueIdChars ≤ bytes.length) :
    writtenId steps = bytes ↔ bytes = uniqueIdDefault ∧ WritesDefault steps := by
  have whole : writtenId steps = uniqueIdDefault ↔ WritesDefault steps :=
    leaves_all_iff steps.idFile.accepted [steps.idFile.closed] uniqueIdDefault
  constructor
  · intro same
    have lengths := congrArg List.length same
    have taken : writtenId steps =
        uniqueIdDefault.take (min steps.idFile.closed steps.idFile.accepted) :=
      leaves_eq _ [steps.idFile.closed] _
    rw [taken, List.length_take] at lengths
    have all : uniqueIdDefault.length = uniqueIdChars := rfl
    have complete : writtenId steps = uniqueIdDefault := by
      rw [taken]
      exact List.take_of_length_le (by omega)
    exact ⟨same.symm.trans complete, whole.mp complete⟩
  · rintro ⟨same, writes⟩
    exact (whole.mpr writes).trans same.symm

section Overwriting

variable {parsers : Parsers} {before : KeyFiles}

theorem storeId_eq_iff (stored : Stored parsers before) (steps : InitSteps) :
    before.storeId (writtenId steps) = before ↔
      before.uniqueId = some uniqueIdDefault ∧ WritesDefault steps := by
  obtain ⟨bytes, there, long⟩ := stored.uniqueId
  rw [there, Option.some_inj, ← writtenId_eq_iff steps long]
  constructor
  · intro same
    have ids := congrArg KeyFiles.uniqueId same
    rw [there] at ids
    exact Option.some_inj.mp ids
  · intro same
    rw [same]
    unfold KeyFiles.storeId
    rw [← there]

theorem opened_changes (stored : Stored parsers before) {after : KeyFiles} {text : List UInt8}
    (key : after.keyPem = some ⟨.generated, text⟩) : after ≠ before := by
  obtain ⟨old, there, -⟩ := stored.keyPem
  intro same
  rw [same, there] at key
  cases key

/-- `mkcert_generate` leaves the files alone exactly when it does not open `key.pem`. -/
theorem finished_or_stopped_eq_iff {middle after : KeyFiles} {steps : InitSteps}
    (stored : Stored parsers before)
    (ran : Finished steps.cert middle after ∨ Stopped steps.cert middle after) :
    after = before ↔ middle = before ∧ ¬ KeyFileOpened steps.cert := by
  by_cases opened : KeyFileOpened steps.cert
  · have changed : after ≠ before := by
      rcases ran with finished | stopped
      · exact opened_changes stored (congrArg KeyFiles.keyPem finished.files)
      · exact opened_changes stored (congrArg KeyFiles.keyPem (stopped.keyOnly opened))
    exact iff_of_false changed fun both => both.2 opened
  · rcases ran with finished | stopped
    · exact absurd finished.opened.1 opened
    · rw [stopped.untouched opened]
      exact (and_iff_left opened).symm

theorem gsConfInit_ensures (stored : Stored parsers before) (strerror : Int → CString)
    (keydir : CString) (steps : InitSteps) :
    Ensures (fun disk => disk.files = before) (gsConfInit strerror keydir steps)
      (fun _ after => after.files = before ↔ InitLeaves keydir steps before)
      (fun _ after => after.files = before ↔ InitLeaves keydir steps before) := by
  unfold gsConfInit
  cases walked : mkdirtree steps.mkdir keydir with
  | some errno =>
      apply fail_ensures
      intro disk same
      apply iff_of_true same
      exact .inl (by rw [walked]; exact Option.some_ne_none errno)
  | none =>
      have reached : ¬ mkdirtree steps.mkdir keydir ≠ none := not_not_intro walked
      apply ensures_bind (fun _ disk => steps.idFile.opens = true ∧
        disk.files = before.storeId (writtenId steps))
      · apply ensures_ite
        · intro opens
          have leaves_iff : InitLeaves keydir steps before ↔
              (before.uniqueId = some uniqueIdDefault ∧ WritesDefault steps) ∧
                ¬ KeyFileOpened steps.cert := by
            unfold InitLeaves
            rw [or_iff_right reached, or_iff_right (not_not_intro opens)]
          apply ensures_bind (fun _ disk => disk.files = before.storeId (writtenId steps))
          · apply ensures_modify
            intro disk same
            rw [← same]
          intro _
          apply ensures_ite
          · intro short
            apply fail_ensures
            intro disk same
            rw [same, leaves_iff, storeId_eq_iff stored]
            have never : ¬ WritesDefault steps := fun writes => Nat.not_lt.mpr writes.1 short
            exact iff_of_false (fun both => never both.2) fun both => never both.1.2
          · intro _
            exact ensures_pure _ fun _ same => ⟨opens, same⟩
        · intro closed
          apply fail_ensures
          intro disk same
          exact iff_of_true same (.inr (.inl closed))
      intro _
      apply ensures_fact
      intro opens
      have exact_iff (after : KeyFiles)
          (ran : Finished steps.cert (before.storeId (writtenId steps)) after ∨
            Stopped steps.cert (before.storeId (writtenId steps)) after) :
          after = before ↔ InitLeaves keydir steps before := by
        unfold InitLeaves
        rw [or_iff_right reached, or_iff_right (not_not_intro opens), ← storeId_eq_iff stored]
        exact finished_or_stopped_eq_iff stored ran
      apply ensures_weaken (mkcertBody_ensures strerror _ _)
      · exact fun _ same => same
      · exact fun _ disk finished => exact_iff disk.files (.inl finished)
      · exact fun _ disk left => exact_iff disk.files (.inr left.2)

end Overwriting

end MoonlightWii.Gamestream.ConfInit
