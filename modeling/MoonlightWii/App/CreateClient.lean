import MoonlightWii.Gamestream.ConfInit

/-!
# Creating the client (`create_client` in `main.c`)

When `gs_new` returns `NULL`, whatever the cause, the key directory is
initialised anew and `gs_new` is called once more.
-/

set_option autoImplicit false

namespace MoonlightWii.App.CreateClient

open MoonlightWii.Gamestream.ConfInit
open MoonlightWii.Gamestream.Conf
open MoonlightWii.Gamestream.Crypto
open MoonlightWii.Gamestream.Errors
open MoonlightWii.Gamestream.Mkcert
open MoonlightWii.Gamestream.Xml

structure Machine where
  disk : Disk
  messageBuffer : CString
  isError : Bool
  /-- The texts printed so far. -/
  printed : List CString

def Machine.print (machine : Machine) (text : CString) : Machine :=
  { machine with printed := machine.printed ++ [text] }

def showError (machine : Machine) (msg : CString) : Machine :=
  { machine with messageBuffer := snprintf 1024 msg, isError := true }

def drawStatus (machine : Machine) (header : CString) : Machine :=
  (machine.print header).print machine.messageBuffer

/-- `gs_get_error_message`. -/
def errorMessage (machine : Machine) : CString :=
  (machine.disk.lastError.map GsError.message).getD []

def reportFailure (machine : Machine) (what : String) : Machine :=
  let msg := snprintf 512 (what.toList ++ ":\n".toList ++ errorMessage machine ++ ".".toList)
  drawStatus (showError machine msg) msg

/-- The error that a call recorded, if any, is the last one. -/
def record (machine : Machine) (recorded : Option GsError) : Machine :=
  match recorded with
  | some error => { machine with disk := { machine.disk with lastError := some error } }
  | none => machine

/-- What the calls of one `create_client` meet. -/
structure Run where
  parsers : Parsers
  strerror : Int → CString
  /-- The memory of the first and of the second `gs_new`. -/
  first : Allocations
  second : Allocations
  init : InitSteps

def createAgain (run : Run) (keyDir : CString) (machine : Machine) : Option GsClient × Machine :=
  let attempt := gsNew run.parsers keyDir machine.disk.files run.second
  let machine := record machine attempt.recorded
  match attempt.result with
  | some client => (some client, machine)
  | none => (none, reportFailure machine "Failed to create GameStream client")

def createClient (run : Run) (keyDir : CString) (machine : Machine) : Option GsClient × Machine :=
  let machine := machine.print "Setting up client...".toList
  let attempt := gsNew run.parsers keyDir machine.disk.files run.first
  let machine := record machine attempt.recorded
  match attempt.result with
  | some client => (some client, machine)
  | none =>
      match gsConfInit run.strerror keyDir run.init machine.disk with
      | .error _ disk =>
          (none, reportFailure { machine with disk := disk } "Failed to create client info")
      | .ok _ disk => createAgain run keyDir { machine with disk := disk }

/-! ## The files -/

theorem record_files (machine : Machine) (recorded : Option GsError) :
    (record machine recorded).disk.files = machine.disk.files := by
  cases recorded with
  | none => rfl
  | some error => rfl

theorem createAgain_files (run : Run) (keyDir : CString) (machine : Machine) :
    (createAgain run keyDir machine).2.disk.files = machine.disk.files := by
  unfold createAgain
  rcases gsNew run.parsers keyDir machine.disk.files run.second with ⟨_ | client, recorded⟩
  · exact record_files machine recorded
  · exact record_files machine recorded

/-- The condition under which the stored files survive: no allocation of the first
`gs_new` fails, or `gs_conf_init` leaves the files as they are. -/
def FilesSurvive (run : Run) (keyDir : CString) (files : KeyFiles) : Prop :=
  AllSucceed run.first ∨ InitLeaves keyDir run.init files

/-- `create_client` leaves stored credentials alone exactly under that condition. -/
theorem stored_files_kept_iff (run : Run) (keyDir : CString) (machine : Machine)
    (stored : Stored run.parsers machine.disk.files) :
    (createClient run keyDir machine).2.disk.files = machine.disk.files ↔
      FilesSurvive run keyDir machine.disk.files := by
  have loads := gsNew_some_iff keyDir run.first stored
  unfold createClient FilesSurvive
  simp only [Machine.print]
  generalize gsNew run.parsers keyDir machine.disk.files run.first = attempt at loads ⊢
  cases found : attempt.result with
  | some client =>
      rw [found] at loads
      have all : AllSucceed run.first := loads.mp (Option.some_ne_none client)
      exact iff_of_true (record_files _ _) (.inl all)
  | none =>
      rw [found] at loads
      have missing : ¬ AllSucceed run.first := fun all => loads.mpr all rfl
      rw [or_iff_right missing]
      have init := gsConfInit_ensures stored run.strerror keyDir run.init
        (record { machine with printed := machine.printed ++ ["Setting up client...".toList] }
          attempt.recorded).disk (record_files _ _)
      simp only
      cases ran : gsConfInit run.strerror keyDir run.init
          (record { machine with printed := machine.printed ++ ["Setting up client...".toList] }
            attempt.recorded).disk with
      | ok value disk =>
          rw [ran] at init
          rw [createAgain_files]
          exact init
      | error code disk =>
          rw [ran] at init
          exact init

/-! ## A paired client whose first allocation fails -/

def plainParsers : Parsers where
  x509CrtParseFile
    | some text => .ok ⟨text, []⟩
    | none => .error []
  pkParseKeyfile
    | some _ => none
    | none => some []
  noEntry := []
  noMemory := []
  x509AllocFailed := []
  pkAllocFailed := []

/-- Only the first allocation depends on the argument. -/
def firstAllocation (client : Bool) : Run where
  parsers := plainParsers
  strerror := fun _ => []
  first := ⟨client, true, true, true, true, true⟩
  second := ⟨true, true, true, true, true, true⟩
  init :=
    { mkdir := fun _ => .exists
      idFile := ⟨true, 16, 0, 16⟩
      openErrno := []
      writeErrno := []
      cert :=
        { seed := 0
          pkSetup := 0
          rsaGenKey := 0
          setValidity := 0
          keyPem := ⟨0, [75]⟩
          keyFile := ⟨true, 1, 1, 0⟩
          certPem := ⟨0, [67]⟩
          certFile := ⟨true, 1, 1, 0⟩ } }

def pairedMachine : Machine where
  disk :=
    { files := ⟨some uniqueIdDefault, some ⟨.previous, [99]⟩, some ⟨.previous, [107]⟩⟩
      lastError := none }
  messageBuffer := []
  isError := false
  printed := []

theorem pairedMachine_stored (client : Bool) :
    Stored (firstAllocation client).parsers pairedMachine.disk.files :=
  ⟨⟨_, rfl, Nat.le_refl 16⟩, ⟨_, ⟨[99], []⟩, rfl, rfl⟩, ⟨_, rfl, rfl⟩⟩

theorem stored_files_kept_paired :
    ((createClient (firstAllocation true) "/moonlight/keys".toList pairedMachine).2.disk.files =
        pairedMachine.disk.files ↔
      FilesSurvive (firstAllocation true) "/moonlight/keys".toList pairedMachine.disk.files) ∧
    FilesSurvive (firstAllocation true) "/moonlight/keys".toList pairedMachine.disk.files :=
  ⟨stored_files_kept_iff _ _ _ (pairedMachine_stored true),
    .inl ⟨rfl, rfl, rfl, rfl, rfl, rfl⟩⟩

theorem failed_allocation_replaces_pair :
    ¬ ∀ (run : Run) (keyDir : CString) (machine : Machine),
      Stored run.parsers machine.disk.files →
        (createClient run keyDir machine).2.disk.files = machine.disk.files := by
  intro always
  have kept := always (firstAllocation false) "/moonlight/keys".toList pairedMachine
    (pairedMachine_stored false)
  have key := congrArg KeyFiles.keyPem kept
  have replaced : (createClient (firstAllocation false) "/moonlight/keys".toList
      pairedMachine).2.disk.files.keyPem = some ⟨.generated, [75]⟩ := by
    decide
  rw [replaced] at key
  cases key

end MoonlightWii.App.CreateClient
