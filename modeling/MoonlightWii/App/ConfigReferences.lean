import MoonlightWii.App.SettingFrame
import MoonlightWii.Foundation.NestedScripts

/-!
# Configuration files that name others

A line `config = file` has the reader start over with that file, and nothing keeps
track of the files that are being read.  A file is a script whose steps are its lines;
besides the other files only the number of inputs, which is limited, and the number of
line buffers matter for whether the reader comes to an end.
-/

set_option autoImplicit false

namespace MoonlightWii.App.ConfigReferences

open Foundation.NestedScripts
open MoonlightWii.App.Configuration
open MoonlightWii.App.ConfigFile
open MoonlightWii.App.SettingLines
open MoonlightWii.App.SettingFrame
open MoonlightWii.Gamestream.Errors

structure Counts where
  inputs : Nat
  buffers : Nat

def counts (loader : Loader) : Counts := ⟨loader.config.inputs.length, loader.buffers⟩

/-- `Too many inputs specified` -/
def addInput (before : Counts) : Except Unit Counts :=
  if maxInputs ≤ before.inputs then .error () else .ok { before with inputs := before.inputs + 1 }

def lineStep (line : CString) : Step CString Counts Unit :=
  match scanLine line with
  | none => .effect .ok
  | some setting =>
      if setting.1 = "config".toList then .call setting.2
      else if setting.1 = "input".toList then .effect addInput
      else .effect .ok

/-- The lines of a file; one that cannot be opened ends the program. -/
def fileSteps (files : Files) : Scripts CString Counts Unit := fun filename before =>
  match files.content filename with
  | none => .error ()
  | some text =>
      .ok ((getlines (newBuffer (files.heap before.buffers)) 0 text).map lineStep,
        { before with buffers := before.buffers + 1 })

/-- An endless chain of files, each named by a line of the one before that the reader
gets to. -/
def EndlessReferences (files : Files) (filename : CString) (before : Counts) : Prop :=
  ∃ chain : Nat → CString × Counts, chain 0 = (filename, before) ∧
    ∀ index, Reaches (fileSteps files) (chain index) (chain (index + 1))

/-! ## Loading as a run of scripts -/

def outcome : Except Stop Loader → Outcome Counts Unit
  | .ok loader => some (.ok (counts loader))
  | .error .exited => some (.error ())
  | .error .tooDeep => none

/-- `if (!config_file_parse(value, config)) exit(EXIT_FAILURE)` -/
def required (result : Except Stop (Bool × Loader)) : Except Stop Loader :=
  result.bind fun read => if read.1 then .ok read.2 else .error .exited

theorem required_eq_none_iff (result : Except Stop (Bool × Loader)) :
    outcome (required result) = none ↔ result = .error .tooDeep := by
  cases result with
  | error stop =>
      cases stop with
      | exited => simp [required, outcome, Except.bind]
      | tooDeep => simp [required, outcome, Except.bind]
  | ok read =>
      obtain ⟨parsed, loaded⟩ := read
      cases parsed with
      | false => simp [required, outcome, Except.bind]
      | true => simp [required, outcome, Except.bind]

theorem copy_inputs {field : Field} (other : field ≠ .inputs) (source target : Configuration) :
    (Field.copy source target field).inputs = target.inputs := by
  cases field
  case inputs => exact absurd rfl other
  all_goals rfl

theorem changes_inputs {fields : List Field} {before after : Configuration}
    (changed : Changes fields before after) (others : .inputs ∉ fields) :
    after.inputs = before.inputs := by
  have kept : (fields.foldl (Field.copy after) before).inputs = before.inputs := by
    clear changed
    induction fields generalizing before with
    | nil => rfl
    | cons field fields ih =>
        rw [List.mem_cons, not_or] at others
        rw [List.foldl_cons, ih others.2]
        exact copy_inputs (Ne.symm others.1) after before
  rw [changed] at kept
  exact kept

theorem optionFields_inputs {c : Char} (member : .inputs ∈ optionFields c) : c = 'j' := by
  unfold optionFields at member
  split at member
  all_goals first | rfl | exact absurd member (by decide)

theorem settingFields_inputs {key : CString} (member : .inputs ∈ settingFields key) :
    key = "input".toList := by
  unfold settingFields at member
  split_ifs at member
  · exact absurd member (by decide)
  · exact absurd member (by decide)
  · cases found : longOptions.find? fun option => option.name = key with
    | none =>
        rw [found] at member
        exact absurd member List.not_mem_nil
    | some option =>
        rw [found] at member
        have named : option.name = key := by simpa using List.find?_some found
        rw [← named]
        exact (option_letter (List.mem_of_find?_eq_some found)).1 (optionFields_inputs member)

section Lines

variable {nested : CString → Loader → Except Stop (Bool × Loader)}
  {nestedRun : CString → Counts → Outcome Counts Unit}

theorem applySetting_config (value : CString) (loader : Loader) :
    applySetting nested loader ("config".toList, value) = required (nested value loader) := by
  rw [applySetting_option nested ⟨"config".toList, true, 'o'⟩ value loader (option_at 13 rfl)
    ⟨by decide, by decide⟩]
  change parseArgument nested 'o' value loader = _
  rw [parseArgument]
  cases nested value loader with
  | error stop => rfl
  | ok read => rfl

theorem applySetting_input (value : CString) (loader : Loader) :
    outcome (applySetting nested loader ("input".toList, value)) =
      some (addInput (counts loader)) := by
  rw [applySetting_option nested ⟨"input".toList, true, 'j'⟩ value loader (option_at 8 rfl)
    ⟨by decide, by decide⟩]
  change outcome (parseArgument nested 'j' value loader) = _
  rw [parseArgument, addInput]
  by_cases full : maxInputs ≤ loader.config.inputs.length
  · have counted : maxInputs ≤ (counts loader).inputs := full
    rw [if_pos counted]
    simp only [if_pos full, outcome]
  · have counted : ¬ maxInputs ≤ (counts loader).inputs := full
    rw [if_neg counted]
    simp only [if_neg full, outcome, change, counts, List.length_append, List.length_singleton]

/-- A line does to the counts what its step does. -/
theorem applyLine_outcome
    (included : ∀ name loader,
      outcome (required (nested name loader)) = nestedRun name (counts loader))
    (line : CString) (loader : Loader) :
    outcome (applyLine nested loader line) = runStep nestedRun (counts loader) (lineStep line) := by
  unfold applyLine lineStep
  cases scanLine line with
  | none => rfl
  | some setting =>
      obtain ⟨key, value⟩ := setting
      simp only
      by_cases config : key = "config".toList
      · rw [if_pos config, config, applySetting_config]
        exact included value loader
      · rw [if_neg config]
        by_cases input : key = "input".toList
        · rw [if_pos input, input]
          exact applySetting_input value loader
        · rw [if_neg input]
          by_cases mapping : key = "mapping".toList
          · rw [mapping, applySetting_mapping]
            rfl
          · obtain ⟨after, applied, kept⟩ :=
              @applySetting_keeps nested (key, value) loader input mapping config
            have inputs : after.config.inputs = loader.config.inputs :=
              changes_inputs kept.changes fun member => input (settingFields_inputs member)
            have same : counts after = counts loader := by
              rw [counts, counts, inputs, kept.buffers]
            rw [applied, outcome, same]
            rfl

theorem applyLines_outcome
    (included : ∀ name loader,
      outcome (required (nested name loader)) = nestedRun name (counts loader))
    (lines : List CString) (loader : Loader) :
    outcome (lines.foldlM (applyLine nested) loader) =
      runSteps nestedRun (lines.map lineStep) (counts loader) := by
  induction lines generalizing loader with
  | nil => rfl
  | cons line lines ih =>
      have head := applyLine_outcome included line loader
      rw [List.foldlM_cons, List.map_cons, runSteps, ← head]
      cases applyLine nested loader line with
      | ok next => exact ih next
      | error stop =>
          cases stop with
          | exited => rfl
          | tooDeep => rfl

end Lines

theorem configFileParse_outcome (files : Files) (depth : Nat) (filename : CString)
    (loader : Loader) :
    outcome (required (configFileParse files depth filename loader)) =
      run (fileSteps files) depth filename (counts loader) := by
  induction depth generalizing filename loader with
  | zero => rfl
  | succ depth ih =>
      rw [configFileParse]
      cases content : files.content filename with
      | none =>
          have failed : fileSteps files filename (counts loader) = .error () := by
            rw [fileSteps, content]
          rw [run_failed depth failed]
          rfl
      | some text =>
          have opened : fileSteps files filename (counts loader) =
              .ok ((getlines (newBuffer (files.heap loader.buffers)) 0 text).map lineStep,
                counts { loader with buffers := loader.buffers + 1 }) := by
            rw [fileSteps, content]
            rfl
          rw [run_opened depth opened, ← applyLines_outcome ih]
          cases result : (getlines (newBuffer (files.heap loader.buffers)) 0 text).foldlM
              (applyLine (configFileParse files depth))
              { loader with buffers := loader.buffers + 1 } with
          | ok loaded => simp only [result]; rfl
          | error stop => simp only [result]; rfl

/-- The reader comes to an end exactly when the files it gets to form no endless chain. -/
theorem configFileParse_terminates_iff (files : Files) (filename : CString) (loader : Loader) :
    (∃ depth, configFileParse files depth filename loader ≠ .error .tooDeep) ↔
      ¬ EndlessReferences files filename (counts loader) := by
  have same (depth : Nat) : configFileParse files depth filename loader ≠ .error .tooDeep ↔
      run (fileSteps files) depth filename (counts loader) ≠ none := by
    rw [← configFileParse_outcome, Ne, Ne, required_eq_none_iff]
  simp only [same]
  exact run_ends_iff filename (counts loader)

/-- The configuration file names itself. -/
def selfReference : Files where
  content path :=
    if path = configPath then some "config = /moonlight/moonlight.conf\n".toList else none
  heap _ _ := nul

theorem self_reference_unended : ¬ ∃ depth,
    configFileParse selfReference depth configPath ⟨defaults, 0⟩ ≠ .error .tooDeep := by
  have unended (depth : Nat) (loader : Loader) :
      configFileParse selfReference depth configPath loader = .error .tooDeep := by
    induction depth generalizing loader with
    | zero => rfl
    | succ depth ih =>
        have content : selfReference.content configPath =
            some "config = /moonlight/moonlight.conf\n".toList := by
          simp only [selfReference, if_true]
        have lines (index : Nat) : getlines (newBuffer (selfReference.heap index)) 0
            "config = /moonlight/moonlight.conf\n".toList =
              ["config = /moonlight/moonlight.conf\n".toList] := by
          change getlines (newBuffer fun _ => nul) 0 _ = _
          decide +kernel
        have read : scanLine "config = /moonlight/moonlight.conf\n".toList =
            some ("config".toList, configPath) := by
          decide
        rw [configFileParse, content]
        simp only [lines, List.foldlM_cons, applyLine, read, applySetting_config, ih]
        rfl
  rintro ⟨depth, ended⟩
  exact ended (unended depth ⟨defaults, 0⟩)

end MoonlightWii.App.ConfigReferences
