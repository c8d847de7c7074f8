import MoonlightWii.App.UnsavedSettings

/-!
# Editing the settings (`main.c`)

`settings_menu` writes the configuration file anew when it is left.
-/

set_option autoImplicit false

namespace MoonlightWii.App.SettingsMenu

open MoonlightWii.App.Configuration
open MoonlightWii.App.ConfigFile
open MoonlightWii.App.SettingLines
open MoonlightWii.App.SavedConfig
open MoonlightWii.App.UnsavedSettings
open MoonlightWii.Gamestream.Errors

/-- An entry of the menu with what its own menu returns; `none` where that was left. -/
inductive Edit where
  | resolution (r : Option (Fin 4))
  | fps (v : Int32)
  | bitrate (v : Int32)
  | viewonly (v : Option Bool)
  | localaudio (v : Option Bool)
  | quitappafter (v : Option Bool)
  | osdOverscan (v : Int32)
  | encryption (r : Option (Fin 4))

def resolutions : Fin 4 → Int32 × Int32
  | 0 => (640, 480)
  | 1 => (854, 480)
  | 2 => (1280, 720)
  | 3 => (1920, 1080)

def encvals : Fin 4 → Nat
  | 0 => encflgNone
  | 1 => encflgAudio
  | 2 => encflgVideo
  | 3 => encflgAudio ||| encflgVideo

def applyEdit (config : Configuration) : Edit → Configuration
  | .resolution (some r) =>
      { config with width := (resolutions r).1, height := (resolutions r).2 }
  | .resolution none => config
  | .fps v => if 0 < v then { config with fps := v } else config
  | .bitrate v => if 0 < v then { config with bitrate := v } else config
  | .viewonly v => { config with viewonly := v.getD config.viewonly }
  | .localaudio v => { config with localaudio := v.getD config.localaudio }
  | .quitappafter v => { config with quitappafter := v.getD config.quitappafter }
  | .osdOverscan v => if 0 ≤ v then { config with osdOverscan := v } else config
  | .encryption (some r) => { config with encryptionFlags := encvals r }
  | .encryption none => config

/-- `settings_menu` up to its `save_config`. -/
def settingsMenu (config : Configuration) (edits : List Edit) : Configuration :=
  edits.foldl applyEdit config

/-- What `main` stores after `config_parse`. -/
def started (config : Configuration) : Configuration :=
  { config with unsupported := true, sops := false }

/-- The files after the settings of a loaded configuration have been edited. -/
def edited (files : Files) (config : Configuration) (edits : List Edit) : Files :=
  saveConfig files (settingsMenu (started config) edits)

/-! ## Editing keeps the texts -/

theorem applyEdit_writable {config : Configuration} (edit : Edit) (writable : Writable config) :
    Writable (applyEdit config edit) := by
  obtain ⟨address, app, tlsTest⟩ := writable
  cases edit with
  | resolution r =>
      cases r with
      | none => exact ⟨address, app, tlsTest⟩
      | some r => exact ⟨address, app, tlsTest⟩
  | fps v =>
      simp only [applyEdit]
      split <;> exact ⟨address, app, tlsTest⟩
  | bitrate v =>
      simp only [applyEdit]
      split <;> exact ⟨address, app, tlsTest⟩
  | viewonly v => exact ⟨address, app, tlsTest⟩
  | localaudio v => exact ⟨address, app, tlsTest⟩
  | quitappafter v => exact ⟨address, app, tlsTest⟩
  | osdOverscan v =>
      simp only [applyEdit]
      split <;> exact ⟨address, app, tlsTest⟩
  | encryption r =>
      cases r with
      | none => exact ⟨address, app, tlsTest⟩
      | some r => exact ⟨address, app, tlsTest⟩

theorem settingsMenu_writable {config : Configuration} (edits : List Edit)
    (writable : Writable config) : Writable (settingsMenu config edits) := by
  induction edits generalizing config with
  | nil => exact writable
  | cons edit edits ih => exact ih (applyEdit_writable edit writable)

theorem defaults_writable : Writable defaults := by
  refine ⟨fun _ missing => (nomatch missing), ?_, fun _ missing => (nomatch missing)⟩
  exact ⟨by decide, by decide, Foundation.TextRun.stops_cons (by decide) _, by decide, by decide⟩

theorem chooseBitrate_unsaved (scale : Nat → Int32 → Int32) (config : Configuration) :
    unsaved (chooseBitrate scale config) = unsaved config := by
  unfold chooseBitrate
  split <;> rfl

theorem chooseBitrate_writable (scale : Nat → Int32 → Int32) {config : Configuration}
    (writable : Writable config) : Writable (chooseBitrate scale config) := by
  unfold chooseBitrate
  split
  · exact ⟨writable.address, writable.app, writable.tlsTest⟩
  · exact writable

/-! ## Loading the edited file -/

/-- The program starts with the settings that its file gives. -/
theorem configParse_reads {scale : Nat → Int32 → Int32} {files : Files} {depth : Nat}
    {config : Configuration} (loaded : configParse scale files depth = .ok config) :
    ∃ calls buffers, fileCalls files depth configPath 0 = some (calls, buffers) ∧
      unsaved config = calls.foldl note (unsaved defaults) ∧ Writable config := by
  unfold configParse at loaded
  cases parsed : configFileParse files depth configPath ⟨defaults, 0⟩ with
  | error stop =>
      rw [parsed] at loaded
      cases loaded
  | ok result =>
      obtain ⟨found, after⟩ := result
      rw [parsed] at loaded
      cases loaded
      obtain ⟨calls, listed, reads⟩ := fileCalls_describe files depth _ _ _ _ parsed
      refine ⟨calls, after.buffers, listed, ?_, ?_⟩
      · rw [chooseBitrate_unsaved, reads.unsaved]
      · exact chooseBitrate_writable scale (reads.writable defaults_writable)

/-- No line of the file, or of a file that it includes, takes a setting that the
program does not write away from its default. -/
def LeavesUnsavedDefaults (files : Files) (depth : Nat) : Prop :=
  ∀ calls buffers, fileCalls files depth configPath 0 = some (calls, buffers) →
    LeavesDefaults calls

/-- After the edit the file still gives the settings that the program does not write. -/
def UnsavedSurvive (scale : Nat → Int32 → Int32) (files : Files) (depth : Nat)
    (config : Configuration) (edits : List Edit) : Prop :=
  ∃ reloaded, configParse scale (edited files config edits) depth = .ok reloaded ∧
    unsaved reloaded = unsaved config

theorem unsavedSurvive_iff_defaults (scale : Nat → Int32 → Int32) (files : Files) (depth : Nat)
    {config : Configuration} (edits : List Edit) (writable : Writable config) :
    UnsavedSurvive scale files (depth + 1) config edits ↔ unsaved config = unsaved defaults := by
  have kept : Writable (started config) := ⟨writable.address, writable.app, writable.tlsTest⟩
  have parsed := configParse_saved scale files depth (settingsMenu_writable edits kept)
  have lost : unsaved (chooseBitrate scale (restored (settingsMenu (started config) edits))) =
      unsaved defaults := chooseBitrate_unsaved scale _
  constructor
  · rintro ⟨reloaded, again, same⟩
    rw [edited, parsed] at again
    cases again
    rw [← same, lost]
  · intro same
    exact ⟨_, parsed, lost.trans same.symm⟩

/-- The settings without a line of their own in the written file survive an edit
exactly when the file has left them all at their defaults. -/
theorem unsaved_settings_survive_iff (scale : Nat → Int32 → Int32) (files : Files) (depth : Nat)
    (config : Configuration) (edits : List Edit)
    (loaded : configParse scale files depth = .ok config) :
    UnsavedSurvive scale files depth config edits ↔ LeavesUnsavedDefaults files depth := by
  obtain ⟨calls, buffers, listed, settings, writable⟩ := configParse_reads loaded
  cases depth with
  | zero => cases loaded
  | succ depth =>
      rw [unsavedSurvive_iff_defaults scale files depth edits writable, settings,
        kept_iff_leavesDefaults]
      constructor
      · intro leaves others count found
        cases listed.symm.trans found
        exact leaves
      · intro leaves
        exact leaves calls buffers listed

/-! ## A file with one line -/

def oneLine (key value : String) : Files where
  content := fun _ => some (settingLine (key.toList, value.toList))
  heap := fun _ _ => nul

def constantScale : Nat → Int32 → Int32 := fun _ _ => 1500

theorem oneLine_content (key value : String) :
    (oneLine key value).content configPath =
      some ([(key.toList, value.toList)].flatMap settingLine) := by
  rw [List.flatMap_singleton]
  rfl

theorem readable_oneLine {key value : String} (plain : plainKey key = true)
    (valid : Value value.toList) :
    ∀ setting ∈ [(key.toList, value.toList)], Readable setting := by
  intro setting member
  rw [List.mem_singleton.mp member]
  exact readable_value key plain valid

theorem value_surround : Value "5.1".toList :=
  ⟨by decide, by decide, Foundation.TextRun.stops_cons (by decide) _, by decide, by decide⟩

theorem value_fps : Value "60".toList :=
  ⟨by decide, by decide, Foundation.TextRun.stops_cons (by decide) _, by decide, by decide⟩

def surroundConfig : Configuration :=
  { defaults with bitrate := 1500, audioConfiguration := audioConfiguration51Surround }

theorem surround_loaded :
    configParse constantScale (oneLine "surround" "5.1") 1 = .ok surroundConfig := by
  have restores : Restores [("surround".toList, "5.1".toList)] defaults
      { defaults with audioConfiguration := audioConfiguration51Surround } := by
    apply restores_option ⟨"surround".toList, true, 'u'⟩ (option_at 19 rfl) (by decide)
    exact fun _ _ => rfl
  exact configParse_settings constantScale 0 (oneLine_content "surround" "5.1")
    (readable_oneLine rfl value_surround) restores

/-- Setting the frame rate in the menu drops the line `surround = 5.1`. -/
theorem edit_drops_surround :
    configParse constantScale (oneLine "surround" "5.1") 1 = .ok surroundConfig ∧
      ¬UnsavedSurvive constantScale (oneLine "surround" "5.1") 1 surroundConfig [.fps 60] := by
  refine ⟨surround_loaded, fun survive => ?_⟩
  obtain ⟨-, -, -, -, writable⟩ := configParse_reads surround_loaded
  have same := (unsavedSurvive_iff_defaults constantScale _ 0 _ writable).mp survive
  exact absurd (congrArg Unsaved.audioConfiguration same) (by decide)

theorem fps_loaded : configParse constantScale (oneLine "fps" "60") 1 =
    .ok { defaults with bitrate := 1500, fps := 60 } := by
  have restores : Restores [("fps".toList, "60".toList)] defaults { defaults with fps := 60 } := by
    apply restores_option ⟨"fps".toList, true, 'v'⟩ (option_at 20 rfl) (by decide)
    exact fun _ _ => rfl
  exact configParse_settings constantScale 0 (oneLine_content "fps" "60")
    (readable_oneLine rfl value_fps) restores

theorem fps_calls :
    fileCalls (oneLine "fps" "60") 1 configPath 0 = some ([('v', "60".toList)], 1) := by
  have readable : ∀ setting ∈ [("fps".toList, "60".toList)], Readable setting :=
    readable_oneLine rfl value_fps
  have lines := getlines_settings (newBuffer_holds ((oneLine "fps" "60").heap 0)) readable
  have line : scanLine (settingLine ("fps".toList, "60".toList)) =
      some ("fps".toList, "60".toList) :=
    scanLine_settingLine (readable _ List.mem_cons_self).1 value_fps
  have call : lineCall ("fps".toList, "60".toList) = some ('v', "60".toList) := by
    decide
  simp only [fileCalls, oneLine_content, lines, List.map_cons, List.map_nil, List.foldlM_cons,
    List.foldlM_nil, noteLine, line, Option.bind_some, call]
  rfl

/-- A file whose only line the program writes itself loses nothing. -/
theorem edit_keeps_fps_file :
    UnsavedSurvive constantScale (oneLine "fps" "60") 1
      { defaults with bitrate := 1500, fps := 60 } [.resolution (some 2), .fps 30] := by
  apply (unsaved_settings_survive_iff constantScale (oneLine "fps" "60") 1 _ _ fps_loaded).mpr
  intro calls buffers found
  cases fps_calls.symm.trans found
  exact leavesDefaults_of_kept rfl

end MoonlightWii.App.SettingsMenu
