import MoonlightWii.App.UnsavedSettings

/-!
# What a setting leaves alone

Every key of the configuration file stands for some fields of the configuration; a
line with this key may change them and no others.
-/

set_option autoImplicit false

namespace MoonlightWii.App.SettingFrame

open MoonlightWii.App.Configuration
open MoonlightWii.App.ConfigFile
open MoonlightWii.App.SettingLines
open MoonlightWii.App.UnsavedSettings
open MoonlightWii.Gamestream.Errors

inductive Field where
  | width
  | height
  | fps
  | bitrate
  | packetSize
  | streamingRemotely
  | audioConfiguration
  | encryptionFlags
  | debugLevel
  | app
  | address
  | platform
  | audioDevice
  | configFile
  | keyDir
  | sops
  | localaudio
  | fullscreen
  | rotate
  | unsupported
  | quitappafter
  | viewonly
  | mouseEmulation
  | inputs
  | codec
  | hdr
  | pin
  | port
  | osdOverscan
  | tlsTest
  | autostream
  | inputAdded
  deriving DecidableEq

/-- The target with one field of the source. -/
def Field.copy (source target : Configuration) : Field → Configuration
  | .width => { target with width := source.width }
  | .height => { target with height := source.height }
  | .fps => { target with fps := source.fps }
  | .bitrate => { target with bitrate := source.bitrate }
  | .packetSize => { target with packetSize := source.packetSize }
  | .streamingRemotely => { target with streamingRemotely := source.streamingRemotely }
  | .audioConfiguration => { target with audioConfiguration := source.audioConfiguration }
  | .encryptionFlags => { target with encryptionFlags := source.encryptionFlags }
  | .debugLevel => { target with debugLevel := source.debugLevel }
  | .app => { target with app := source.app }
  | .address => { target with address := source.address }
  | .platform => { target with platform := source.platform }
  | .audioDevice => { target with audioDevice := source.audioDevice }
  | .configFile => { target with configFile := source.configFile }
  | .keyDir => { target with keyDir := source.keyDir }
  | .sops => { target with sops := source.sops }
  | .localaudio => { target with localaudio := source.localaudio }
  | .fullscreen => { target with fullscreen := source.fullscreen }
  | .rotate => { target with rotate := source.rotate }
  | .unsupported => { target with unsupported := source.unsupported }
  | .quitappafter => { target with quitappafter := source.quitappafter }
  | .viewonly => { target with viewonly := source.viewonly }
  | .mouseEmulation => { target with mouseEmulation := source.mouseEmulation }
  | .inputs => { target with inputs := source.inputs }
  | .codec => { target with codec := source.codec }
  | .hdr => { target with hdr := source.hdr }
  | .pin => { target with pin := source.pin }
  | .port => { target with port := source.port }
  | .osdOverscan => { target with osdOverscan := source.osdOverscan }
  | .tlsTest => { target with tlsTest := source.tlsTest }
  | .autostream => { target with autostream := source.autostream }
  | .inputAdded => { target with inputAdded := source.inputAdded }

/-- The configuration afterwards is the one before but for these fields. -/
def Changes (fields : List Field) (before after : Configuration) : Prop :=
  fields.foldl (Field.copy after) before = after

theorem changes_same (fields : List Field) (config : Configuration) :
    Changes fields config config := by
  induction fields with
  | nil => rfl
  | cons field fields ih =>
      have kept : Field.copy config config field = config := by
        cases field <;> rfl
      rw [Changes, List.foldl_cons, kept]
      exact ih

theorem changes_nothing_iff (before after : Configuration) :
    Changes [] before after ↔ before = after :=
  Iff.rfl

/-! ## The fields of the keys -/

/-- The fields of an option, by its letter. -/
def optionFields : Char → List Field
  | 'a' | 'b' | '0' => [.width, .height]
  | 'c' => [.width]
  | 'd' => [.height]
  | 'g' => [.bitrate]
  | 'h' => [.packetSize]
  | 'i' => [.app]
  | 'j' => [.inputs, .inputAdded]
  | 'l' => [.sops]
  | 'm' => [.audioDevice]
  | 'n' => [.localaudio]
  | 'p' => [.platform]
  | 'q' => [.configFile]
  | 'r' => [.keyDir]
  | 's' => [.streamingRemotely]
  | 't' => [.fullscreen]
  | 'u' => [.audioConfiguration]
  | 'v' => [.fps]
  | 'x' => [.codec]
  | 'y' => [.unsupported]
  | '1' => [.quitappafter]
  | '2' => [.viewonly]
  | '3' => [.rotate]
  | 'z' | 'Z' => [.debugLevel]
  | 'C' => [.autostream]
  | '4' => [.mouseEmulation]
  | '5' => [.pin]
  | '6' => [.port]
  | '7' => [.hdr]
  | '8' => [.osdOverscan]
  | '9' => [.tlsTest]
  | 'e' => [.encryptionFlags]
  | _ => []

/-- The fields that a key of the file stands for; `mapping` has none in this build. -/
def settingFields (key : CString) : List Field :=
  if key = "address".toList then [.address]
  else if key = "sops".toList then [.sops]
  else (longOptions.find? fun option => option.name = key).elim [] fun option =>
    optionFields option.val

/-- A setting that stays within some fields, and allocates no line buffer. -/
structure Keeps (fields : List Field) (before after : Loader) : Prop where
  buffers : after.buffers = before.buffers
  changes : Changes fields before.config after.config

theorem keeps_same (fields : List Field) (loader : Loader) : Keeps fields loader loader :=
  ⟨rfl, changes_same fields loader.config⟩

section Lines

variable (nested : CString → Loader → Except Stop (Bool × Loader))

/-- Apart from three options, a call of `parse_argument` succeeds and changes the fields
of its option. -/
theorem parseArgument_keeps {c : Char} (value : CString) (loader : Loader) (not_input : c ≠ 'j')
    (not_mapping : c ≠ 'k') (not_config : c ≠ 'o') :
    ∃ after, parseArgument nested c value loader = .ok after ∧
      Keeps (optionFields c) loader after := by
  unfold parseArgument
  simp only
  split
  case h_9 => exact absurd rfl not_input
  case h_10 => exact absurd rfl not_mapping
  case h_14 => exact absurd rfl not_config
  -- `remote`, `surround`, `codec`, `encrypt`
  case h_18 | h_20 | h_22 | h_36 =>
    split_ifs
    all_goals first | exact ⟨loader, rfl, keeps_same _ loader⟩ | exact ⟨_, rfl, rfl, rfl⟩
  case h_37 => exact ⟨loader, rfl, keeps_same _ loader⟩
  all_goals exact ⟨_, rfl, rfl, rfl⟩

theorem option_letter {option : LongOption} (member : option ∈ longOptions) :
    (option.val = 'j' → option.name = "input".toList) ∧
      (option.val = 'k' → option.name = "mapping".toList) ∧
      (option.val = 'o' → option.name = "config".toList) := by
  have letters : ∀ option ∈ longOptions, (option.val = 'j' → option.name = "input".toList) ∧
      (option.val = 'k' → option.name = "mapping".toList) ∧
      (option.val = 'o' → option.name = "config".toList) := by
    decide
  exact letters option member

theorem applySetting_keeps {setting : Setting} (loader : Loader)
    (not_input : setting.1 ≠ "input".toList) (not_mapping : setting.1 ≠ "mapping".toList)
    (not_config : setting.1 ≠ "config".toList) :
    ∃ after, applySetting nested loader setting = .ok after ∧
      Keeps (settingFields setting.1) loader after := by
  unfold applySetting settingFields
  by_cases address : setting.1 = "address".toList
  · rw [if_pos address, if_pos address]
    exact ⟨_, rfl, rfl, rfl⟩
  · rw [if_neg address, if_neg address]
    by_cases sops : setting.1 = "sops".toList
    · rw [if_pos sops, if_pos sops]
      exact ⟨_, rfl, rfl, rfl⟩
    · rw [if_neg sops, if_neg sops, applyOptions_eq nested _ _ _ longOptions_distinct]
      cases found : longOptions.find? fun option => option.name = setting.1 with
      | none => exact ⟨loader, rfl, keeps_same _ loader⟩
      | some option =>
          have named : option.name = setting.1 := by simpa using List.find?_some found
          obtain ⟨input, mapping, config⟩ := option_letter (List.mem_of_find?_eq_some found)
          rw [named] at input mapping config
          have kept (value : CString) := parseArgument_keeps nested value loader
            (fun letter => not_input (input letter)) (fun letter => not_mapping (mapping letter))
            (fun letter => not_config (config letter))
          change ∃ after, applyOption nested setting.2 loader option = .ok after ∧
            Keeps (optionFields option.val) loader after
          unfold applyOption
          split_ifs
          · exact kept setting.2
          · exact kept []
          · exact ⟨loader, rfl, keeps_same _ loader⟩

/-- The option `mapping` clears `sops`. -/
theorem applySetting_mapping (value : CString) (loader : Loader) :
    applySetting nested loader ("mapping".toList, value) =
      change loader { loader.config with sops := false } := by
  exact applySetting_option nested ⟨"mapping".toList, true, 'k'⟩ value loader (option_at 9 rfl)
    ⟨by decide, by decide⟩

theorem line_keeps_iff {line key value : CString} (loader : Loader)
    (read : scanLine line = some (key, value)) (not_input : key ≠ "input".toList)
    (not_config : key ≠ "config".toList) :
    ∃ after, applyLine nested loader line = .ok after ∧
      (Keeps (settingFields key) loader after ↔
        (key = "mapping".toList → loader.config.sops = false)) := by
  have applied : applyLine nested loader line = applySetting nested loader (key, value) := by
    rw [applyLine, read]
  rw [applied]
  by_cases mapping : key = "mapping".toList
  · subst mapping
    refine ⟨{ loader with config := { loader.config with sops := false } },
      applySetting_mapping nested value loader, ?_⟩
    have fields : settingFields "mapping".toList = [] := by decide
    rw [fields]
    constructor
    · intro kept _
      exact congrArg Configuration.sops kept.changes
    · intro cleared
      refine ⟨rfl, (changes_nothing_iff _ _).mpr ?_⟩
      exact congrArg (fun sops => { loader.config with sops := sops }) (cleared rfl)
  · obtain ⟨after, result, kept⟩ :=
      @applySetting_keeps nested (key, value) loader not_input mapping not_config
    refine ⟨after, result, ?_⟩
    constructor
    · intro _ same
      exact absurd same mapping
    · intro _
      exact kept

end Lines

theorem encrypt_line_keeps : ∃ after,
    applyLine (fun _ loader => .ok (true, loader)) ⟨defaults, 0⟩ "encrypt = all\n".toList =
        .ok after ∧
      Keeps (settingFields "encrypt".toList) ⟨defaults, 0⟩ after := by
  have read : scanLine "encrypt = all\n".toList = some ("encrypt".toList, "all".toList) := by
    decide
  obtain ⟨after, applied, kept⟩ := line_keeps_iff (fun _ loader => .ok (true, loader))
    ⟨defaults, 0⟩ read (by decide) (by decide)
  refine ⟨after, applied, kept.mpr ?_⟩
  intro same
  exact absurd same (by decide)

/-- The settings of the game are no longer optimised. -/
theorem mapping_line_clears_sops : ¬ ∃ after,
    applyLine (fun _ loader => .ok (true, loader)) ⟨defaults, 0⟩ "mapping = pad.conf\n".toList =
        .ok after ∧
      Keeps (settingFields "mapping".toList) ⟨defaults, 0⟩ after := by
  intro ⟨after, applied, kept⟩
  have read : scanLine "mapping = pad.conf\n".toList =
      some ("mapping".toList, "pad.conf".toList) := by
    decide
  have fields : settingFields "mapping".toList = [] := by decide
  rw [applyLine, read] at applied
  simp only [applySetting_mapping] at applied
  cases applied
  rw [fields] at kept
  exact absurd (congrArg Configuration.sops kept.changes) (by decide)

end MoonlightWii.App.SettingFrame
