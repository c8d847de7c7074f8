import Mathlib.Data.Nat.Bitwise
import MoonlightWii.App.SettingLines
import MoonlightWii.Gamestream.Numbers

/-!
# What `config_save` writes and `config_parse` reads back

The reader starts from its defaults; each setting that the writer leaves out is one
that has its default value.
-/

set_option autoImplicit false

namespace MoonlightWii.App.SavedConfig

open Foundation.TextRun
open MoonlightWii.App.Configuration
open MoonlightWii.App.ConfigFile
open MoonlightWii.App.SettingLines
open MoonlightWii.Gamestream.Errors
open MoonlightWii.Gamestream.Numbers

/-! ## The settings in the file -/

def settingIf (condition : Bool) (setting : Setting) : List Setting :=
  if condition then [setting] else []

def settingOf (key : String) : Option CString → List Setting
  | some value => [(key.toList, value)]
  | none => []

def boolText (value : Bool) : CString := if value then "true".toList else "false".toList

def streamSettings (config : Configuration) : List Setting :=
  [("width".toList, decimal config.width.toInt),
    ("height".toList, decimal config.height.toInt),
    ("fps".toList, decimal config.fps.toInt),
    ("bitrate".toList, decimal config.bitrate.toInt),
    ("packetsize".toList, decimal config.packetSize.toInt),
    ("encrypt".toList, encryptionFlagsString config.encryptionFlags)]

/-- The settings of the lines that `config_save` writes, in order. -/
def savedSettings (config : Configuration) : List Setting :=
  settingOf "address" config.address ++ (streamSettings config ++
    (settingIf (!config.sops) ("sops".toList, boolText config.sops) ++
    (settingIf config.localaudio ("localaudio".toList, boolText config.localaudio) ++
    (settingIf config.quitappafter ("quitappafter".toList, boolText config.quitappafter) ++
    (settingIf config.viewonly ("viewonly".toList, boolText config.viewonly) ++
    (settingIf (config.rotate != 0) ("rotate".toList, decimal config.rotate.toInt) ++
    (settingIf (config.osdOverscan != 0)
        ("osd_overscan".toList, decimal config.osdOverscan.toInt) ++
    (settingIf (config.app != "Steam".toList) ("app".toList, config.app) ++
    settingOf "tls_test" config.tlsTest))))))))

theorem writeOptional_lines (key : String) (value : Option CString) :
    writeOptional key value = (settingOf key value).flatMap settingLine := by
  cases value with
  | none => rfl
  | some value => exact (List.flatMap_singleton _ _).symm

theorem writeIf_lines (condition : Bool) (setting : Setting) :
    writeIf condition (settingLine setting) = (settingIf condition setting).flatMap settingLine := by
  cases condition with
  | false => rfl
  | true => exact (List.flatMap_singleton _ _).symm

theorem configSave_lines (config : Configuration) :
    configSave config = (savedSettings config).flatMap settingLine := by
  simp only [savedSettings, List.flatMap_append, ← writeIf_lines, ← writeOptional_lines,
    streamSettings, List.flatMap_cons, List.flatMap_nil, List.append_nil]
  simp only [configSave, List.append_assoc]
  rfl

/-! ## Every line can be read -/

/-- The texts of the configuration can stand in a line. -/
structure Writable (config : Configuration) : Prop where
  address : ∀ value ∈ config.address, Value value
  app : Value config.app
  tlsTest : ∀ value ∈ config.tlsTest, Value value

theorem isSpace_decimal {value : Int} {char : Char} (member : char ∈ decimal value) :
    isSpace char = false ∧ char ≠ '\n' ∧ char ≠ nul := by
  rcases (decimal_chars value).2 char member with rfl | digit
  · decide
  · have bounds := digit_bounds digit
    refine ⟨not_isSpace_of_digit digit, ?_, ?_⟩
    · rintro rfl
      exact absurd bounds (by decide)
    · rintro rfl
      exact absurd bounds (by decide)

theorem length_repr_int32 (value : Int32) : (decimal value.toInt).length < 4096 := by
  have low := Int32.le_toInt value
  have high := Int32.toInt_lt value
  have digits : (decimal value.toInt).length ≤ 11 := decimal_length (by omega) (by omega)
  omega

theorem value_decimal (value : Int32) : Value (decimal value.toInt) := by
  constructor
  · exact (decimal_chars _).1
  · exact length_repr_int32 value
  · intro first start
    exact (isSpace_decimal (List.mem_of_mem_head? start)).1
  · exact fun member => (isSpace_decimal member).2.1 rfl
  · exact fun member => (isSpace_decimal member).2.2 rfl

theorem value_boolText (value : Bool) : Value (boolText value) := by
  cases value <;> exact ⟨by decide, by decide, stops_cons (by decide) _, by decide, by decide⟩

theorem value_encryption (flags : Nat) : Value (encryptionFlagsString flags) := by
  unfold encryptionFlagsString
  simp only
  split
  · exact ⟨by decide, by decide, stops_cons (by decide) _, by decide, by decide⟩
  · split
    · exact ⟨by decide, by decide, stops_cons (by decide) _, by decide, by decide⟩
    · split
      · exact ⟨by decide, by decide, stops_cons (by decide) _, by decide, by decide⟩
      · exact ⟨by decide, by decide, stops_cons (by decide) _, by decide, by decide⟩

/-- A setting whose line can be read. -/
def Readable (setting : Setting) : Prop := Key setting.1 ∧ Value setting.2

def plainKey (key : String) : Bool :=
  key.toList != [] && decide (key.toList.length < 1024) &&
    key.toList.all fun char => !isSpace char && char != nul

theorem key_of_plain {key : String} (plain : plainKey key = true) : Key key.toList := by
  simp only [plainKey, Bool.and_eq_true, bne_iff_ne, decide_eq_true_eq, List.all_eq_true,
    Bool.not_eq_true'] at plain
  obtain ⟨⟨nonempty, short⟩, all⟩ := plain
  exact ⟨nonempty, short, fun char member => (all char member).1,
    fun member => (all nul member).2 rfl⟩

theorem readable_value (key : String) {value : CString} (plain : plainKey key = true)
    (valid : Value value) : Readable (key.toList, value) :=
  ⟨key_of_plain plain, valid⟩

theorem readable_settingIf (key : String) {condition : Bool} {value : CString}
    (plain : plainKey key = true) (valid : Value value) :
    ∀ setting ∈ settingIf condition (key.toList, value), Readable setting := by
  intro setting member
  cases condition with
  | false => cases member
  | true =>
      rw [List.mem_singleton.mp member]
      exact readable_value key plain valid

theorem readable_settingOf (key : String) {value : Option CString} (plain : plainKey key = true)
    (valid : ∀ text ∈ value, Value text) : ∀ setting ∈ settingOf key value, Readable setting := by
  intro setting member
  cases value with
  | none => cases member
  | some text =>
      rw [List.mem_singleton.mp member]
      exact readable_value key plain (valid text rfl)

theorem readable_streamSettings (config : Configuration) :
    ∀ setting ∈ streamSettings config, Readable setting := by
  simp only [streamSettings, List.forall_mem_cons]
  exact ⟨readable_value "width" rfl (value_decimal _),
    readable_value "height" rfl (value_decimal _), readable_value "fps" rfl (value_decimal _),
    readable_value "bitrate" rfl (value_decimal _),
    readable_value "packetsize" rfl (value_decimal _),
    readable_value "encrypt" rfl (value_encryption _), fun _ member => nomatch member⟩

theorem readable_savedSettings {config : Configuration} (writable : Writable config) :
    ∀ setting ∈ savedSettings config, Readable setting := by
  simp only [savedSettings, List.forall_mem_append]
  exact ⟨readable_settingOf "address" rfl writable.address,
    readable_streamSettings config,
    readable_settingIf "sops" rfl (value_boolText _),
    readable_settingIf "localaudio" rfl (value_boolText _),
    readable_settingIf "quitappafter" rfl (value_boolText _),
    readable_settingIf "viewonly" rfl (value_boolText _),
    readable_settingIf "rotate" rfl (value_decimal _),
    readable_settingIf "osd_overscan" rfl (value_decimal _),
    readable_settingIf "app" rfl writable.app,
    readable_settingOf "tls_test" rfl writable.tlsTest⟩

theorem settingText_clean {setting : Setting} (readable : Readable setting) :
    nul ∉ settingText setting ∧ '\n' ∉ settingText setting := by
  obtain ⟨key, value⟩ := readable
  simp only [settingText, List.mem_append, not_or]
  refine ⟨⟨⟨key.ended, by decide⟩, value.ended⟩, ⟨fun member => ?_, by decide⟩, value.oneLine⟩
  exact absurd (key.unspaced _ member) (by decide)

theorem getlines_settings {buffer : LineBuffer} {settings : List Setting} (holds : Holds buffer [])
    (readable : ∀ setting ∈ settings, Readable setting) :
    getlines buffer 0 (settings.flatMap settingLine) = settings.map settingLine := by
  have read := getlines_lines (settings.map settingText) holds
    (List.forall_mem_map.mpr fun setting member =>
      (settingText_clean (readable setting member)).1)
    (List.forall_mem_map.mpr fun setting member =>
      (settingText_clean (readable setting member)).2)
  rw [List.flatMap_map, List.map_map] at read
  exact read

/-! ## What a line stores -/

section Reading

variable (nested : CString → Loader → Except Stop (Bool × Loader))

theorem applyLines_settings {settings : List Setting} (loader : Loader)
    (readable : ∀ setting ∈ settings, Readable setting) :
    (settings.map settingLine).foldlM (applyLine nested) loader =
      settings.foldlM (applySetting nested) loader := by
  rw [List.foldlM_map]
  induction settings generalizing loader with
  | nil => rfl
  | cons setting settings ih =>
      obtain ⟨key, value⟩ := readable setting List.mem_cons_self
      have line (loader : Loader) :
          applyLine nested loader (settingLine setting) = applySetting nested loader setting := by
        rw [applyLine, scanLine_settingLine key value]
      simp only [List.foldlM_cons, line]
      congr 1
      funext next
      exact ih next fun other member => readable other (List.mem_cons_of_mem _ member)

/-- The settings turn the one configuration into the other. -/
def Restores (settings : List Setting) (before after : Configuration) : Prop :=
  ∀ nested buffers, settings.foldlM (applySetting nested) ⟨before, buffers⟩ = .ok ⟨after, buffers⟩

end Reading

theorem restores_append {first later : List Setting} {before between after : Configuration}
    (head : Restores first before between) (tail : Restores later between after) :
    Restores (first ++ later) before after := by
  intro nested buffers
  rw [List.foldlM_append, head nested buffers]
  exact tail nested buffers

theorem restores_nil {before after : Configuration} (same : before = after) :
    Restores [] before after := by
  intro nested buffers
  rw [same]
  rfl

theorem restores_option (option : LongOption) {value : CString} {before after : Configuration}
    (listed : option ∈ longOptions)
    (ordinary : option.name ≠ "address".toList ∧ option.name ≠ "sops".toList)
    (applied : ∀ nested buffers,
      applyOption nested value ⟨before, buffers⟩ option = .ok ⟨after, buffers⟩) :
    Restores [(option.name, value)] before after := by
  intro nested buffers
  rw [List.foldlM_cons, applySetting_option nested option value _ listed ordinary, applied]
  rfl

theorem restores_if {condition : Bool} {setting : Setting} {before after : Configuration}
    (written : Restores [setting] before after) (omitted : condition = false → before = after) :
    Restores (settingIf condition setting) before after := by
  cases condition with
  | false => exact restores_nil (omitted rfl)
  | true => exact written

theorem atoiInt_decimal (value : Int32) : atoiInt (decimal value.toInt) = value := by
  have low := Int32.le_toInt value
  have high := Int32.toInt_lt value
  have read : atoi (decimal value.toInt ++ []) = value.toInt :=
    atoi_decimal (by omega) (by omega) (stops_nil _)
  rw [List.append_nil] at read
  rw [atoiInt, read, Int32.ofInt_toInt]


/-- An option whose value `atoi` reads. -/
theorem restores_number (option : LongOption) {before after : Configuration} (value : Int32)
    (listed : option ∈ longOptions)
    (ordinary : option.name ≠ "address".toList ∧ option.name ≠ "sops".toList)
    (applied : ∀ nested text buffers, atoiInt text = value →
      applyOption nested text ⟨before, buffers⟩ option = .ok ⟨after, buffers⟩) :
    Restores [(option.name, decimal value.toInt)] before after :=
  restores_option option listed ordinary fun nested buffers =>
    applied nested _ buffers (atoiInt_decimal value)

/-! ## Each setting -/

section Each

variable (config : Configuration)

theorem restores_address (address : Option CString) (missing : config.address = none) :
    Restores (settingOf "address" address) config { config with address := address } := by
  cases address with
  | none => exact restores_nil (by rw [← missing])
  | some value => exact fun _ _ => rfl

theorem restores_width (width : Int32) :
    Restores [("width".toList, decimal width.toInt)] config { config with width := width } := by
  apply restores_number ⟨"width".toList, true, 'c'⟩ width (option_at 3 rfl) (by decide)
  rintro nested text buffers rfl
  rfl

theorem restores_height (height : Int32) :
    Restores [("height".toList, decimal height.toInt)] config
      { config with height := height } := by
  apply restores_number ⟨"height".toList, true, 'd'⟩ height (option_at 4 rfl) (by decide)
  rintro nested text buffers rfl
  rfl

theorem restores_fps (fps : Int32) :
    Restores [("fps".toList, decimal fps.toInt)] config { config with fps := fps } := by
  apply restores_number ⟨"fps".toList, true, 'v'⟩ fps (option_at 20 rfl) (by decide)
  rintro nested text buffers rfl
  rfl

theorem restores_bitrate (bitrate : Int32) :
    Restores [("bitrate".toList, decimal bitrate.toInt)] config
      { config with bitrate := bitrate } := by
  apply restores_number ⟨"bitrate".toList, true, 'g'⟩ bitrate (option_at 5 rfl) (by decide)
  rintro nested text buffers rfl
  rfl

theorem restores_packetSize (size : Int32) :
    Restores [("packetsize".toList, decimal size.toInt)] config
      { config with packetSize := size } := by
  apply restores_number ⟨"packetsize".toList, true, 'h'⟩ size (option_at 6 rfl) (by decide)
  rintro nested text buffers rfl
  rfl

/-- The flags that the text of an encryption setting stands for. -/
def storedEncryption (flags : Nat) : Nat :=
  (flags &&& encflgAudio) ||| (flags &&& encflgVideo)

theorem and_two_pow_cases (flags bit : Nat) :
    flags &&& 2 ^ bit = 0 ∨ flags &&& 2 ^ bit = 2 ^ bit := by
  rw [Nat.and_two_pow]
  cases flags.testBit bit with
  | false => exact .inl (Nat.zero_mul _)
  | true => exact .inr (Nat.one_mul _)

theorem restores_encryption (flags : Nat) :
    Restores [("encrypt".toList, encryptionFlagsString flags)] config
      { config with encryptionFlags := storedEncryption flags } := by
  apply restores_option ⟨"encrypt".toList, true, 'e'⟩ (option_at 35 rfl) (by decide)
  intro nested buffers
  have audio : flags &&& encflgAudio = 0 ∨ flags &&& encflgAudio = encflgAudio :=
    and_two_pow_cases flags 0
  have video : flags &&& encflgVideo = 0 ∨ flags &&& encflgVideo = encflgVideo :=
    and_two_pow_cases flags 1
  unfold encryptionFlagsString storedEncryption
  rcases audio with audio | audio
  · rcases video with video | video
    · rw [audio, video]
      rfl
    · rw [audio, video]
      rfl
  · rcases video with video | video
    · rw [audio, video]
      rfl
    · rw [audio, video]
      rfl

theorem restores_sops (sops : Bool) (enabled : config.sops = true) :
    Restores (settingIf (!sops) ("sops".toList, boolText sops)) config
      { config with sops := sops } := by
  cases sops with
  | false => exact fun _ _ => rfl
  | true => exact restores_nil (by rw [← enabled])

theorem restores_localaudio (localaudio : Bool) (disabled : config.localaudio = false) :
    Restores (settingIf localaudio ("localaudio".toList, boolText localaudio)) config
      { config with localaudio := localaudio } := by
  cases localaudio with
  | false => exact restores_nil (by rw [← disabled])
  | true =>
      apply restores_option ⟨"localaudio".toList, false, 'n'⟩ (option_at 12 rfl) (by decide)
      exact fun _ _ => rfl

theorem restores_quitappafter (quitappafter : Bool) (disabled : config.quitappafter = false) :
    Restores (settingIf quitappafter ("quitappafter".toList, boolText quitappafter)) config
      { config with quitappafter := quitappafter } := by
  cases quitappafter with
  | false => exact restores_nil (by rw [← disabled])
  | true =>
      apply restores_option ⟨"quitappafter".toList, false, '1'⟩ (option_at 23 rfl) (by decide)
      exact fun _ _ => rfl

theorem restores_viewonly (viewonly : Bool) (disabled : config.viewonly = false) :
    Restores (settingIf viewonly ("viewonly".toList, boolText viewonly)) config
      { config with viewonly := viewonly } := by
  cases viewonly with
  | false => exact restores_nil (by rw [← disabled])
  | true =>
      apply restores_option ⟨"viewonly".toList, false, '2'⟩ (option_at 24 rfl) (by decide)
      exact fun _ _ => rfl

theorem restores_rotate (rotate : Int32) (upright : config.rotate = 0) :
    Restores (settingIf (rotate != 0) ("rotate".toList, decimal rotate.toInt)) config
      { config with rotate := rotate } := by
  apply restores_if
  · apply restores_number ⟨"rotate".toList, true, '3'⟩ rotate (option_at 25 rfl) (by decide)
    rintro nested text buffers rfl
    rfl
  · intro zero
    rw [bne_eq_false_iff_eq.mp zero, ← upright]

theorem restores_osdOverscan (overscan : Int32) (plain : config.osdOverscan = 0) :
    Restores (settingIf (overscan != 0) ("osd_overscan".toList, decimal overscan.toInt)) config
      { config with osdOverscan := overscan } := by
  apply restores_if
  · apply restores_number ⟨"osd_overscan".toList, true, '8'⟩ overscan (option_at 33 rfl) (by decide)
    rintro nested text buffers rfl
    rfl
  · intro zero
    rw [bne_eq_false_iff_eq.mp zero, ← plain]

theorem restores_app (app : CString) (steam : config.app = "Steam".toList) :
    Restores (settingIf (app != "Steam".toList) ("app".toList, app)) config
      { config with app := app } := by
  apply restores_if
  · apply restores_option ⟨"app".toList, true, 'i'⟩ (option_at 7 rfl) (by decide)
    exact fun _ _ => rfl
  · intro same
    rw [bne_eq_false_iff_eq.mp same, ← steam]

theorem restores_tlsTest (host : Option CString) (missing : config.tlsTest = none) :
    Restores (settingOf "tls_test" host) config { config with tlsTest := host } := by
  cases host with
  | none => exact restores_nil (by rw [← missing])
  | some value =>
      apply restores_option ⟨"tls_test".toList, true, '9'⟩ (option_at 34 rfl) (by decide)
      exact fun _ _ => rfl

end Each

/-! ## The whole file -/

/-- The configuration that the lines of another make out of the defaults. -/
def restored (config : Configuration) : Configuration :=
  { defaults with
    address := config.address
    width := config.width
    height := config.height
    fps := config.fps
    bitrate := config.bitrate
    packetSize := config.packetSize
    encryptionFlags := storedEncryption config.encryptionFlags
    sops := config.sops
    localaudio := config.localaudio
    quitappafter := config.quitappafter
    viewonly := config.viewonly
    rotate := config.rotate
    osdOverscan := config.osdOverscan
    app := config.app
    tlsTest := config.tlsTest }

theorem restores_streamSettings (before config : Configuration) :
    Restores (streamSettings config) before
      { before with
        width := config.width, height := config.height, fps := config.fps,
        bitrate := config.bitrate, packetSize := config.packetSize,
        encryptionFlags := storedEncryption config.encryptionFlags } :=
  restores_append (restores_width before config.width) <|
    restores_append (restores_height _ config.height) <|
    restores_append (restores_fps _ config.fps) <|
    restores_append (restores_bitrate _ config.bitrate) <|
    restores_append (restores_packetSize _ config.packetSize) <|
    restores_encryption _ config.encryptionFlags

theorem restores_savedSettings (config : Configuration) :
    Restores (savedSettings config) defaults (restored config) :=
  restores_append (restores_address defaults config.address rfl) <|
    restores_append (restores_streamSettings _ config) <|
    restores_append (restores_sops _ config.sops rfl) <|
    restores_append (restores_localaudio _ config.localaudio rfl) <|
    restores_append (restores_quitappafter _ config.quitappafter rfl) <|
    restores_append (restores_viewonly _ config.viewonly rfl) <|
    restores_append (restores_rotate _ config.rotate rfl) <|
    restores_append (restores_osdOverscan _ config.osdOverscan rfl) <|
    restores_append (restores_app _ config.app rfl) <|
    restores_tlsTest _ config.tlsTest rfl

theorem configParse_settings (scale : Nat → Int32 → Int32) {files : Files} (depth : Nat)
    {settings : List Setting} {config : Configuration}
    (content : files.content configPath = some (settings.flatMap settingLine))
    (readable : ∀ setting ∈ settings, Readable setting)
    (restores : Restores settings defaults config) :
    configParse scale files (depth + 1) = .ok (chooseBitrate scale config) := by
  have read := getlines_settings (newBuffer_holds (files.heap 0)) readable
  unfold configParse configFileParse
  simp only [content, read, applyLines_settings _ _ readable]
  rw [restores]
  rfl

theorem configParse_saved (scale : Nat → Int32 → Int32) (files : Files) (depth : Nat)
    {config : Configuration} (writable : Writable config) :
    configParse scale (saveConfig files config) (depth + 1) =
      .ok (chooseBitrate scale (restored config)) := by
  have content : (saveConfig files config).content configPath =
      some ((savedSettings config).flatMap settingLine) := by
    simp only [saveConfig, if_true, configSave_lines]
  exact configParse_settings scale depth content (readable_savedSettings writable)
    (restores_savedSettings config)

/-- The settings that have a line of their own in the file are the same. -/
structure SameSaved (left right : Configuration) : Prop where
  address : left.address = right.address
  width : left.width = right.width
  height : left.height = right.height
  fps : left.fps = right.fps
  bitrate : left.bitrate = right.bitrate
  packetSize : left.packetSize = right.packetSize
  audioEncryption : left.encryptionFlags &&& encflgAudio = right.encryptionFlags &&& encflgAudio
  videoEncryption : left.encryptionFlags &&& encflgVideo = right.encryptionFlags &&& encflgVideo
  sops : left.sops = right.sops
  localaudio : left.localaudio = right.localaudio
  quitappafter : left.quitappafter = right.quitappafter
  viewonly : left.viewonly = right.viewonly
  rotate : left.rotate = right.rotate
  osdOverscan : left.osdOverscan = right.osdOverscan
  app : left.app = right.app
  tlsTest : left.tlsTest = right.tlsTest

theorem storedEncryption_audio (flags : Nat) :
    storedEncryption flags &&& encflgAudio = flags &&& encflgAudio := by
  have apart : encflgVideo &&& encflgAudio = 0 := rfl
  rw [storedEncryption, Nat.and_or_distrib_right, Nat.and_assoc, Nat.and_assoc, Nat.and_self,
    apart, Nat.and_zero, Nat.or_zero]

theorem storedEncryption_video (flags : Nat) :
    storedEncryption flags &&& encflgVideo = flags &&& encflgVideo := by
  have apart : encflgAudio &&& encflgVideo = 0 := rfl
  rw [storedEncryption, Nat.and_or_distrib_right, Nat.and_assoc, Nat.and_assoc, Nat.and_self,
    apart, Nat.and_zero, Nat.zero_or]

/-- A configuration that has been written is read back, for every setting that the
file has a line for. -/
theorem saved_configuration_restored (scale : Nat → Int32 → Int32) (files : Files) (depth : Nat)
    (config : Configuration) (writable : Writable config) (chosen : config.bitrate ≠ -1) :
    ∃ loaded, configParse scale (saveConfig files config) (depth + 1) = .ok loaded ∧
      SameSaved loaded config := by
  have bitrate : chooseBitrate scale (restored config) = restored config := if_neg chosen
  refine ⟨restored config, ?_, ?_⟩
  · rw [configParse_saved scale files depth writable, bitrate]
  · constructor
    case audioEncryption => exact storedEncryption_audio config.encryptionFlags
    case videoEncryption => exact storedEncryption_video config.encryptionFlags
    all_goals rfl

theorem edited_configuration_restored : ∃ loaded,
    configParse (fun _ _ => 5000) (saveConfig ⟨fun _ => none, fun _ _ => 'x'⟩
      { defaults with
        address := some "192.168.1.100".toList, bitrate := 5000, encryptionFlags := 3,
        sops := false, app := "Desktop".toList }) 1 = .ok loaded ∧
      SameSaved loaded { defaults with
        address := some "192.168.1.100".toList, bitrate := 5000, encryptionFlags := 3,
        sops := false, app := "Desktop".toList } := by
  apply saved_configuration_restored
  · constructor
    · rintro value ⟨⟩
      exact ⟨by decide, by decide, stops_cons (by decide) _, by decide, by decide⟩
    · exact ⟨by decide, by decide, stops_cons (by decide) _, by decide, by decide⟩
    · rintro value ⟨⟩
  · decide

end MoonlightWii.App.SavedConfig
