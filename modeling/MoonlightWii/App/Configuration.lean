import MoonlightWii.Gamestream.Errors

/-!
# The configuration and its options (`config.h`, `config.c`)

`parse_argument` with the values that its options store.  An `int` is an
`Int32`; `autostream` and `inputAdded` are globals of the program that the
options set, and stand here beside the fields.
-/

set_option autoImplicit false

namespace MoonlightWii.App.Configuration

open MoonlightWii.Gamestream.Errors

/-- `STREAM_CFG_LOCAL`, `STREAM_CFG_REMOTE`, `STREAM_CFG_AUTO`. -/
inductive StreamCfg where
  | «local»
  | remote
  | auto
  deriving DecidableEq

inductive Codec where
  | unspecified
  | h264
  | hevc
  | av1
  deriving DecidableEq

def encflgNone : Nat := 0

def encflgAudio : Nat := 1

def encflgVideo : Nat := 2

/-- `MAKE_AUDIO_CONFIGURATION` -/
def makeAudioConfiguration (channelCount channelMask : Nat) : Nat :=
  channelMask * 65536 + channelCount * 256 + 0xCA

def audioConfigurationStereo : Nat := makeAudioConfiguration 2 0x3

def audioConfiguration51Surround : Nat := makeAudioConfiguration 6 0x3F

def audioConfiguration71Surround : Nat := makeAudioConfiguration 8 0x63F

def maxInputs : Nat := 6

structure Configuration where
  width : Int32
  height : Int32
  fps : Int32
  bitrate : Int32
  packetSize : Int32
  streamingRemotely : StreamCfg
  audioConfiguration : Nat
  encryptionFlags : Nat
  debugLevel : Nat
  app : CString
  address : Option CString
  platform : CString
  audioDevice : Option CString
  configFile : Option CString
  keyDir : CString
  sops : Bool
  localaudio : Bool
  fullscreen : Bool
  rotate : Int32
  unsupported : Bool
  quitappafter : Bool
  viewonly : Bool
  mouseEmulation : Bool
  inputs : List CString
  codec : Codec
  hdr : Bool
  pin : Int32
  port : UInt16
  osdOverscan : Int32
  tlsTest : Option CString
  autostream : Bool
  inputAdded : Bool
  deriving DecidableEq

/-- What `config_parse` stores before it reads a file. -/
def defaults : Configuration where
  width := 640
  height := 480
  fps := 30
  bitrate := -1
  packetSize := 1392
  streamingRemotely := .auto
  audioConfiguration := audioConfigurationStereo
  encryptionFlags := encflgNone
  debugLevel := 0
  app := "Steam".toList
  address := none
  platform := "auto".toList
  audioDevice := none
  configFile := none
  keyDir := "/moonlight/keys".toList
  sops := true
  localaudio := false
  fullscreen := true
  rotate := 0
  unsupported := true
  quitappafter := false
  viewonly := false
  mouseEmulation := true
  inputs := []
  codec := .h264
  hdr := false
  pin := 0
  port := 47989
  osdOverscan := 0
  tlsTest := none
  autostream := false
  inputAdded := false

/-! ## Options -/

structure LongOption where
  name : CString
  requiredArgument : Bool
  val : Char

def longOptions : List LongOption :=
  [⟨"720".toList, false, 'a'⟩, ⟨"1080".toList, false, 'b'⟩, ⟨"4k".toList, false, '0'⟩,
    ⟨"width".toList, true, 'c'⟩, ⟨"height".toList, true, 'd'⟩, ⟨"bitrate".toList, true, 'g'⟩,
    ⟨"packetsize".toList, true, 'h'⟩, ⟨"app".toList, true, 'i'⟩, ⟨"input".toList, true, 'j'⟩,
    ⟨"mapping".toList, true, 'k'⟩, ⟨"nosops".toList, false, 'l'⟩, ⟨"audio".toList, true, 'm'⟩,
    ⟨"localaudio".toList, false, 'n'⟩, ⟨"config".toList, true, 'o'⟩,
    ⟨"platform".toList, true, 'p'⟩, ⟨"save".toList, true, 'q'⟩, ⟨"keydir".toList, true, 'r'⟩,
    ⟨"remote".toList, true, 's'⟩, ⟨"windowed".toList, false, 't'⟩,
    ⟨"surround".toList, true, 'u'⟩, ⟨"fps".toList, true, 'v'⟩, ⟨"codec".toList, true, 'x'⟩,
    ⟨"nounsupported".toList, false, 'y'⟩, ⟨"quitappafter".toList, false, '1'⟩,
    ⟨"viewonly".toList, false, '2'⟩, ⟨"rotate".toList, true, '3'⟩,
    ⟨"verbose".toList, false, 'z'⟩, ⟨"debug".toList, false, 'Z'⟩,
    ⟨"autostream".toList, false, 'C'⟩, ⟨"nomouseemulation".toList, false, '4'⟩,
    ⟨"pin".toList, true, '5'⟩, ⟨"port".toList, true, '6'⟩, ⟨"hdr".toList, false, '7'⟩,
    ⟨"osd_overscan".toList, true, '8'⟩, ⟨"tls_test".toList, true, '9'⟩,
    ⟨"encrypt".toList, true, 'e'⟩]

/-- Two texts are equal without regard to the case of letters. -/
def strcasecmp (left : CString) (right : String) : Bool :=
  left.map Char.toLower == right.toList.map Char.toLower

def atoiInt (value : CString) : Int32 := Int32.ofInt (atoi value)

/-- The program ends, or a file includes files deeper than the run follows. -/
inductive Stop where
  | exited
  | tooDeep
  deriving DecidableEq

/-- The configuration, and how many line buffers have been allocated. -/
structure Loader where
  config : Configuration
  buffers : Nat

def change (loader : Loader) (config : Configuration) : Except Stop Loader :=
  .ok { loader with config := config }

/-- `parse_argument`, with `config_file_parse` for the option `config`.  An option
without an argument does not read `value`. -/
def parseArgument (configFileParse : CString → Loader → Except Stop (Bool × Loader)) (c : Char)
    (value : CString) (loader : Loader) : Except Stop Loader :=
  let config := loader.config
  match c with
  | 'a' => change loader { config with width := 1280, height := 720 }
  | 'b' => change loader { config with width := 1920, height := 1080 }
  | '0' => change loader { config with width := 3840, height := 2160 }
  | 'c' => change loader { config with width := atoiInt value }
  | 'd' => change loader { config with height := atoiInt value }
  | 'g' => change loader { config with bitrate := atoiInt value }
  | 'h' => change loader { config with packetSize := atoiInt value }
  | 'i' => change loader { config with app := value }
  | 'j' =>
      if maxInputs ≤ config.inputs.length then .error .exited
      else change loader { config with inputs := config.inputs ++ [value], inputAdded := true }
  -- `mapping` falls through to `nosops`.
  | 'k' => change loader { config with sops := false }
  | 'l' => change loader { config with sops := false }
  | 'm' => change loader { config with audioDevice := some value }
  | 'n' => change loader { config with localaudio := true }
  | 'o' => do
      let (parsed, loaded) ← configFileParse value loader
      if parsed then .ok loaded else .error .exited
  | 'p' => change loader { config with platform := value }
  | 'q' => change loader { config with configFile := some value }
  | 'r' => change loader { config with keyDir := value }
  | 's' =>
      if strcasecmp value "auto" then change loader { config with streamingRemotely := .auto }
      else if strcasecmp value "true" || strcasecmp value "yes" then
        change loader { config with streamingRemotely := .remote }
      else if strcasecmp value "false" || strcasecmp value "no" then
        change loader { config with streamingRemotely := .local }
      else .ok loader
  | 't' => change loader { config with fullscreen := false }
  | 'u' =>
      if strcasecmp value "5.1" then
        change loader { config with audioConfiguration := audioConfiguration51Surround }
      else if strcasecmp value "7.1" then
        change loader { config with audioConfiguration := audioConfiguration71Surround }
      else .ok loader
  | 'v' => change loader { config with fps := atoiInt value }
  | 'x' =>
      if strcasecmp value "auto" then change loader { config with codec := .unspecified }
      else if strcasecmp value "h264" then change loader { config with codec := .h264 }
      else if strcasecmp value "h265" || strcasecmp value "hevc" then
        change loader { config with codec := .hevc }
      else if strcasecmp value "av1" then change loader { config with codec := .av1 }
      else .ok loader
  | 'y' => change loader { config with unsupported := false }
  | '1' => change loader { config with quitappafter := true }
  | '2' => change loader { config with viewonly := true }
  | '3' => change loader { config with rotate := atoiInt value }
  | 'z' => change loader { config with debugLevel := 1 }
  | 'Z' => change loader { config with debugLevel := 2 }
  | 'C' => change loader { config with autostream := true }
  | '4' => change loader { config with mouseEmulation := false }
  | '5' => change loader { config with pin := atoiInt value }
  | '6' => change loader { config with port := UInt16.ofInt (atoi value) }
  | '7' => change loader { config with hdr := true }
  | '8' => change loader { config with osdOverscan := atoiInt value }
  | '9' => change loader { config with tlsTest := some value }
  | 'e' =>
      if strcasecmp value "none" then change loader { config with encryptionFlags := encflgNone }
      else if strcasecmp value "audio" then
        change loader { config with encryptionFlags := encflgAudio }
      else if strcasecmp value "video" then
        change loader { config with encryptionFlags := encflgVideo }
      else if strcasecmp value "all" then
        change loader { config with encryptionFlags := encflgAudio ||| encflgVideo }
      else .ok loader
  | _ => .ok loader

end MoonlightWii.App.Configuration
