import MoonlightWii.App.Configuration
import MoonlightWii.Foundation.ByteMemory

/-!
# Reading and writing the configuration file (`config.c`, `compat.c`)

`getline` of the Wii build writes a terminator only after a line end, so that the
text `sscanf` reads from a last line without one goes on with what the buffer held
before.  Memory is available, and its first content is arbitrary.
-/

set_option autoImplicit false

namespace MoonlightWii.App.ConfigFile

open Foundation.ByteMemory
open MoonlightWii.App.Configuration
open MoonlightWii.Gamestream.Errors

def nul : Char := Char.ofNat 0

/-! ## Lines -/

/-- `*buf` and `*bufsiz`; the bytes beyond the size are those that `realloc` brings. -/
structure LineBuffer where
  bytes : Nat → Char
  bufsiz : Nat

def LineBuffer.store (buffer : LineBuffer) (ptr : Nat) (char : Char) : LineBuffer :=
  { buffer with bytes := writeBytes buffer.bytes ptr [char] }

/-- `if (ptr + 2 >= eptr)` -/
def LineBuffer.grow (buffer : LineBuffer) (ptr : Nat) : LineBuffer :=
  if buffer.bufsiz ≤ ptr + 2 then { buffer with bufsiz := buffer.bufsiz * 2 } else buffer

/-- The buffer as a C string. -/
def LineBuffer.text (buffer : LineBuffer) : CString :=
  (readBytes buffer.bytes 0 buffer.bufsiz).takeWhile (· ≠ nul)

/-- `malloc(BUFSIZ)` -/
def newBuffer (bytes : Nat → Char) : LineBuffer := ⟨bytes, 1024⟩

/-- The texts that `getline` leaves in its buffer for the rest of a file, with `ptr`
characters of a line read already. -/
def getlines : LineBuffer → Nat → CString → List CString
  | buffer, ptr, [] => if ptr = 0 then [] else [buffer.text]
  | buffer, ptr, c :: rest =>
      let stored := buffer.store ptr c
      if c = '\n' then
        let ended := stored.store (ptr + 1) nul
        ended.text :: getlines ended 0 rest
      else getlines (stored.grow (ptr + 1)) (ptr + 1) rest

/-- `sscanf(line, "%1023s = %4095[^\n]", key, value) == 2` -/
def scanLine (line : CString) : Option (CString × CString) :=
  let start := line.dropWhile isSpace
  let key := (start.takeWhile fun char => !isSpace char).take 1023
  if key = [] then none
  else
    match (start.drop key.length).dropWhile isSpace with
    | '=' :: rest =>
        let value := ((rest.dropWhile isSpace).takeWhile (· ≠ '\n')).take 4095
        if value = [] then none else some (key, value)
    | _ => none

/-! ## `config_file_parse` -/

/-- The files that can be opened, and the content of the memory that each line
buffer gets. -/
structure Files where
  content : CString → Option CString
  heap : Nat → Nat → Char

section Parse

variable (configFileParse : CString → Loader → Except Stop (Bool × Loader))

/-- A line for an option without an argument counts when it says `true`. -/
def applyOption (value : CString) (loader : Loader) (option : LongOption) : Except Stop Loader :=
  if option.requiredArgument then parseArgument configFileParse option.val value loader
  else if value = "true".toList then parseArgument configFileParse option.val [] loader
  else .ok loader

/-- The loop over `long_options`. -/
def applyOptions (key value : CString) (options : List LongOption) (loader : Loader) :
    Except Stop Loader :=
  options.foldlM (fun loader option =>
    if option.name = key then applyOption configFileParse value loader option
    else .ok loader) loader

def applySetting (loader : Loader) (setting : CString × CString) : Except Stop Loader :=
  if setting.1 = "address".toList then
    change loader { loader.config with address := some setting.2 }
  else if setting.1 = "sops".toList then
    change loader { loader.config with sops := setting.2 = "true".toList }
  else applyOptions configFileParse setting.1 setting.2 longOptions loader

def applyLine (loader : Loader) (line : CString) : Except Stop Loader :=
  match scanLine line with
  | some setting => applySetting configFileParse loader setting
  | none => .ok loader

end Parse

/-- `config_file_parse`, with files that include others up to the given depth. -/
def configFileParse (files : Files) : Nat → CString → Loader → Except Stop (Bool × Loader)
  | 0, _, _ => .error .tooDeep
  | depth + 1, filename, loader =>
      match files.content filename with
      | none => .ok (false, loader)
      | some text => do
          let buffer := newBuffer (files.heap loader.buffers)
          let opened := { loader with buffers := loader.buffers + 1 }
          let nested := configFileParse files depth
          let loaded ← (getlines buffer 0 text).foldlM (applyLine nested) opened
          .ok (true, loaded)

def configPath : CString := "/moonlight/moonlight.conf".toList

/-- The bitrate for the picture size; `scale` is `(int)(base * (fps / 30.0))`. -/
def defaultBitrate (scale : Nat → Int32 → Int32) (config : Configuration) : Int32 :=
  let pixels := config.width.toInt * config.height.toInt
  if pixels ≤ 640 * 360 then scale 1000 config.fps
  else if pixels ≤ 854 * 480 then scale 1500 config.fps
  else if pixels ≤ 1366 * 768 then scale 5000 config.fps
  else if pixels ≤ 1920 * 1200 then scale 10000 config.fps
  else if pixels ≤ 2560 * 1600 then scale 20000 config.fps
  else scale 40000 config.fps

def chooseBitrate (scale : Nat → Int32 → Int32) (config : Configuration) : Configuration :=
  if config.bitrate = -1 then { config with bitrate := defaultBitrate scale config } else config

def configParse (scale : Nat → Int32 → Int32) (files : Files) (depth : Nat) :
    Except Stop Configuration := do
  let (_, loaded) ← configFileParse files depth configPath ⟨defaults, 0⟩
  .ok (chooseBitrate scale loaded.config)

/-! ## `config_save` -/

def encryptionFlagsString (flags : Nat) : CString :=
  let audio : Bool := flags &&& encflgAudio ≠ 0
  let video : Bool := flags &&& encflgVideo ≠ 0
  if audio && video then "all".toList
  else if video then "video".toList
  else if audio then "audio".toList
  else "none".toList

def writeConfigString (key : String) (value : CString) : CString :=
  key.toList ++ " = ".toList ++ value ++ ['\n']

def writeConfigInt (key : String) (value : Int32) : CString :=
  writeConfigString key (decimal value.toInt)

def writeConfigBool (key : String) (value : Bool) : CString :=
  writeConfigString key (if value then "true".toList else "false".toList)

def writeIf (condition : Bool) (line : CString) : CString := if condition then line else []

def writeOptional (key : String) : Option CString → CString
  | some value => writeConfigString key value
  | none => []

/-- What `config_save` writes. -/
def configSave (config : Configuration) : CString :=
  writeOptional "address" config.address ++
    writeConfigInt "width" config.width ++
    writeConfigInt "height" config.height ++
    writeConfigInt "fps" config.fps ++
    writeConfigInt "bitrate" config.bitrate ++
    writeConfigInt "packetsize" config.packetSize ++
    writeConfigString "encrypt" (encryptionFlagsString config.encryptionFlags) ++
    writeIf (!config.sops) (writeConfigBool "sops" config.sops) ++
    writeIf config.localaudio (writeConfigBool "localaudio" config.localaudio) ++
    writeIf config.quitappafter (writeConfigBool "quitappafter" config.quitappafter) ++
    writeIf config.viewonly (writeConfigBool "viewonly" config.viewonly) ++
    writeIf (config.rotate != 0) (writeConfigInt "rotate" config.rotate) ++
    writeIf (config.osdOverscan != 0) (writeConfigInt "osd_overscan" config.osdOverscan) ++
    writeIf (config.app != "Steam".toList) (writeConfigString "app" config.app) ++
    writeOptional "tls_test" config.tlsTest

/-- `save_config`, where the file can be opened. -/
def saveConfig (files : Files) (config : Configuration) : Files :=
  { files with content := fun path =>
      if path = configPath then some (configSave config) else files.content path }

end MoonlightWii.App.ConfigFile
