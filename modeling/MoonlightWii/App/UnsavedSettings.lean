import MoonlightWii.App.SavedConfig
import MoonlightWii.Foundation.LastWrite

/-!
# The settings that are read but not written

What a line of a configuration file does to the settings that `config_save` has no
line for, and when a whole file leaves them as they are without it.
-/

set_option autoImplicit false

namespace MoonlightWii.App.UnsavedSettings

open Foundation.LastWrite
open MoonlightWii.App.Configuration
open MoonlightWii.App.ConfigFile
open MoonlightWii.App.SettingLines
open MoonlightWii.App.SavedConfig
open MoonlightWii.Gamestream.Errors

@[ext]
structure Unsaved where
  streamingRemotely : StreamCfg
  audioConfiguration : Nat
  debugLevel : Nat
  platform : CString
  audioDevice : Option CString
  configFile : Option CString
  keyDir : CString
  fullscreen : Bool
  unsupported : Bool
  mouseEmulation : Bool
  inputs : List CString
  codec : Codec
  hdr : Bool
  pin : Int32
  port : UInt16
  autostream : Bool
  inputAdded : Bool
  deriving DecidableEq

def unsaved (config : Configuration) : Unsaved where
  streamingRemotely := config.streamingRemotely
  audioConfiguration := config.audioConfiguration
  debugLevel := config.debugLevel
  platform := config.platform
  audioDevice := config.audioDevice
  configFile := config.configFile
  keyDir := config.keyDir
  fullscreen := config.fullscreen
  unsupported := config.unsupported
  mouseEmulation := config.mouseEmulation
  inputs := config.inputs
  codec := config.codec
  hdr := config.hdr
  pin := config.pin
  port := config.port
  autostream := config.autostream
  inputAdded := config.inputAdded

/-! ## Calls of `parse_argument` -/

/-- The letter of an option, and the value. -/
abbrev Call := Char × CString

def optionCall (value : CString) (option : LongOption) : Option Call :=
  if option.requiredArgument then some (option.val, value)
  else if value = "true".toList then some (option.val, [])
  else none

/-- The call that a line of the file leads to. -/
def lineCall (setting : Setting) : Option Call :=
  if setting.1 = "address".toList ∨ setting.1 = "sops".toList then none
  else (longOptions.find? fun option => option.name = setting.1).bind (optionCall setting.2)

def noteLine (nested : CString → Nat → Option (List Call × Nat)) (seen : List Call × Nat)
    (line : CString) : Option (List Call × Nat) :=
  match (scanLine line).bind lineCall with
  | none => some seen
  | some call =>
      if call.1 = 'o' then
        (nested call.2 seen.2).map fun inner => (seen.1 ++ inner.1, inner.2)
      else some (seen.1 ++ [call], seen.2)

/-- The calls that the lines of a file lead to, those of an included file in the place
of its line, and the line buffers allocated. -/
def fileCalls (files : Files) : Nat → CString → Nat → Option (List Call × Nat)
  | 0, _, _ => none
  | depth + 1, filename, buffers =>
      match files.content filename with
      | none => some ([], buffers)
      | some text =>
          (getlines (newBuffer (files.heap buffers)) 0 text).foldlM
            (noteLine (fileCalls files depth)) ([], buffers + 1)

/-! ## What a call stores -/

def argument (letter : Char) (call : Call) : Option CString :=
  if call.1 = letter then some call.2 else none

def switched {α : Type} (letter : Char) (stored : α) (call : Call) : Option α :=
  if call.1 = letter then some stored else none

def remote (call : Call) : Option StreamCfg :=
  (argument 's' call).bind fun value =>
    if strcasecmp value "auto" then some .auto
    else if strcasecmp value "true" || strcasecmp value "yes" then some .remote
    else if strcasecmp value "false" || strcasecmp value "no" then some .local
    else none

def surround (call : Call) : Option Nat :=
  (argument 'u' call).bind fun value =>
    if strcasecmp value "5.1" then some audioConfiguration51Surround
    else if strcasecmp value "7.1" then some audioConfiguration71Surround
    else none

def codec (call : Call) : Option Codec :=
  (argument 'x' call).bind fun value =>
    if strcasecmp value "auto" then some .unspecified
    else if strcasecmp value "h264" then some .h264
    else if strcasecmp value "h265" || strcasecmp value "hevc" then some .hevc
    else if strcasecmp value "av1" then some .av1
    else none

def debugLevel (call : Call) : Option Nat := (switched 'z' 1 call).or (switched 'Z' 2 call)

def pin (call : Call) : Option Int32 := (argument '5' call).map atoiInt

def port (call : Call) : Option UInt16 :=
  (argument '6' call).map fun value => UInt16.ofInt (atoi value)

def note (settings : Unsaved) (call : Call) : Unsaved where
  streamingRemotely := (remote call).getD settings.streamingRemotely
  audioConfiguration := (surround call).getD settings.audioConfiguration
  debugLevel := (debugLevel call).getD settings.debugLevel
  platform := (argument 'p' call).getD settings.platform
  audioDevice := ((argument 'm' call).map some).getD settings.audioDevice
  configFile := ((argument 'q' call).map some).getD settings.configFile
  keyDir := (argument 'r' call).getD settings.keyDir
  fullscreen := (switched 't' false call).getD settings.fullscreen
  unsupported := (switched 'y' false call).getD settings.unsupported
  mouseEmulation := (switched '4' false call).getD settings.mouseEmulation
  inputs :=
    ((argument 'j' call).map fun value => settings.inputs ++ [value]).getD settings.inputs
  codec := (codec call).getD settings.codec
  hdr := (switched '7' true call).getD settings.hdr
  pin := (pin call).getD settings.pin
  port := (port call).getD settings.port
  autostream := (switched 'C' true call).getD settings.autostream
  inputAdded := (switched 'j' true call).getD settings.inputAdded

/-- What a call that does not include a file does to the loader. -/
structure Noted (call : Call) (before after : Loader) : Prop where
  buffers : after.buffers = before.buffers
  unsaved : unsaved after.config = note (unsaved before.config) call
  writable : (call.1 = 'i' ∨ call.1 = '9' → Value call.2) → Writable before.config →
    Writable after.config

/-- A call that changes settings of its own and keeps the texts. -/
theorem noted_of_change {call : Call} {before after : Loader} {config : Configuration}
    (applied : change before config = .ok after)
    (stored : unsaved config = note (unsaved before.config) call)
    (address : config.address = before.config.address) (app : config.app = before.config.app)
    (tlsTest : config.tlsTest = before.config.tlsTest) : Noted call before after := by
  cases applied
  refine ⟨rfl, stored, fun _ texts => ⟨?_, ?_, ?_⟩⟩
  · exact address ▸ texts.address
  · exact app ▸ texts.app
  · exact tlsTest ▸ texts.tlsTest

theorem noted_of_kept {call : Call} {before after : Loader}
    (applied : (Except.ok before : Except Stop Loader) = .ok after)
    (stored : unsaved before.config = note (unsaved before.config) call) :
    Noted call before after := by
  cases applied
  exact ⟨rfl, stored, fun _ texts => texts⟩

/-- A call whose value is looked up. -/
theorem noted_of_choice {α : Type} {call : Call} {before after : Loader} {choice : Option α}
    {store : α → Configuration}
    (applied : choice.elim (.ok before) (fun value => change before (store value)) = .ok after)
    (kept : choice = none → unsaved before.config = note (unsaved before.config) call)
    (stored : ∀ value, choice = some value →
      unsaved (store value) = note (unsaved before.config) call)
    (address : ∀ value, (store value).address = before.config.address)
    (app : ∀ value, (store value).app = before.config.app)
    (tlsTest : ∀ value, (store value).tlsTest = before.config.tlsTest) :
    Noted call before after := by
  cases choice with
  | none => exact noted_of_kept applied (kept rfl)
  | some value =>
      exact noted_of_change applied (stored value rfl) (address value) (app value) (tlsTest value)

theorem remote_choice (value : CString) (loader : Loader) :
    (remote ('s', value)).elim (.ok loader)
        (fun mode => change loader { loader.config with streamingRemotely := mode }) =
      if strcasecmp value "auto" then
        change loader { loader.config with streamingRemotely := .auto }
      else if strcasecmp value "true" || strcasecmp value "yes" then
        change loader { loader.config with streamingRemotely := .remote }
      else if strcasecmp value "false" || strcasecmp value "no" then
        change loader { loader.config with streamingRemotely := .local }
      else .ok loader := by
  simp only [remote, argument, if_true, Option.bind_some]
  split_ifs <;> rfl

theorem surround_choice (value : CString) (loader : Loader) :
    (surround ('u', value)).elim (.ok loader)
        (fun channels => change loader { loader.config with audioConfiguration := channels }) =
      if strcasecmp value "5.1" then
        change loader { loader.config with audioConfiguration := audioConfiguration51Surround }
      else if strcasecmp value "7.1" then
        change loader { loader.config with audioConfiguration := audioConfiguration71Surround }
      else .ok loader := by
  simp only [surround, argument, if_true, Option.bind_some]
  split_ifs <;> rfl

theorem codec_choice (value : CString) (loader : Loader) :
    (codec ('x', value)).elim (.ok loader)
        (fun format => change loader { loader.config with codec := format }) =
      if strcasecmp value "auto" then change loader { loader.config with codec := .unspecified }
      else if strcasecmp value "h264" then change loader { loader.config with codec := .h264 }
      else if strcasecmp value "h265" || strcasecmp value "hevc" then
        change loader { loader.config with codec := .hevc }
      else if strcasecmp value "av1" then change loader { loader.config with codec := .av1 }
      else .ok loader := by
  simp only [codec, argument, if_true, Option.bind_some]
  split_ifs <;> rfl

section Calls

variable (nested : CString → Loader → Except Stop (Bool × Loader))

theorem parseArgument_noted {c : Char} {value : CString} {before after : Loader}
    (plain : c ≠ 'o') (applied : parseArgument nested c value before = .ok after) :
    Noted (c, value) before after := by
  unfold parseArgument at applied
  simp only at applied
  split at applied
  -- `app`
  case h_8 =>
    cases applied
    exact ⟨rfl, rfl, fun valid texts => ⟨texts.address, valid (.inl rfl), texts.tlsTest⟩⟩
  -- `input`
  case h_9 =>
    split at applied
    · cases applied
    · exact noted_of_change applied rfl rfl rfl rfl
  -- `config`
  case h_14 => exact absurd rfl plain
  -- `remote`
  case h_18 =>
    have choice := applied
    rw [← remote_choice value before] at choice
    refine noted_of_choice choice (fun missing => ?_) (fun mode found => ?_) (fun _ => rfl)
      (fun _ => rfl) fun _ => rfl
    · rw [note, missing]
      rfl
    · rw [note, found]
      rfl
  -- `surround`
  case h_20 =>
    have choice := applied
    rw [← surround_choice value before] at choice
    refine noted_of_choice choice (fun missing => ?_) (fun channels found => ?_) (fun _ => rfl)
      (fun _ => rfl) fun _ => rfl
    · rw [note, missing]
      rfl
    · rw [note, found]
      rfl
  -- `codec`
  case h_22 =>
    have choice := applied
    rw [← codec_choice value before] at choice
    refine noted_of_choice choice (fun missing => ?_) (fun format found => ?_) (fun _ => rfl)
      (fun _ => rfl) fun _ => rfl
    · rw [note, missing]
      rfl
    · rw [note, found]
      rfl
  -- `tls_test`
  case h_35 =>
    cases applied
    refine ⟨rfl, rfl, fun valid texts => ⟨texts.address, texts.app, ?_⟩⟩
    rintro text ⟨⟩
    exact valid (.inr rfl)
  -- `encrypt`
  case h_36 =>
    split at applied
    · exact noted_of_change applied rfl rfl rfl rfl
    · split at applied
      · exact noted_of_change applied rfl rfl rfl rfl
      · split at applied
        · exact noted_of_change applied rfl rfl rfl rfl
        · split at applied
          · exact noted_of_change applied rfl rfl rfl rfl
          · exact noted_of_kept applied rfl
  case h_37 =>
    apply noted_of_kept applied
    simp only [imp_false] at *
    simp only [note, remote, surround, codec, debugLevel, pin, port, argument, switched, if_false, *]
    rfl
  all_goals exact noted_of_change applied rfl rfl rfl rfl

theorem optionCall_value {value : CString} {option : LongOption} {call : Call}
    (member : option ∈ longOptions) (called : optionCall value option = some call)
    (text : call.1 = 'i' ∨ call.1 = '9') : call.2 = value := by
  have argued : ∀ option ∈ longOptions, option.val = 'i' ∨ option.val = '9' →
      option.requiredArgument = true := by
    simp [longOptions]
  unfold optionCall at called
  split at called
  · cases called
    rfl
  · rename_i plain
    split at called
    · cases called
      exact absurd (argued option member text) plain
    · cases called

theorem applyOption_call (value : CString) (loader : Loader) (option : LongOption) :
    applyOption nested value loader option =
      (optionCall value option).elim (.ok loader) fun call =>
        parseArgument nested call.1 call.2 loader := by
  unfold applyOption optionCall
  split_ifs <;> rfl

/-- A line without a call changes none of these settings. -/
theorem applySetting_uncalled {setting : Setting} {before after : Loader}
    (called : lineCall setting = none)
    (applied : applySetting nested before setting = .ok after) :
    after.buffers = before.buffers ∧ unsaved after.config = unsaved before.config ∧
      (Value setting.2 → Writable before.config → Writable after.config) := by
  unfold applySetting at applied
  split at applied
  · cases applied
    refine ⟨rfl, rfl, fun valid texts => ⟨?_, texts.app, texts.tlsTest⟩⟩
    rintro text ⟨⟩
    exact valid
  · rename_i notAddress
    split at applied
    · cases applied
      exact ⟨rfl, rfl, fun _ texts => ⟨texts.address, texts.app, texts.tlsTest⟩⟩
    · rename_i notSops
      rw [lineCall, if_neg (not_or.mpr ⟨notAddress, notSops⟩)] at called
      rw [applyOptions_eq nested _ _ _ longOptions_distinct] at applied
      cases found : longOptions.find? fun option => option.name = setting.1 with
      | none =>
          rw [found] at applied
          cases applied
          exact ⟨rfl, rfl, fun _ texts => texts⟩
      | some option =>
          rw [found] at applied called
          simp only [applyOption_call, Option.bind_some] at applied called
          rw [called] at applied
          cases applied
          exact ⟨rfl, rfl, fun _ texts => texts⟩

theorem applySetting_called {setting : Setting} {call : Call} {before after : Loader}
    (called : lineCall setting = some call)
    (applied : applySetting nested before setting = .ok after) :
    parseArgument nested call.1 call.2 before = .ok after ∧
      (call.1 = 'i' ∨ call.1 = '9' → call.2 = setting.2) := by
  unfold lineCall at called
  split at called
  · cases called
  · rename_i ordinary
    rw [not_or] at ordinary
    obtain ⟨option, found, chosen⟩ := Option.bind_eq_some_iff.mp called
    rw [applySetting, if_neg ordinary.1, if_neg ordinary.2,
      applyOptions_eq nested _ _ _ longOptions_distinct, found] at applied
    simp only [applyOption_call, chosen] at applied
    exact ⟨applied, optionCall_value (List.mem_of_find?_eq_some found) chosen⟩

end Calls

/-! ## A whole file -/

/-- What reading a file, or the rest of one, does: the calls in order, and the texts
that stay fit to be written. -/
structure Reads (calls : List Call) (before after : Loader) : Prop where
  unsaved : unsaved after.config = calls.foldl note (unsaved before.config)
  writable : Writable before.config → Writable after.config

theorem Reads.trans {first later : List Call} {before between after : Loader}
    (head : Reads first before between) (tail : Reads later between after) :
    Reads (first ++ later) before after := by
  constructor
  · rw [tail.unsaved, head.unsaved, List.foldl_append]
  · exact fun texts => tail.writable (head.writable texts)

theorem reads_nothing (loader : Loader) : Reads [] loader loader := ⟨rfl, id⟩

theorem getlines_clean (buffer : LineBuffer) (ptr : Nat) (text : CString) :
    ∀ line ∈ getlines buffer ptr text, nul ∉ line := by
  have clean (buffer : LineBuffer) : nul ∉ buffer.text := by
    intro member
    have other := List.mem_takeWhile_imp member
    simp at other
  induction text generalizing buffer ptr with
  | nil =>
      intro line member
      unfold getlines at member
      split at member
      · cases member
      · rw [List.mem_singleton.mp member]
        exact clean buffer
  | cons char text ih =>
      intro line member
      unfold getlines at member
      simp only at member
      split at member
      · rcases List.mem_cons.mp member with rfl | later
        · exact clean _
        · exact ih _ _ line later
      · exact ih _ _ line member

/-- The calls of every file that can be loaded describe what loading it does. -/
def Describes (nested : CString → Loader → Except Stop (Bool × Loader))
    (nestedCalls : CString → Nat → Option (List Call × Nat)) : Prop :=
  ∀ filename before parsed after, nested filename before = .ok (parsed, after) →
    ∃ calls, nestedCalls filename before.buffers = some (calls, after.buffers) ∧
      Reads calls before after

section Files

variable {nested : CString → Loader → Except Stop (Bool × Loader)}
  {nestedCalls : CString → Nat → Option (List Call × Nat)}

/-- One line, where included files are read as their calls say. -/
theorem applyLine_reads {line : CString} {before after : Loader}
    (included : Describes nested nestedCalls)
    (clean : nul ∉ line) (applied : applyLine nested before line = .ok after) :
    ∃ calls, Reads calls before after ∧
      ∀ seen, noteLine nestedCalls (seen, before.buffers) line =
        some (seen ++ calls, after.buffers) := by
  unfold applyLine at applied
  unfold noteLine
  cases read : scanLine line with
  | none =>
      rw [read] at applied
      cases applied
      exact ⟨[], reads_nothing before, fun seen => by simp⟩
  | some setting =>
      rw [read] at applied
      have valid := scanLine_value clean read
      simp only [Option.bind_some]
      cases called : lineCall setting with
      | none =>
          obtain ⟨buffers, kept, texts⟩ := applySetting_uncalled nested called applied
          exact ⟨[], ⟨kept, texts valid⟩, fun seen => by simp [buffers]⟩
      | some call =>
          obtain ⟨parsed, same⟩ := applySetting_called nested called applied
          by_cases includes : call.1 = 'o'
          · rw [includes] at parsed
            change (nested call.2 before >>= fun result =>
              if result.1 then .ok result.2 else .error .exited) = .ok after at parsed
            cases inner : nested call.2 before with
            | error stop =>
                rw [inner] at parsed
                cases parsed
            | ok result =>
                obtain ⟨found, loaded⟩ := result
                rw [inner] at parsed
                cases found with
                | false => cases parsed
                | true =>
                    cases parsed
                    obtain ⟨calls, listed, reads⟩ := included _ _ _ _ inner
                    exact ⟨calls, reads, fun seen => by simp [includes, listed]⟩
          · have noted := parseArgument_noted nested includes parsed
            refine ⟨[call], ⟨noted.unsaved, noted.writable fun text => ?_⟩, fun seen => ?_⟩
            · rw [same text]
              exact valid
            · simp [includes, noted.buffers]

theorem applyLines_reads {lines : List CString} {before after : Loader}
    (included : Describes nested nestedCalls)
    (clean : ∀ line ∈ lines, nul ∉ line)
    (applied : lines.foldlM (applyLine nested) before = .ok after) :
    ∃ calls, Reads calls before after ∧
      ∀ seen, lines.foldlM (noteLine nestedCalls) (seen, before.buffers) =
        some (seen ++ calls, after.buffers) := by
  induction lines generalizing before with
  | nil =>
      cases applied
      exact ⟨[], reads_nothing after, fun seen => by rw [List.append_nil]; rfl⟩
  | cons line lines ih =>
      rw [List.foldlM_cons] at applied
      cases first : applyLine nested before line with
      | error stop =>
          rw [first] at applied
          cases applied
      | ok next =>
          rw [first] at applied
          obtain ⟨calls, reads, listed⟩ :=
            applyLine_reads included (clean line List.mem_cons_self) first
          obtain ⟨later, laterReads, laterListed⟩ :=
            ih (fun other member => clean other (List.mem_cons_of_mem _ member)) applied
          refine ⟨calls ++ later, reads.trans laterReads, fun seen => ?_⟩
          rw [List.foldlM_cons, listed, ← List.append_assoc]
          exact laterListed (seen ++ calls)

end Files

theorem configFileParse_open (files : Files) (depth : Nat) {filename text : CString}
    (loader : Loader) (content : files.content filename = some text) :
    configFileParse files (depth + 1) filename loader =
      ((getlines (newBuffer (files.heap loader.buffers)) 0 text).foldlM
        (applyLine (configFileParse files depth))
        { loader with buffers := loader.buffers + 1 }).map fun loaded => (true, loaded) := by
  rw [configFileParse, content]
  rfl

theorem fileCalls_describe (files : Files) (depth : Nat) :
    Describes (configFileParse files depth) (fileCalls files depth) := by
  induction depth with
  | zero =>
      intro filename before parsed after loaded
      cases loaded
  | succ depth ih =>
      intro filename before parsed after loaded
      cases content : files.content filename with
      | none =>
          rw [configFileParse, content] at loaded
          cases loaded
          exact ⟨[], by rw [fileCalls, content], reads_nothing before⟩
      | some text =>
          rw [configFileParse_open files depth before content] at loaded
          generalize lines : List.foldlM (applyLine (configFileParse files depth))
            { before with buffers := before.buffers + 1 }
            (getlines (newBuffer (files.heap before.buffers)) 0 text) = result at loaded
          cases result with
          | error stop => cases loaded
          | ok next =>
              cases loaded
              have clean := getlines_clean (newBuffer (files.heap before.buffers)) 0 text
              obtain ⟨calls, reads, listed⟩ := applyLines_reads ih clean lines
              refine ⟨calls, ?_, ⟨reads.unsaved, reads.writable⟩⟩
              rw [fileCalls, content]
              exact listed []

/-! ## Files that leave these settings at their defaults -/

/-- No call has this letter. -/
def Absent (letter : Char) (calls : List Call) : Prop := ∀ call ∈ calls, call.1 ≠ letter

/-- For each setting the last call that sets it sets its default, and there is no call
at all for a setting that its calls can only take away from the default. -/
structure LeavesDefaults (calls : List Call) : Prop where
  remote : LastIs remote .auto calls
  codec : LastIs codec .h264 calls
  pin : LastIs pin 0 calls
  port : LastIs port 47989 calls
  keydir : LastIs (argument 'r') "/moonlight/keys".toList calls
  platform : LastIs (argument 'p') "auto".toList calls
  surround : Never surround calls
  audio : Absent 'm' calls
  save : Absent 'q' calls
  input : Absent 'j' calls
  windowed : Absent 't' calls
  nounsupported : Absent 'y' calls
  nomouseemulation : Absent '4' calls
  hdr : Absent '7' calls
  verbose : Absent 'z' calls
  debug : Absent 'Z' calls
  autostream : Absent 'C' calls

theorem argument_none_iff (letter : Char) (call : Call) :
    argument letter call = none ↔ call.1 ≠ letter := by
  simp [argument]

theorem switched_none_iff {α : Type} (letter : Char) (stored : α) (call : Call) :
    switched letter stored call = none ↔ call.1 ≠ letter := by
  simp [switched]

section Fields

variable {α : Type} {field : Unsaved → α} {read : Call → Option α} (calls : List Call)

theorem field_default_iff
    (writes : ∀ settings call, field (note settings call) = (read call).getD (field settings)) :
    field (calls.foldl note (unsaved defaults)) = field (unsaved defaults) ↔
      LastIs read (field (unsaved defaults)) calls := by
  rw [foldl_field writes]
  exact getD_eq_iff_lastIs read _ calls

theorem field_untouched_iff
    (writes : ∀ settings call, field (note settings call) = (read call).getD (field settings))
    (departs : ∀ call, read call ≠ some (field (unsaved defaults))) :
    field (calls.foldl note (unsaved defaults)) = field (unsaved defaults) ↔
      Never read calls :=
  (field_default_iff calls writes).trans (lastIs_iff_never departs calls)

theorem field_switch_iff {letter : Char} {stored : α}
    (writes : ∀ settings call,
      field (note settings call) = (switched letter stored call).getD (field settings))
    (departs : stored ≠ field (unsaved defaults)) :
    field (calls.foldl note (unsaved defaults)) = field (unsaved defaults) ↔
      Absent letter calls := by
  rw [field_untouched_iff calls writes]
  · exact forall₂_congr fun call _ => switched_none_iff letter stored call
  · intro call same
    unfold switched at same
    split at same
    · exact departs (Option.some.inj same)
    · cases same

theorem field_text_iff {field : Unsaved → Option CString} {letter : Char}
    (writes : ∀ settings call,
      field (note settings call) = ((argument letter call).map some).getD (field settings))
    (missing : field (unsaved defaults) = none) :
    field (calls.foldl note (unsaved defaults)) = field (unsaved defaults) ↔
      Absent letter calls := by
  rw [field_untouched_iff calls writes]
  · apply forall₂_congr
    intro call _
    rw [Option.map_eq_none_iff, argument_none_iff]
  · intro call same
    rw [missing] at same
    cases found : argument letter call with
    | none =>
        rw [found] at same
        cases same
    | some value =>
        rw [found] at same
        cases same

end Fields

section Defaults

variable {calls : List Call}

theorem surround_default_iff :
    (calls.foldl note (unsaved defaults)).audioConfiguration =
        (unsaved defaults).audioConfiguration ↔ Never surround calls := by
  refine field_untouched_iff calls (fun _ _ => rfl) ?_
  intro call same
  obtain ⟨value, -, chosen⟩ := Option.bind_eq_some_iff.mp same
  split at chosen
  · exact absurd chosen (by decide)
  · split at chosen
    · exact absurd chosen (by decide)
    · cases chosen

theorem debug_default_iff :
    (calls.foldl note (unsaved defaults)).debugLevel = (unsaved defaults).debugLevel ↔
      Absent 'z' calls ∧ Absent 'Z' calls := by
  have quiet (call : Call) : debugLevel call = none ↔ call.1 ≠ 'z' ∧ call.1 ≠ 'Z' := by
    rw [debugLevel, Option.or_eq_none_iff, switched_none_iff, switched_none_iff]
  have departs (call : Call) : debugLevel call ≠ some (unsaved defaults).debugLevel := by
    intro same
    unfold debugLevel switched at same
    split_ifs at same <;> exact absurd same (by decide)
  refine (field_untouched_iff calls (fun _ _ => rfl) departs).trans ?_
  constructor
  · intro never
    exact ⟨fun call member => ((quiet call).mp (never call member)).1,
      fun call member => ((quiet call).mp (never call member)).2⟩
  · rintro ⟨verbose, debug⟩ call member
    exact (quiet call).mpr ⟨verbose call member, debug call member⟩

theorem input_default_iff :
    (calls.foldl note (unsaved defaults)).inputAdded = (unsaved defaults).inputAdded ↔
      Absent 'j' calls :=
  field_switch_iff calls (fun _ _ => rfl) (by decide)

theorem inputs_kept (input : Absent 'j' calls) :
    (calls.foldl note (unsaved defaults)).inputs = (unsaved defaults).inputs := by
  apply foldl_unchanged
  intro call member settings
  have other : argument 'j' call = none :=
    (argument_none_iff 'j' call).mpr (input call member)
  simp only [note, other, Option.map_none, Option.getD_none]

theorem leavesDefaults_of_kept (kept : calls.foldl note (unsaved defaults) = unsaved defaults) :
    LeavesDefaults calls where
  remote := (field_default_iff calls fun _ _ => rfl).mp (congrArg Unsaved.streamingRemotely kept)
  codec := (field_default_iff calls fun _ _ => rfl).mp (congrArg Unsaved.codec kept)
  pin := (field_default_iff calls fun _ _ => rfl).mp (congrArg Unsaved.pin kept)
  port := (field_default_iff calls fun _ _ => rfl).mp (congrArg Unsaved.port kept)
  keydir := (field_default_iff calls fun _ _ => rfl).mp (congrArg Unsaved.keyDir kept)
  platform := (field_default_iff calls fun _ _ => rfl).mp (congrArg Unsaved.platform kept)
  surround := surround_default_iff.mp (congrArg Unsaved.audioConfiguration kept)
  audio := (field_text_iff calls (fun _ _ => rfl) rfl).mp (congrArg Unsaved.audioDevice kept)
  save := (field_text_iff calls (fun _ _ => rfl) rfl).mp (congrArg Unsaved.configFile kept)
  input := input_default_iff.mp (congrArg Unsaved.inputAdded kept)
  windowed :=
    (field_switch_iff calls (fun _ _ => rfl) (by decide)).mp (congrArg Unsaved.fullscreen kept)
  nounsupported :=
    (field_switch_iff calls (fun _ _ => rfl) (by decide)).mp (congrArg Unsaved.unsupported kept)
  nomouseemulation :=
    (field_switch_iff calls (fun _ _ => rfl) (by decide)).mp (congrArg Unsaved.mouseEmulation kept)
  hdr := (field_switch_iff calls (fun _ _ => rfl) (by decide)).mp (congrArg Unsaved.hdr kept)
  verbose := (debug_default_iff.mp (congrArg Unsaved.debugLevel kept)).1
  debug := (debug_default_iff.mp (congrArg Unsaved.debugLevel kept)).2
  autostream :=
    (field_switch_iff calls (fun _ _ => rfl) (by decide)).mp (congrArg Unsaved.autostream kept)

theorem kept_of_leavesDefaults (leaves : LeavesDefaults calls) :
    calls.foldl note (unsaved defaults) = unsaved defaults := by
  apply Unsaved.ext
  case streamingRemotely => exact (field_default_iff calls fun _ _ => rfl).mpr leaves.remote
  case audioConfiguration => exact surround_default_iff.mpr leaves.surround
  case debugLevel => exact debug_default_iff.mpr ⟨leaves.verbose, leaves.debug⟩
  case platform => exact (field_default_iff calls fun _ _ => rfl).mpr leaves.platform
  case audioDevice => exact (field_text_iff calls (fun _ _ => rfl) rfl).mpr leaves.audio
  case configFile => exact (field_text_iff calls (fun _ _ => rfl) rfl).mpr leaves.save
  case keyDir => exact (field_default_iff calls fun _ _ => rfl).mpr leaves.keydir
  case fullscreen =>
    exact (field_switch_iff calls (fun _ _ => rfl) (by decide)).mpr leaves.windowed
  case unsupported =>
    exact (field_switch_iff calls (fun _ _ => rfl) (by decide)).mpr leaves.nounsupported
  case mouseEmulation =>
    exact (field_switch_iff calls (fun _ _ => rfl) (by decide)).mpr leaves.nomouseemulation
  case inputs => exact inputs_kept leaves.input
  case codec => exact (field_default_iff calls fun _ _ => rfl).mpr leaves.codec
  case hdr => exact (field_switch_iff calls (fun _ _ => rfl) (by decide)).mpr leaves.hdr
  case pin => exact (field_default_iff calls fun _ _ => rfl).mpr leaves.pin
  case port => exact (field_default_iff calls fun _ _ => rfl).mpr leaves.port
  case autostream =>
    exact (field_switch_iff calls (fun _ _ => rfl) (by decide)).mpr leaves.autostream
  case inputAdded => exact input_default_iff.mpr leaves.input

theorem kept_iff_leavesDefaults :
    calls.foldl note (unsaved defaults) = unsaved defaults ↔ LeavesDefaults calls :=
  ⟨leavesDefaults_of_kept, kept_of_leavesDefaults⟩

end Defaults

end MoonlightWii.App.UnsavedSettings
