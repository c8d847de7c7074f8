import MoonlightWii.App.SettingFrame

/-!
# Lines with a comment

The configuration file that the program creates has lines with a comment behind the
value.  The reader takes the comment for a part of the value, which changes what the
line does unless the value is a number or is not read at all.
-/

set_option autoImplicit false

namespace MoonlightWii.App.CommentedLines

open Foundation.TextRun
open MoonlightWii.App.Configuration
open MoonlightWii.App.ConfigFile
open MoonlightWii.App.SettingLines
open MoonlightWii.Gamestream.Errors
open MoonlightWii.Gamestream.Numbers

/-- A value and a comment in the form of the lines that `config_ensure_wii` writes. -/
def commented (value comment : CString) : CString := value ++ ' ' :: ' ' :: '#' :: ' ' :: comment

/-- The keys that the reader knows. -/
def Recognised (key : CString) : Prop :=
  key = "address".toList ∨ key = "sops".toList ∨ ∃ option ∈ longOptions, option.name = key

/-- Both lines do the same to every configuration, whatever files there are. -/
def SameEffect (line other : CString) : Prop :=
  ∀ files depth loader,
    applyLine (configFileParse files depth) loader line =
      applyLine (configFileParse files depth) loader other

/-! ## What a value is used for -/

inductive ValueUse where
  /-- The text is stored. -/
  | text
  | number
  /-- One of some words, without regard to case. -/
  | word (words : List String)
  /-- The word `true`, or another. -/
  | flag
  | unused
  deriving DecidableEq

def letterUse : Char → ValueUse
  | 'i' | 'j' | 'm' | 'o' | 'p' | 'q' | 'r' | '9' => .text
  | 'c' | 'd' | 'g' | 'h' | 'v' | '3' | '5' | '6' | '8' => .number
  | 's' => .word ["auto", "true", "yes", "false", "no"]
  | 'u' => .word ["5.1", "7.1"]
  | 'x' => .word ["auto", "h264", "h265", "hevc", "av1"]
  | 'e' => .word ["none", "audio", "video", "all"]
  | _ => .unused

def keyUse (key : CString) : ValueUse :=
  if key = "address".toList then .text
  else if key = "sops".toList then .flag
  else (longOptions.find? fun option => option.name = key).elim .unused fun option =>
    if option.requiredArgument then letterUse option.val else .flag

/-- The value is not compared with a word that it is, and not stored. -/
def Unstored (value : CString) : ValueUse → Prop
  | .text => False
  | .number => True
  | .word words => ∀ word ∈ words, strcasecmp value word = false
  | .flag => value ≠ "true".toList
  | .unused => True

theorem letterUse_ne_flag (c : Char) : letterUse c ≠ .flag := by
  unfold letterUse
  split
  all_goals exact ValueUse.noConfusion

section Calls

variable (nested : CString → Loader → Except Stop (Bool × Loader))

theorem parseArgument_number {c : Char} {value other : CString} (loader : Loader)
    (number : letterUse c = .number) (same : atoi value = atoi other) :
    parseArgument nested c value loader = parseArgument nested c other loader := by
  have stored : atoiInt value = atoiInt other := congrArg Int32.ofInt same
  unfold parseArgument
  split
  all_goals first | rfl | (cases number; done) | simp only [stored, same]

theorem parseArgument_unused {c : Char} (value other : CString) (loader : Loader)
    (unused : letterUse c = .unused) :
    parseArgument nested c value loader = parseArgument nested c other loader := by
  unfold parseArgument
  split
  all_goals first | rfl | cases unused

theorem letterUse_word {c : Char} {words : List String} (word : letterUse c = .word words) :
    (c = 's' ∧ words = ["auto", "true", "yes", "false", "no"]) ∨ (c = 'u' ∧ words = ["5.1", "7.1"]) ∨
      (c = 'x' ∧ words = ["auto", "h264", "h265", "hevc", "av1"]) ∨
      (c = 'e' ∧ words = ["none", "audio", "video", "all"]) := by
  unfold letterUse at word
  split at word
  all_goals first | cases word; simp | cases word

theorem parseArgument_no_word {c : Char} {words : List String} {value : CString} (loader : Loader)
    (word : letterUse c = .word words) (unstored : ∀ word ∈ words, strcasecmp value word = false) :
    parseArgument nested c value loader = .ok loader := by
  rcases letterUse_word word with ⟨rfl, rfl⟩ | ⟨rfl, rfl⟩ | ⟨rfl, rfl⟩ | ⟨rfl, rfl⟩
  all_goals
    simp only [List.forall_mem_cons, List.not_mem_nil, false_implies, implies_true, and_true]
      at unstored
    simp [parseArgument, unstored]

theorem change_same {loader : Loader} {config : Configuration}
    (same : change loader config = .ok loader) : config = loader.config := by
  exact congrArg Loader.config (Except.ok.inj same)

/-- A word changes some configuration. -/
theorem parseArgument_word {c : Char} {words : List String} {value : CString}
    (word : letterUse c = .word words) (stored : ¬ ∀ word ∈ words, strcasecmp value word = false) :
    ∃ loader, parseArgument nested c value loader ≠ .ok loader := by
  by_contra kept
  simp only [not_exists, not_not] at kept
  apply stored
  rcases letterUse_word word with ⟨rfl, rfl⟩ | ⟨rfl, rfl⟩ | ⟨rfl, rfl⟩ | ⟨rfl, rfl⟩
  · have auto := kept ⟨defaults, 0⟩
    have remote := kept ⟨{ defaults with streamingRemotely := .remote }, 0⟩
    simp only [parseArgument] at auto remote
    split_ifs at auto remote
    · exact absurd (congrArg Configuration.streamingRemotely (change_same remote)) (by decide)
    · exact absurd (congrArg Configuration.streamingRemotely (change_same auto)) (by decide)
    · exact absurd (congrArg Configuration.streamingRemotely (change_same auto)) (by decide)
    · simp_all
  · have stereo := kept ⟨defaults, 0⟩
    simp only [parseArgument] at stereo
    split_ifs at stereo
    · exact absurd (congrArg Configuration.audioConfiguration (change_same stereo)) (by decide)
    · exact absurd (congrArg Configuration.audioConfiguration (change_same stereo)) (by decide)
    · simp_all
  · have h264 := kept ⟨defaults, 0⟩
    have av1 := kept ⟨{ defaults with codec := .av1 }, 0⟩
    simp only [parseArgument] at h264 av1
    split_ifs at h264 av1
    · exact absurd (congrArg Configuration.codec (change_same h264)) (by decide)
    · exact absurd (congrArg Configuration.codec (change_same av1)) (by decide)
    · exact absurd (congrArg Configuration.codec (change_same h264)) (by decide)
    · exact absurd (congrArg Configuration.codec (change_same h264)) (by decide)
    · simp_all
  · have none := kept ⟨defaults, 0⟩
    have audio := kept ⟨{ defaults with encryptionFlags := encflgAudio }, 0⟩
    simp only [parseArgument] at none audio
    split_ifs at none audio
    · exact absurd (congrArg Configuration.encryptionFlags (change_same audio)) (by decide)
    · exact absurd (congrArg Configuration.encryptionFlags (change_same none)) (by decide)
    · exact absurd (congrArg Configuration.encryptionFlags (change_same none)) (by decide)
    · exact absurd (congrArg Configuration.encryptionFlags (change_same none)) (by decide)
    · simp_all

end Calls

theorem change_inj {loader : Loader} {config other : Configuration}
    (same : change loader config = change loader other) : config = other :=
  congrArg Loader.config (Except.ok.inj same)

/-- Different texts are stored as different texts, or name different files. -/
theorem parseArgument_text {c : Char} {value other : CString} (text : letterUse c = .text)
    (differ : value ≠ other) : ∃ files depth loader,
      parseArgument (configFileParse files depth) c value loader ≠
        parseArgument (configFileParse files depth) c other loader := by
  let files : Files := ⟨fun name => if name = value then some [] else none, fun _ _ => nul⟩
  refine ⟨files, 1, ⟨defaults, 0⟩, ?_⟩
  intro same
  apply differ
  unfold letterUse at text
  split at text
  -- `app`
  case h_1 => exact congrArg Configuration.app (change_inj same)
  -- `input`
  case h_2 =>
    have stored := congrArg Configuration.inputs (change_inj same)
    exact (List.cons.inj stored).1
  -- `audio`
  case h_3 => exact Option.some.inj (congrArg Configuration.audioDevice (change_inj same))
  -- `config`
  case h_4 =>
    have opened : files.content value = some [] := if_pos rfl
    have missing : files.content other = none := if_neg differ.symm
    simp only [parseArgument, configFileParse, opened, missing] at same
    cases same
  -- `platform`
  case h_5 => exact congrArg Configuration.platform (change_inj same)
  -- `save`
  case h_6 => exact Option.some.inj (congrArg Configuration.configFile (change_inj same))
  -- `keydir`
  case h_7 => exact congrArg Configuration.keyDir (change_inj same)
  -- `tls_test`
  case h_8 => exact Option.some.inj (congrArg Configuration.tlsTest (change_inj same))
  all_goals cases text

/-- An option without an argument changes the defaults. -/
theorem parseArgument_flag (nested : CString → Loader → Except Stop (Bool × Loader))
    {option : LongOption} (listed : option ∈ longOptions) (flag : option.requiredArgument = false) :
    parseArgument nested option.val [] ⟨defaults, 0⟩ ≠ .ok ⟨defaults, 0⟩ := by
  have letters : ∀ option ∈ longOptions, option.requiredArgument = false →
      option.val ∈ ['a', 'b', '0', 'l', 'n', 't', 'y', '1', '2', 'z', 'Z', 'C', '4', '7'] := by
    decide
  have letter := letters option listed flag
  intro same
  simp only [List.mem_cons, List.not_mem_nil, or_false] at letter
  rcases letter with letter | letter | letter | letter | letter | letter | letter | letter |
    letter | letter | letter | letter | letter | letter
  all_goals
    rw [letter] at same
    exact absurd (change_same same) (by decide)

/-! ## The value that is read -/

/-- What the reader takes for the value of a line with a comment. -/
def readValue (value comment : CString) : CString := (commented value comment).take 4095

theorem readValue_long {value : CString} (comment : CString) (long : value.length = 4095) :
    readValue value comment = value := by
  rw [readValue, commented, ← long, List.take_left]

theorem readValue_short {value : CString} (comment : CString) (short : value.length < 4095) :
    ∃ rest, readValue value comment = value ++ ' ' :: rest := by
  obtain ⟨room, size⟩ := Nat.exists_eq_add_of_lt short
  refine ⟨(' ' :: '#' :: ' ' :: comment).take room, ?_⟩
  rw [readValue, commented, size, Nat.add_assoc, List.take_length_add_append]
  rfl

theorem strcasecmp_blank {value : CString} {word : String} (blank : ' ' ∈ value)
    (unspaced : ' ' ∉ word.toList.map Char.toLower) : strcasecmp value word = false := by
  apply beq_eq_false_iff_ne.mpr
  intro same
  apply unspaced
  rw [← same]
  exact List.mem_map.mpr ⟨' ', blank, rfl⟩

theorem word_unspaced {c : Char} {words : List String} (word : letterUse c = .word words) :
    ∀ word ∈ words, ' ' ∉ word.toList.map Char.toLower := by
  rcases letterUse_word word with ⟨-, rfl⟩ | ⟨-, rfl⟩ | ⟨-, rfl⟩ | ⟨-, rfl⟩
  all_goals decide

/-! ## One setting -/

section Settings

variable {value rest : CString}

/-- A text behind the value makes no difference to a number, or to a value that is not
used; it does to a text, and to a word. -/
theorem parseArgument_same_iff {c : Char} (nonempty : value ≠ []) (start : Stops isSpace value) :
    (∀ files depth loader,
      parseArgument (configFileParse files depth) c (value ++ ' ' :: rest) loader =
        parseArgument (configFileParse files depth) c value loader) ↔
      Unstored value (letterUse c) := by
  have blank : ' ' ∈ value ++ ' ' :: rest :=
    List.mem_append_right _ List.mem_cons_self
  have longer : value ++ ' ' :: rest ≠ value := by
    intro same
    have length := congrArg List.length same
    rw [List.length_append, List.length_cons] at length
    omega
  cases use : letterUse c with
  | text =>
      constructor
      · intro same
        obtain ⟨files, depth, loader, differ⟩ := parseArgument_text use longer
        exact differ (same files depth loader)
      · exact False.elim
  | number =>
      have read : atoi (value ++ ' ' :: rest) = atoi value :=
        atoi_append nonempty start (stops_cons (by decide) rest)
      constructor
      · intro _
        trivial
      · intro _ files depth loader
        exact parseArgument_number _ loader use read
  | word words =>
      have ignored : ∀ word ∈ words, strcasecmp (value ++ ' ' :: rest) word = false := by
        intro word member
        exact strcasecmp_blank blank (word_unspaced use word member)
      constructor
      · intro same
        by_contra stored
        obtain ⟨loader, changed⟩ :=
          parseArgument_word (configFileParse ⟨fun _ => none, fun _ _ => nul⟩ 0) use stored
        apply changed
        rw [← same]
        exact parseArgument_no_word _ loader use ignored
      · intro unstored files depth loader
        rw [parseArgument_no_word _ loader use ignored, parseArgument_no_word _ loader use unstored]
  | flag => exact absurd use (letterUse_ne_flag c)
  | unused =>
      constructor
      · intro _
        trivial
      · intro _ files depth loader
        exact parseArgument_unused _ _ _ loader use

theorem not_true (value : CString) : value ++ ' ' :: rest ≠ "true".toList := by
  intro same
  have blank : ' ' ∈ value ++ ' ' :: rest :=
    List.mem_append_right _ List.mem_cons_self
  rw [same] at blank
  exact absurd blank (by decide)

theorem applyOption_same_iff {option : LongOption} (listed : option ∈ longOptions)
    (nonempty : value ≠ []) (start : Stops isSpace value) :
    (∀ files depth loader,
      applyOption (configFileParse files depth) (value ++ ' ' :: rest) loader option =
        applyOption (configFileParse files depth) value loader option) ↔
      Unstored value (if option.requiredArgument then letterUse option.val else .flag) := by
  unfold applyOption
  cases argued : option.requiredArgument with
  | true => exact parseArgument_same_iff nonempty start
  | false =>
      simp only [Bool.false_eq_true, if_false, if_neg (not_true value)]
      constructor
      · intro same on
        have kept := same ⟨fun _ => none, fun _ _ => nul⟩ 0 ⟨defaults, 0⟩
        rw [if_pos on] at kept
        exact parseArgument_flag _ listed argued kept.symm
      · intro off files depth loader
        rw [if_neg off]

/-- What stands behind a value makes no difference if the value is not stored. -/
theorem applySetting_same_iff {key : CString} (known : Recognised key) (nonempty : value ≠ [])
    (start : Stops isSpace value) :
    (∀ files depth loader,
      applySetting (configFileParse files depth) loader (key, value ++ ' ' :: rest) =
        applySetting (configFileParse files depth) loader (key, value)) ↔
      Unstored value (keyUse key) := by
  have longer : value ++ ' ' :: rest ≠ value := by
    intro same
    have length := congrArg List.length same
    rw [List.length_append, List.length_cons] at length
    omega
  unfold keyUse
  by_cases address : key = "address".toList
  · simp only [applySetting, if_pos address]
    constructor
    · intro same
      have stored := change_inj (same ⟨fun _ => none, fun _ _ => nul⟩ 0 ⟨defaults, 0⟩)
      exact absurd (Option.some.inj (congrArg Configuration.address stored)) longer
    · exact False.elim
  · by_cases sops : key = "sops".toList
    · simp only [applySetting, if_neg address, if_pos sops]
      have off : decide (value ++ ' ' :: rest = "true".toList) = false :=
        decide_eq_false (not_true value)
      simp only [off]
      constructor
      · intro same on
        have stored := change_inj (same ⟨fun _ => none, fun _ _ => nul⟩ 0 ⟨defaults, 0⟩)
        have differ : false = decide (value = "true".toList) :=
          congrArg Configuration.sops stored
        rw [decide_eq_true on] at differ
        cases differ
      · intro unstored files depth loader
        rw [decide_eq_false unstored]
    · obtain ⟨option, listed, named⟩ := (known.resolve_left address).resolve_left sops
      subst named
      simp only [applySetting_option _ option _ _ listed ⟨address, sops⟩, if_neg address,
        if_neg sops, find_option longOptions_distinct listed]
      exact applyOption_same_iff listed nonempty start

end Settings

/-! ## Lines -/

def keyText (key : CString) : Bool :=
  !key.isEmpty && Nat.blt key.length 1024 && key.all fun char => !isSpace char && char != nul

theorem key_of_keyText {key : CString} (valid : keyText key = true) : Key key := by
  simp only [keyText, Bool.and_eq_true, Bool.not_eq_true', List.isEmpty_eq_false_iff, Nat.blt_eq,
    List.all_eq_true, bne_iff_ne] at valid
  obtain ⟨⟨nonempty, short⟩, letters⟩ := valid
  exact ⟨nonempty, short, fun char member => (letters char member).1,
    fun member => (letters nul member).2 rfl⟩

theorem recognised_key {key : CString} (known : Recognised key) : Key key := by
  have options : longOptions.all (fun option => keyText option.name) = true := by decide
  rcases known with rfl | rfl | ⟨option, listed, rfl⟩
  · exact key_of_keyText rfl
  · exact key_of_keyText rfl
  · exact key_of_keyText (List.all_eq_true.mp options option listed)

/-- The value is as long as the reader takes one, or it is not stored. -/
def CommentHarmless (key value : CString) : Prop :=
  value.length = 4095 ∨ Unstored value (keyUse key)

theorem scanLine_commented {key value comment : CString} (known : Recognised key)
    (valid : Value value) (oneLine : '\n' ∉ comment) :
    scanLine (settingLine (key, commented value comment)) = some (key, readValue value comment) := by
  apply scanLine_line (recognised_key known)
  · exact List.append_ne_nil_of_left_ne_nil valid.nonempty _
  · obtain ⟨first, later, split⟩ := List.exists_cons_of_ne_nil valid.nonempty
    have begins : isSpace first = false := valid.start first (split ▸ rfl)
    rw [commented, split]
    exact stops_cons begins _
  · intro member
    rcases List.mem_append.mp member with inside | behind
    · exact valid.oneLine inside
    · simp only [List.mem_cons] at behind
      rcases behind with blank | blank | mark | blank | inside
      · exact absurd blank (by decide)
      · exact absurd blank (by decide)
      · exact absurd mark (by decide)
      · exact absurd blank (by decide)
      · exact oneLine inside

theorem commented_line_same_iff {key value comment : CString} (known : Recognised key)
    (valid : Value value) (oneLine : '\n' ∉ comment) :
    SameEffect (settingLine (key, commented value comment)) (settingLine (key, value)) ↔
      CommentHarmless key value := by
  have plain : scanLine (settingLine (key, value)) = some (key, value) :=
    scanLine_settingLine (recognised_key known) valid
  have read := scanLine_commented known valid oneLine
  unfold SameEffect applyLine CommentHarmless
  simp only [plain, read]
  by_cases long : value.length = 4095
  · rw [readValue_long comment long]
    constructor
    · intro _
      exact Or.inl long
    · intro _ files depth loader
      rfl
  · have size : value.length < 4096 := valid.short
    obtain ⟨rest, split⟩ := readValue_short comment (show value.length < 4095 by omega)
    rw [split, applySetting_same_iff known valid.nonempty valid.start]
    constructor
    · exact Or.inr
    · intro harmless
      exact harmless.resolve_left long

theorem commented_number_same : SameEffect
    (settingLine ("osd_overscan".toList, commented "30".toList "in pixels".toList))
    (settingLine ("osd_overscan".toList, "30".toList)) := by
  have known : Recognised "osd_overscan".toList :=
    .inr (.inr ⟨⟨"osd_overscan".toList, true, '8'⟩, option_at 33 rfl, rfl⟩)
  have number : keyUse "osd_overscan".toList = .number := by decide
  have valid : Value "30".toList :=
    ⟨by decide, by decide, stops_cons (by decide) _, by decide, by decide⟩
  apply (commented_line_same_iff known valid (by decide)).mpr
  rw [CommentHarmless, number]
  exact Or.inr trivial

/-- The line asks for encryption, and the stream stays unencrypted. -/
theorem commented_encrypt_ignored : ¬ SameEffect
    (settingLine ("encrypt".toList, commented "all".toList "video is slow on the Wii".toList))
    (settingLine ("encrypt".toList, "all".toList)) := by
  intro same
  have stored := congrArg (fun result => result.toOption.map (·.config.encryptionFlags))
    (same ⟨fun _ => none, fun _ _ => nul⟩ 0 ⟨defaults, 0⟩)
  exact absurd stored (by decide)

end MoonlightWii.App.CommentedLines
