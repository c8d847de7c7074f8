import MoonlightWii.App.ConfigFile
import MoonlightWii.Foundation.TextRun

/-!
# The lines of the configuration file

A line `key = value` that the program has written is read back as that setting, and
whatever the reader takes for a value can be written.
-/

set_option autoImplicit false

namespace MoonlightWii.App.SettingLines

open Foundation.ByteMemory
open Foundation.TextRun
open MoonlightWii.App.Configuration
open MoonlightWii.App.ConfigFile
open MoonlightWii.Gamestream.Errors

abbrev Setting := CString × CString

/-- A text that a line can carry as its value. -/
structure Value (value : CString) : Prop where
  nonempty : value ≠ []
  short : value.length < 4096
  start : Stops isSpace value
  oneLine : '\n' ∉ value
  ended : nul ∉ value

structure Key (key : CString) : Prop where
  nonempty : key ≠ []
  short : key.length < 1024
  unspaced : ∀ char ∈ key, isSpace char = false
  ended : nul ∉ key

def settingText (setting : Setting) : CString := setting.1 ++ " = ".toList ++ setting.2

def settingLine (setting : Setting) : CString := settingText setting ++ ['\n']

/-! ## `getline` -/

/-- The letters stand in the buffer, and there is room for a line end and a terminator. -/
structure Holds (buffer : LineBuffer) (letters : CString) : Prop where
  stored : readBytes buffer.bytes 0 letters.length = letters
  room : letters.length + 2 < buffer.bufsiz

theorem newBuffer_holds (bytes : Nat → Char) : Holds (newBuffer bytes) [] := by
  constructor
  · rfl
  · change 0 + 2 < 1024
    omega

theorem stored_next {buffer : LineBuffer} {letters : CString} (holds : Holds buffer letters)
    (char : Char) :
    readBytes (buffer.store letters.length char).bytes 0 (letters.length + 1) =
      letters ++ [char] := by
  have extended := readBytes_writeBytes_extend buffer.bytes 0 letters.length [char]
  rw [holds.stored, Nat.zero_add] at extended
  exact extended

theorem holds_next {buffer : LineBuffer} {letters : CString} (holds : Holds buffer letters)
    (char : Char) :
    Holds ((buffer.store letters.length char).grow (letters.length + 1)) (letters ++ [char]) := by
  have room := holds.room
  have stored := stored_next holds char
  have size : (buffer.store letters.length char).bufsiz = buffer.bufsiz := rfl
  unfold LineBuffer.grow
  split
  · constructor
    · rw [List.length_append]
      exact stored
    · simp only [List.length_append, List.length_singleton, size]
      omega
  · constructor
    · rw [List.length_append]
      exact stored
    · simp only [List.length_append, List.length_singleton]
      omega

/-- The text of a buffer goes up to the first terminator. -/
theorem text_terminated {buffer : LineBuffer} {letters : CString}
    (stored : readBytes buffer.bytes 0 (letters.length + 1) = letters ++ [nul])
    (room : letters.length < buffer.bufsiz) (clean : nul ∉ letters) : buffer.text = letters := by
  rw [readBytes_add] at stored
  obtain ⟨same, last⟩ := List.append_inj stored (readBytes_length _ _ _)
  have terminator : buffer.bytes (0 + letters.length) = nul := List.head_eq_of_cons_eq last
  rw [Nat.zero_add] at terminator
  apply takeWhile_readBytes same
  · intro char member
    rw [decide_eq_true_eq]
    rintro rfl
    exact clean member
  · rw [terminator]
    decide
  · exact room

/-- `getline` returns the line up to its end, whatever the buffer held before. -/
theorem getlines_line {buffer : LineBuffer} {letters line : CString} (rest : CString)
    (holds : Holds buffer letters) (clean : nul ∉ letters ++ line) (oneLine : '\n' ∉ line) :
    ∃ next, Holds next [] ∧
      getlines buffer letters.length (line ++ '\n' :: rest) =
        (letters ++ line ++ ['\n']) :: getlines next 0 rest := by
  induction line generalizing buffer letters with
  | nil =>
      let stored := buffer.store letters.length '\n'
      let ended := stored.store (letters.length + 1) nul
      have room := holds.room
      have terminated : readBytes ended.bytes 0 ((letters ++ ['\n']).length + 1) =
          letters ++ ['\n'] ++ [nul] := by
        have extended :=
          readBytes_writeBytes_extend stored.bytes 0 (letters.length + 1) [nul]
        rw [stored_next holds, Nat.zero_add] at extended
        rw [List.length_append]
        exact extended
      have text : ended.text = letters ++ ['\n'] := by
        apply text_terminated terminated
        · rw [List.length_append, List.length_singleton]
          exact Nat.lt_trans (by omega) room
        · rw [List.append_nil] at clean
          rw [List.mem_append, not_or]
          exact ⟨clean, by decide⟩
      refine ⟨ended, ⟨rfl, Nat.lt_of_le_of_lt (by simp) room⟩, ?_⟩
      rw [List.nil_append, List.append_nil, getlines, if_pos rfl]
      exact congrArg (· :: getlines ended 0 rest) text
  | cons char line ih =>
      have other : char ≠ '\n' := fun same => oneLine (same ▸ List.mem_cons_self)
      have split : letters ++ char :: line = letters ++ [char] ++ line := by
        rw [List.append_assoc]
        rfl
      rw [split] at clean ⊢
      have later : '\n' ∉ line := fun member => oneLine (List.mem_cons_of_mem _ member)
      obtain ⟨next, fresh, read⟩ := ih (holds_next holds char) clean later
      refine ⟨next, fresh, ?_⟩
      rw [List.cons_append, getlines, if_neg other, ← read, List.length_append]
      rfl

theorem getlines_lines {buffer : LineBuffer} (lines : List CString) (holds : Holds buffer [])
    (clean : ∀ line ∈ lines, nul ∉ line) (oneLine : ∀ line ∈ lines, '\n' ∉ line) :
    getlines buffer 0 (lines.flatMap (· ++ ['\n'])) = lines.map (· ++ ['\n']) := by
  induction lines generalizing buffer with
  | nil => rfl
  | cons line lines ih =>
      obtain ⟨next, fresh, read⟩ :=
        getlines_line (lines.flatMap (· ++ ['\n'])) holds (clean line List.mem_cons_self)
          (oneLine line List.mem_cons_self)
      have later := ih fresh
        (fun other member => clean other (List.mem_cons_of_mem _ member))
        (fun other member => oneLine other (List.mem_cons_of_mem _ member))
      rw [List.flatMap_cons, List.append_assoc, List.singleton_append, List.map_cons, ← later]
      exact read

/-! ## `sscanf` -/

/-- The reader takes the value of a line up to its own limit. -/
theorem scanLine_line {name text : CString} (key : Key name) (nonempty : text ≠ [])
    (begins : Stops isSpace text) (oneLine : '\n' ∉ text) :
    scanLine (settingLine (name, text)) = some (name, text.take 4095) := by
  have line : settingLine (name, text) = name ++ (' ' :: '=' :: ' ' :: (text ++ ['\n'])) := by
    simp [settingLine, settingText]
  have name_stops : Stops isSpace (name ++ (' ' :: '=' :: ' ' :: (text ++ ['\n']))) := by
    obtain ⟨first, rest, known⟩ := List.exists_cons_of_ne_nil key.nonempty
    rw [known]
    exact stops_cons (key.unspaced first (known ▸ List.mem_cons_self)) _
  have name_read : (name ++ (' ' :: '=' :: ' ' :: (text ++ ['\n']))).takeWhile
      (fun char => !isSpace char) = name := by
    apply takeWhile_run
    · intro char member
      rw [key.unspaced char member]
      rfl
    · exact stops_cons (by decide) _
  have name_short : name.take 1023 = name := by
    have short : name.length < 1024 := key.short
    exact List.take_of_length_le (by omega)
  have text_stops : Stops isSpace (text ++ ['\n']) := by
    obtain ⟨first, rest, known⟩ := List.exists_cons_of_ne_nil nonempty
    have start : isSpace first = false := begins first (known ▸ rfl)
    rw [known]
    exact stops_cons start _
  have text_read : (text ++ ['\n']).takeWhile (· ≠ '\n') = text := by
    apply takeWhile_run
    · intro char member
      rw [decide_eq_true_eq]
      rintro rfl
      exact oneLine member
    · exact stops_cons (by decide) _
  have taken : text.take 4095 ≠ [] := by
    rw [Ne, List.take_eq_nil_iff, not_or]
    exact ⟨by decide, nonempty⟩
  have equals : (' ' :: '=' :: ' ' :: (text ++ ['\n'])).dropWhile isSpace =
      '=' :: ' ' :: (text ++ ['\n']) := rfl
  have blank : (' ' :: (text ++ ['\n'])).dropWhile isSpace = text ++ ['\n'] := by
    rw [List.dropWhile_cons_of_pos rfl, dropWhile_stopped text_stops]
  unfold scanLine
  simp only [line, dropWhile_stopped name_stops, name_read, name_short, List.drop_left, equals,
    blank, text_read, if_neg key.nonempty, if_neg taken]

theorem scanLine_settingLine {setting : Setting} (key : Key setting.1) (value : Value setting.2) :
    scanLine (settingLine setting) = some setting := by
  have short : setting.2.length < 4096 := value.short
  have whole : setting.2.take 4095 = setting.2 := List.take_of_length_le (by omega)
  have read := scanLine_line key value.nonempty value.start value.oneLine
  rw [whole] at read
  exact read

/-- What the reader takes for a value can be written. -/
theorem scanLine_value {line : CString} {setting : Setting} (clean : nul ∉ line)
    (read : scanLine line = some setting) : Value setting.2 := by
  unfold scanLine at read
  simp only at read
  split at read
  · cases read
  · split at read
    · rename_i rest found
      split at read
      · cases read
      · rename_i nonempty
        cases read
        have within : ∀ char ∈ ((rest.dropWhile isSpace).takeWhile (· ≠ '\n')).take 4095,
            char ≠ '\n' ∧ char ∈ line := by
          intro char member
          have taken := List.mem_of_mem_take member
          have later : char ∈ '=' :: rest :=
            List.mem_cons_of_mem _
              ((List.dropWhile_suffix _).mem ((List.takeWhile_prefix _).mem taken))
          rw [← found] at later
          refine ⟨by simpa using List.mem_takeWhile_imp taken, ?_⟩
          exact (List.dropWhile_suffix _).mem
            (List.mem_of_mem_drop ((List.dropWhile_suffix _).mem later))
        constructor
        · exact nonempty
        · exact Nat.lt_succ_of_le (List.length_take_le _ _)
        · intro first start
          apply stops_dropWhile isSpace rest
          cases remaining : rest.dropWhile isSpace with
          | nil =>
              simp only [remaining] at start
              cases start
          | cons char others =>
              simp only [remaining] at start
              by_cases ends : char = '\n'
              · simp [ends] at start
              · rw [List.takeWhile_cons_of_pos (by simpa using ends)] at start
                exact start
        · exact fun member => (within _ member).1 rfl
        · exact fun member => clean (within _ member).2
    · cases read

/-! ## The table of options -/

section Options

variable (nested : CString → Loader → Except Stop (Bool × Loader))

theorem longOptions_distinct :
    longOptions.Pairwise fun first later => first.name ≠ later.name := by
  decide

theorem option_at (index : Nat) {option : LongOption}
    (found : longOptions[index]? = some option) : option ∈ longOptions :=
  List.mem_of_getElem? found

/-- At most one option has a given key. -/
theorem filter_option {options : List LongOption} (key : CString)
    (distinct : options.Pairwise fun first later => first.name ≠ later.name) :
    options.filter (fun option => option.name = key) =
      (options.find? fun option => option.name = key).toList := by
  induction options with
  | nil => rfl
  | cons first options ih =>
      obtain ⟨others, distinct⟩ := List.pairwise_cons.mp distinct
      by_cases same : first.name = key
      · have none_left : options.filter (fun option => option.name = key) = [] := by
          rw [List.filter_eq_nil_iff]
          intro option member
          rw [decide_eq_true_eq, ← same]
          exact (others option member).symm
        simp [same, none_left]
      · simp [same, ih distinct]

theorem find_option {options : List LongOption} {option : LongOption}
    (distinct : options.Pairwise fun first later => first.name ≠ later.name)
    (member : option ∈ options) :
    options.find? (fun other => other.name = option.name) = some option := by
  have kept : option ∈ options.filter fun other => other.name = option.name :=
    List.mem_filter.mpr ⟨member, decide_eq_true rfl⟩
  rw [filter_option option.name distinct] at kept
  exact Option.mem_toList.mp kept

/-- The loop over the options reaches the one with this key, if there is one. -/
theorem applyOptions_eq {options : List LongOption} (key value : CString) (loader : Loader)
    (distinct : options.Pairwise fun first later => first.name ≠ later.name) :
    applyOptions nested key value options loader =
      match options.find? (fun option => option.name = key) with
      | some option => applyOption nested value loader option
      | none => .ok loader := by
  have chosen : applyOptions nested key value options loader =
      (options.filter fun option => option.name = key).foldlM
        (applyOption nested value) loader := by
    rw [List.foldlM_filter]
    simp only [decide_eq_true_eq]
    rfl
  rw [chosen, filter_option key distinct]
  cases options.find? fun option => option.name = key with
  | none => rfl
  | some option => exact bind_pure (applyOption nested value loader option)

theorem applyOptions_member {option : LongOption} (value : CString) (loader : Loader)
    (member : option ∈ longOptions) :
    applyOptions nested option.name value longOptions loader =
      applyOption nested value loader option := by
  rw [applyOptions_eq nested option.name value loader longOptions_distinct,
    find_option longOptions_distinct member]

/-- A line with the name of an option that the reader has no rule of its own for. -/
theorem applySetting_option (option : LongOption) (value : CString) (loader : Loader)
    (listed : option ∈ longOptions)
    (ordinary : option.name ≠ "address".toList ∧ option.name ≠ "sops".toList) :
    applySetting nested loader (option.name, value) = applyOption nested value loader option := by
  rw [applySetting, if_neg ordinary.1, if_neg ordinary.2,
    applyOptions_member nested value loader listed]

end Options

end MoonlightWii.App.SettingLines
