import Mathlib.Data.List.Induction
import MoonlightWii.App.SettingLines
import MoonlightWii.Foundation.LastWrite
import MoonlightWii.Foundation.TextLines

/-!
# `getline` (`compat.c`)

The calls of `getline` that read a file, with what each returns and where it writes.
A line end brings a terminator into the buffer, the end of the file does not, so that
the text of a last line without a line end depends on the lines before it.
-/

set_option autoImplicit false

namespace MoonlightWii.App.GetLine

open Foundation.ByteMemory
open Foundation.LastWrite
open Foundation.TextLines
open MoonlightWii.App.ConfigFile
open MoonlightWii.App.SettingLines
open MoonlightWii.Gamestream.Errors

/-! ## `getdelim` -/

/-- Where a character is stored, and the size of the buffer at that time. -/
structure Write where
  ptr : Nat
  bufsiz : Nat
  deriving DecidableEq

/-- A call that has returned; `none` stands for `-1`, and `rest` is what the file
still has. -/
structure Call where
  returned : Option Nat
  buffer : LineBuffer
  rest : CString
  writes : List Write

def getdelim (delimiter : Char) (buffer : LineBuffer) (ptr : Nat) : CString → Call
  | [] => ⟨if ptr = 0 then none else some ptr, buffer, [], []⟩
  | c :: rest =>
      let stored := buffer.store ptr c
      let write : Write := ⟨ptr, buffer.bufsiz⟩
      if c = delimiter then
        ⟨some (ptr + 1), stored.store (ptr + 1) nul, rest, [write, ⟨ptr + 1, stored.bufsiz⟩]⟩
      else
        let later := getdelim delimiter (stored.grow (ptr + 1)) (ptr + 1) rest
        { later with writes := write :: later.writes }

/-- `getline` with the buffer of the last call, or none yet. -/
def getline (heap : Nat → Char) (line : Option LineBuffer) (text : CString) : Call :=
  getdelim '\n' (line.getD (newBuffer heap)) 0 text

theorem getdelim_rest (buffer : LineBuffer) (ptr : Nat) (text : CString) :
    (getdelim '\n' buffer ptr text).rest.length < text.length ∨
      (text = [] ∧ getdelim '\n' buffer ptr text =
        ⟨if ptr = 0 then none else some ptr, buffer, [], []⟩) := by
  induction text generalizing buffer ptr with
  | nil => exact Or.inr ⟨rfl, rfl⟩
  | cons c rest ih =>
      apply Or.inl
      rw [getdelim]
      split
      · exact Nat.lt_succ_self _
      · rcases ih ((buffer.store ptr c).grow (ptr + 1)) (ptr + 1) with shorter | ⟨empty, returned⟩
        · exact Nat.lt_succ_of_lt shorter
        · rw [returned, empty]
          exact Nat.zero_lt_one

theorem getline_rest (heap : Nat → Char) (line : Option LineBuffer) (text : CString)
    (more : (getline heap line text).returned ≠ none) :
    (getline heap line text).rest.length < text.length := by
  rcases getdelim_rest (line.getD (newBuffer heap)) 0 text with shorter | ⟨-, returned⟩
  · exact shorter
  · rw [getline, returned] at more
    exact absurd rfl more

/-- `while (getline(&line, &len, fd) != -1)` -/
def getlineCalls (heap : Nat → Char) (line : Option LineBuffer) (text : CString) : List Call :=
  let call := getline heap line text
  if call.returned = none then [call]
  else call :: getlineCalls heap (some call.buffer) call.rest
termination_by text.length
decreasing_by exact getline_rest heap line text ‹_›

/-! ## One call -/

/-- What a call leaves behind that has read some text into the buffer from `ptr` on. -/
structure Reads (buffer : LineBuffer) (ptr : Nat) (stored : CString) (call : Call) : Prop where
  bytes : call.buffer.bytes = writeBytes buffer.bytes ptr stored
  room : ptr + stored.length < call.buffer.bufsiz
  roomy : 2 < call.buffer.bufsiz
  inside : ∀ write ∈ call.writes, write.ptr < write.bufsiz

theorem grow_bytes (buffer : LineBuffer) (ptr : Nat) : (buffer.grow ptr).bytes = buffer.bytes := by
  unfold LineBuffer.grow
  split
  · rfl
  · rfl

theorem grow_room {buffer : LineBuffer} {ptr : Nat} (room : ptr + 1 < buffer.bufsiz) :
    ptr + 2 < (buffer.grow ptr).bufsiz := by
  unfold LineBuffer.grow
  split
  · change ptr + 2 < buffer.bufsiz * 2
    omega
  · omega

/-- A call that meets a line end stores the line and a terminator. -/
theorem getdelim_line {buffer : LineBuffer} {ptr : Nat} (line rest : CString)
    (room : ptr + 2 < buffer.bufsiz) (whole : '\n' ∉ line) :
    let call := getdelim '\n' buffer ptr (line ++ '\n' :: rest)
    call.returned = some (ptr + line.length + 1) ∧ call.rest = rest ∧
      Reads buffer ptr (line ++ ['\n', nul]) call := by
  induction line generalizing buffer ptr with
  | nil =>
      simp only [List.nil_append, getdelim, if_true]
      refine ⟨rfl, trivial, ?_, ?_, ?_, ?_⟩
      · exact writeBytes_cons buffer.bytes ptr '\n' [nul]
      · exact room
      · change 2 < buffer.bufsiz
        omega
      · intro write member
        rcases List.mem_cons.mp member with rfl | member
        · change ptr < buffer.bufsiz
          omega
        · cases List.mem_singleton.mp member
          change ptr + 1 < buffer.bufsiz
          omega
  | cons c line ih =>
      have other : c ≠ '\n' := fun same => whole (same ▸ List.mem_cons_self)
      have later : '\n' ∉ line := fun member => whole (List.mem_cons_of_mem _ member)
      have size : (buffer.store ptr c).bufsiz = buffer.bufsiz := rfl
      have next : ptr + 1 + 2 < ((buffer.store ptr c).grow (ptr + 1)).bufsiz :=
        grow_room (by rw [size]; exact room)
      obtain ⟨returned, remaining, reads⟩ := ih next later
      simp only [List.cons_append, getdelim, if_neg other]
      refine ⟨?_, remaining, ?_, ?_, reads.roomy, ?_⟩
      · rw [returned, List.length_cons]
        congr 1
        omega
      · rw [reads.bytes, grow_bytes]
        exact writeBytes_cons buffer.bytes ptr c (line ++ ['\n', nul])
      · rw [List.length_cons, Nat.add_comm _ 1, ← Nat.add_assoc]
        exact reads.room
      · intro write member
        rcases List.mem_cons.mp member with rfl | member
        · change ptr < buffer.bufsiz
          omega
        · exact reads.inside write member

/-- A call that meets the end of the file stores no terminator. -/
theorem getdelim_fragment {buffer : LineBuffer} {ptr : Nat} (last : CString)
    (room : ptr + 2 < buffer.bufsiz) (whole : '\n' ∉ last) :
    let call := getdelim '\n' buffer ptr last
    call.returned = (if ptr + last.length = 0 then none else some (ptr + last.length)) ∧
      call.rest = [] ∧ Reads buffer ptr last call := by
  induction last generalizing buffer ptr with
  | nil =>
      refine ⟨rfl, rfl, ?_, ?_, ?_, ?_⟩
      · funext address
        simp [getdelim, writeBytes]
      · change ptr + 0 < buffer.bufsiz
        omega
      · change 2 < buffer.bufsiz
        omega
      · intro write member
        cases member
  | cons c last ih =>
      have other : c ≠ '\n' := fun same => whole (same ▸ List.mem_cons_self)
      have later : '\n' ∉ last := fun member => whole (List.mem_cons_of_mem _ member)
      have size : (buffer.store ptr c).bufsiz = buffer.bufsiz := rfl
      have next : ptr + 1 + 2 < ((buffer.store ptr c).grow (ptr + 1)).bufsiz :=
        grow_room (by rw [size]; exact room)
      obtain ⟨returned, remaining, reads⟩ := ih next later
      have length : ptr + (c :: last).length = ptr + 1 + last.length := by
        rw [List.length_cons]
        omega
      simp only [getdelim, if_neg other]
      refine ⟨?_, remaining, ?_, ?_, reads.roomy, ?_⟩
      · rw [returned, length]
      · rw [reads.bytes, grow_bytes]
        exact writeBytes_cons buffer.bytes ptr c last
      · rw [length]
        exact reads.room
      · intro write member
        rcases List.mem_cons.mp member with rfl | member
        · change ptr < buffer.bufsiz
          omega
        · exact reads.inside write member

/-! ## The texts in the buffer -/

/-- The text of a buffer is what was stored exactly when a terminator follows it. -/
theorem text_eq_iff {buffer : LineBuffer} {memory : Nat → Char} {stored : CString}
    (bytes : buffer.bytes = writeBytes memory 0 stored) (room : stored.length < buffer.bufsiz)
    (clean : nul ∉ stored) : buffer.text = stored ↔ memory stored.length = nul := by
  have front : readBytes buffer.bytes 0 (stored.length + 1) = stored ++ [memory stored.length] := by
    rw [bytes]
    rw [readBytes_writeBytes_next, Nat.zero_add]
  constructor
  · intro same
    by_contra unended
    obtain ⟨rest, size⟩ := Nat.exists_eq_add_of_lt room
    have whole : readBytes buffer.bytes 0 buffer.bufsiz =
        (stored ++ [memory stored.length]) ++
          readBytes buffer.bytes (0 + (stored.length + 1)) rest := by
      rw [size, Nat.add_right_comm, readBytes_add, front]
    have longer : ∀ char ∈ stored ++ [memory stored.length], decide (char ≠ nul) = true := by
      intro char member
      rw [decide_eq_true_eq]
      rcases List.mem_append.mp member with inside | last
      · rintro rfl
        exact clean inside
      · rw [List.mem_singleton.mp last]
        exact unended
    have length := congrArg List.length same
    rw [LineBuffer.text, whole, List.takeWhile_append_of_pos longer, List.length_append,
      List.length_append, List.length_singleton] at length
    omega
  · intro ended
    rw [ended] at front
    exact text_terminated front room clean

/-! ## All calls -/

/-- What the buffer holds after whole lines have been read into it. -/
def memoryAfter (memory : Nat → Char) (lines : List CString) : Nat → Char :=
  lines.foldl (fun bytes line => writeBytes bytes 0 (line ++ [nul])) memory

/-- The last line has a line end, or meets a terminator that the buffer held before. -/
def EndedBy (memory : Nat → Char) (text : CString) : Prop :=
  ∀ last ∈ (textLines '\n' text).getLast?, '\n' ∉ last →
    memoryAfter memory (textLines '\n' text).dropLast last.length = nul

/-- The calls return the lengths of the lines and `-1` in the end, and write inside the
buffer. -/
structure Returns (text : CString) (calls : List Call) : Prop where
  returned : calls.map (·.returned) =
    (textLines '\n' text).map (fun line => some line.length) ++ [none]
  inside : ∀ call ∈ calls, ∀ write ∈ call.writes, write.ptr < write.bufsiz

theorem endedBy_line (memory : Nat → Char) (first rest : CString) (whole : '\n' ∉ first) :
    EndedBy memory (first ++ '\n' :: rest) ↔
      EndedBy (writeBytes memory 0 (first ++ ['\n'] ++ [nul])) rest := by
  rw [EndedBy, EndedBy, textLines_line first rest whole]
  cases textLines '\n' rest with
  | nil =>
      constructor
      · intro _ last member
        cases member
      · intro _ last member unended
        cases Option.mem_some.mp member
        exact absurd (List.mem_append_right _ List.mem_cons_self) unended
  | cons line lines =>
      rw [List.getLast?_cons_cons, List.dropLast_cons_of_ne_nil (List.cons_ne_nil line lines),
        memoryAfter, List.foldl_cons]
      rfl

section Calls

variable {heap : Nat → Char} {line : Option LineBuffer}

theorem getlineCalls_next {text : CString} (more : (getline heap line text).returned ≠ none) :
    getlineCalls heap line text = getline heap line text ::
      getlineCalls heap (some (getline heap line text).buffer) (getline heap line text).rest := by
  rw [getlineCalls]
  exact if_neg more

theorem getlineCalls_last {text : CString} (done : (getline heap line text).returned = none) :
    getlineCalls heap line text = [getline heap line text] := by
  rw [getlineCalls]
  exact if_pos done

theorem getlineCalls_ne_nil (text : CString) : getlineCalls heap line text ≠ [] := by
  by_cases done : (getline heap line text).returned = none
  · rw [getlineCalls_last done]
    exact List.cons_ne_nil _ _
  · rw [getlineCalls_next done]
    exact List.cons_ne_nil _ _

theorem getline_line (first rest : CString) (whole : '\n' ∉ first)
    (room : 2 < (line.getD (newBuffer heap)).bufsiz) :
    (getline heap line (first ++ '\n' :: rest)).returned = some (first ++ ['\n']).length ∧
      (getline heap line (first ++ '\n' :: rest)).rest = rest ∧
      Reads (line.getD (newBuffer heap)) 0 (first ++ ['\n', nul])
        (getline heap line (first ++ '\n' :: rest)) := by
  obtain ⟨returned, remaining, reads⟩ := getdelim_line first rest (by omega) whole
  refine ⟨?_, remaining, reads⟩
  rw [getline, returned, List.length_append, Nat.zero_add]
  rfl

/-- A file without a line end is returned as it is, by the first call or not at all. -/
theorem getlineCalls_fragment (last : CString) (whole : '\n' ∉ last)
    (room : 2 < (line.getD (newBuffer heap)).bufsiz) (nonempty : last ≠ []) :
    ∃ call final, getlineCalls heap line last = [call, final] ∧
      call.returned = some last.length ∧ final.returned = none ∧ final.writes = [] ∧
      Reads (line.getD (newBuffer heap)) 0 last call := by
  obtain ⟨returned, remaining, reads⟩ := getdelim_fragment last (by omega) whole
  have some_length : (getline heap line last).returned = some last.length := by
    have positive : 0 + last.length ≠ 0 := by
      rw [Nat.zero_add]
      exact mt List.eq_nil_of_length_eq_zero nonempty
    rw [getline, returned, if_neg positive, Nat.zero_add]
  have more : (getline heap line last).returned ≠ none := by
    rw [some_length]
    exact Option.some_ne_none _
  have nothing_left : (getline heap line last).rest = [] := remaining
  refine ⟨getline heap line last, getline heap (some (getline heap line last).buffer) [],
    ?_, some_length, rfl, rfl, reads⟩
  rw [getlineCalls_next more, nothing_left, getlineCalls_last rfl]

theorem getlineCalls_returns (text : CString)
    (room : 2 < (line.getD (newBuffer heap)).bufsiz) :
    Returns text (getlineCalls heap line text) := by
  induction text using lines_induction '\n' generalizing line with
  | fragment last whole =>
      by_cases empty : last = []
      · rw [empty, getlineCalls_last rfl]
        constructor
        · rfl
        · intro call member write written
          cases List.mem_singleton.mp member
          cases written
      · obtain ⟨call, final, calls, returned, done, unwritten, reads⟩ :=
          getlineCalls_fragment last whole room empty
        rw [calls]
        constructor
        · rw [textLines_fragment last whole empty, List.map_cons, List.map_singleton, returned, done]
          rfl
        · intro other member write written
          rcases List.mem_cons.mp member with rfl | member
          · exact reads.inside write written
          · cases List.mem_singleton.mp member
            rw [unwritten] at written
            cases written
  | line first rest whole ih =>
      obtain ⟨returned, remaining, reads⟩ := getline_line first rest whole room
      have more : (getline heap line (first ++ '\n' :: rest)).returned ≠ none := by
        rw [returned]
        exact Option.some_ne_none _
      have later := @ih (some (getline heap line (first ++ '\n' :: rest)).buffer) reads.roomy
      rw [getlineCalls_next more, remaining]
      constructor
      · rw [textLines_line first rest whole, List.map_cons, List.map_cons, returned, later.returned]
        rfl
      · intro call member write written
        rcases List.mem_cons.mp member with rfl | member
        · exact reads.inside write written
        · exact later.inside call member write written

/-- The texts in the buffer are the lines exactly when the last one is ended. -/
theorem getlineCalls_texts_iff (text : CString) (clean : nul ∉ text)
    (room : 2 < (line.getD (newBuffer heap)).bufsiz) :
    (getlineCalls heap line text).dropLast.map (·.buffer.text) = textLines '\n' text ↔
      EndedBy (line.getD (newBuffer heap)).bytes text := by
  induction text using lines_induction '\n' generalizing line with
  | fragment last whole =>
      by_cases empty : last = []
      · rw [empty, getlineCalls_last rfl]
        constructor
        · intro _ last member
          cases member
        · intro _
          rfl
      · obtain ⟨call, final, calls, -, -, -, reads⟩ :=
          getlineCalls_fragment last whole room empty
        have fits : last.length < call.buffer.bufsiz := by
          have inside := reads.room
          omega
        have text := text_eq_iff reads.bytes fits clean
        rw [calls, EndedBy, textLines_fragment last whole empty]
        constructor
        · intro same final member _
          cases Option.mem_some.mp member
          exact text.mp (List.head_eq_of_cons_eq same)
        · intro ended
          exact congrArg (fun read => [read]) (text.mpr (ended last rfl whole))
  | line first rest whole ih =>
      obtain ⟨returned, remaining, reads⟩ := getline_line first rest whole room
      have more : (getline heap line (first ++ '\n' :: rest)).returned ≠ none := by
        rw [returned]
        exact Option.some_ne_none _
      have clean_first : nul ∉ first ++ ['\n'] := by
        intro member
        rcases List.mem_append.mp member with inside | ends
        · exact clean (List.mem_append_left _ inside)
        · exact absurd (List.mem_singleton.mp ends) (by decide)
      have clean_rest : nul ∉ rest := fun member =>
        clean (List.mem_append_right _ (List.mem_cons_of_mem _ member))
      have split : first ++ ['\n', nul] = (first ++ ['\n']) ++ [nul] := by
        rw [List.append_assoc]
        rfl
      have text : (getline heap line (first ++ '\n' :: rest)).buffer.text = first ++ ['\n'] := by
        apply text_terminated _ _ clean_first
        · rw [reads.bytes, split]
          have read := readBytes_writeBytes (line.getD (newBuffer heap)).bytes 0
            (first ++ ['\n'] ++ [nul])
          rw [List.length_append, List.length_singleton] at read
          exact read
        · have inside := reads.room
          rw [split, List.length_append] at inside
          omega
      have later := @ih (some (getline heap line (first ++ '\n' :: rest)).buffer) clean_rest
        reads.roomy
      rw [getlineCalls_next more, remaining, List.dropLast_cons_of_ne_nil (getlineCalls_ne_nil rest),
        List.map_cons, text, textLines_line first rest whole, List.cons_inj_right, later,
        endedBy_line _ first rest whole]
      change EndedBy (getline heap line (first ++ '\n' :: rest)).buffer.bytes rest ↔ _
      rw [reads.bytes, split]

end Calls

/-! ## When the last line is ended -/

/-- The last of the lines that are not shorter than a text is as long as the text, so
that its terminator stands behind it; without such a line the memory has to hold one. -/
def TerminatorBehind (memory : Nat → Char) (lines : List CString) (length : Nat) : Prop :=
  match (lines.filter fun line => length ≤ line.length).getLast? with
  | some line => line.length = length
  | none => memory length = nul

theorem memoryAfter_append (memory : Nat → Char) (lines : List CString) (line : CString) :
    memoryAfter memory (lines ++ [line]) =
      writeBytes (memoryAfter memory lines) 0 (line ++ [nul]) := by
  rw [memoryAfter, List.foldl_append]
  rfl

theorem memoryAfter_eq_nul_iff (memory : Nat → Char) (lines : List CString) (length : Nat)
    (clean : ∀ line ∈ lines, nul ∉ line) :
    memoryAfter memory lines length = nul ↔ TerminatorBehind memory lines length := by
  induction lines using List.reverseRecOn with
  | nil => rfl
  | append_singleton lines newest ih =>
      have earlier := ih fun other member => clean other (List.mem_append_left _ member)
      have clean_line : nul ∉ newest := clean newest (List.mem_append_right _ List.mem_cons_self)
      rw [memoryAfter_append, TerminatorBehind, List.filter_append]
      by_cases reaches : length ≤ newest.length
      · have kept : [newest].filter (fun line => length ≤ line.length) = [newest] :=
          List.filter_cons_of_pos (decide_eq_true reaches)
        rw [kept, List.getLast?_concat]
        change _ ↔ newest.length = length
        rcases Nat.lt_or_eq_of_le reaches with inside | behind
        · have letter : writeBytes (memoryAfter memory lines) 0 (newest ++ [nul]) length =
              newest[length] := by
            simp [writeBytes, List.getElem?_append_left inside, List.getElem?_eq_getElem inside]
          rw [letter]
          constructor
          · intro ended
            exact absurd (ended ▸ List.getElem_mem inside) clean_line
          · intro same
            omega
        · subst behind
          simp [writeBytes]
      · have dropped : [newest].filter (fun line => length ≤ line.length) = [] :=
          List.filter_cons_of_neg (by simpa using reaches)
        have unwritten : writeBytes (memoryAfter memory lines) 0 (newest ++ [nul]) length =
            memoryAfter memory lines length := by
          apply writeBytes_after
          rw [List.length_append, List.length_singleton]
          omega
        rw [dropped, List.append_nil, unwritten]
        exact earlier

/-- What a file has to be like for its last line to be read as it is. -/
def LastLineEnded (memory : Nat → Char) (text : CString) : Prop :=
  ∀ last ∈ (textLines '\n' text).getLast?, '\n' ∉ last →
    TerminatorBehind memory (textLines '\n' text).dropLast last.length

theorem endedBy_iff (memory : Nat → Char) (text : CString) (clean : nul ∉ text) :
    EndedBy memory text ↔ LastLineEnded memory text := by
  have clean_lines : ∀ line ∈ (textLines '\n' text).dropLast, nul ∉ line := by
    intro line member inside
    have joined : nul ∈ (textLines '\n' text).flatten :=
      List.mem_flatten.mpr ⟨line, List.dropLast_subset _ member, inside⟩
    rw [textLines_join] at joined
    exact clean joined
  have same (length : Nat) := memoryAfter_eq_nul_iff memory _ length clean_lines
  constructor
  · intro ended last member unended
    exact (same last.length).mp (ended last member unended)
  · intro ended last member unended
    exact (same last.length).mpr (ended last member unended)

/-! ## What `config_file_parse` reads -/

theorem getlines_getdelim (buffer : LineBuffer) (ptr : Nat) (text : CString) :
    getlines buffer ptr text =
      if (getdelim '\n' buffer ptr text).returned = none then []
      else (getdelim '\n' buffer ptr text).buffer.text ::
        getlines (getdelim '\n' buffer ptr text).buffer 0
          (getdelim '\n' buffer ptr text).rest := by
  induction text generalizing buffer ptr with
  | nil =>
      rw [getlines, getdelim]
      by_cases start : ptr = 0
      · rw [if_pos start, if_pos start, if_pos rfl]
      · rw [if_neg start, if_neg start, if_neg (Option.some_ne_none ptr)]
        rfl
  | cons c rest ih =>
      rw [getlines, getdelim]
      by_cases ends : c = '\n'
      · rw [if_pos ends, if_pos ends, if_neg (Option.some_ne_none _)]
      · rw [if_neg ends, if_neg ends]
        exact ih ((buffer.store ptr c).grow (ptr + 1)) (ptr + 1)

/-- The texts that the configuration is read from are those of the calls. -/
theorem getlines_calls (heap : Nat → Char) (line : Option LineBuffer) (text : CString) :
    getlines (line.getD (newBuffer heap)) 0 text =
      (getlineCalls heap line text).dropLast.map (·.buffer.text) := by
  induction size : text.length using Nat.strongRecOn generalizing line text with
  | ind count ih =>
      rw [getlines_getdelim]
      by_cases done : (getline heap line text).returned = none
      · rw [getlineCalls_last done]
        exact if_pos done
      · have shorter := getline_rest heap line text done
        rw [size] at shorter
        have later := ih _ shorter (some (getline heap line text).buffer) _ rfl
        rw [getlineCalls_next done, List.dropLast_cons_of_ne_nil (getlineCalls_ne_nil _),
          List.map_cons, ← later]
        exact if_neg done

/-! ## Every file -/

/-- The calls return the lines with their lengths, then `-1`; the buffer holds each line
as a text, and is never left. -/
structure ReadsLines (text : CString) (calls : List Call) : Prop extends Returns text calls where
  texts : calls.dropLast.map (·.buffer.text) = textLines '\n' text

theorem getline_reads_lines_iff (heap : Nat → Char) (text : CString) (clean : nul ∉ text) :
    ReadsLines text (getlineCalls heap none text) ↔ LastLineEnded heap text := by
  have room : 2 < (newBuffer heap).bufsiz := (newBuffer_holds heap).room
  have texts := @getlineCalls_texts_iff heap none text clean room
  rw [← endedBy_iff heap text clean]
  constructor
  · intro reads
    exact texts.mp reads.texts
  · intro ended
    exact ⟨getlineCalls_returns text room, texts.mpr ended⟩

theorem getline_reads_equally_long_lines :
    ReadsLines "fps = 3\nfps = 60".toList
      (getlineCalls (fun _ => 'x') none "fps = 3\nfps = 60".toList) := by
  apply (getline_reads_lines_iff (fun _ => 'x') "fps = 3\nfps = 60".toList (by decide)).mpr
  intro last member _
  have found : (textLines '\n' "fps = 3\nfps = 60".toList).getLast? = some "fps = 60".toList := by
    decide
  cases Option.mem_unique member found
  rfl

/-- The frame rate of the last line is read as 301280. -/
theorem unended_line_read_on :
    ¬ ReadsLines "width = 1280\nfps = 30".toList
      (getlineCalls (fun _ => 'x') none "width = 1280\nfps = 30".toList) := by
  intro reads
  have texts := reads.texts
  rw [← getlines_calls] at texts
  exact absurd texts (by decide +kernel)

end MoonlightWii.App.GetLine
