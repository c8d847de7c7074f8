import MoonlightWii.Foundation.ByteMemory
import MoonlightWii.Wii.Menu

/-!
# Entering a text (`menu.c`)

`menu_input_string` edits a text with a cursor and a selected character.  The buttons
of a poll act on the clamped editor; what a run shows and returns is read off the
editors of its polls.
-/

set_option autoImplicit false

namespace MoonlightWii.Wii.InputString

open Foundation.ByteMemory
open MoonlightWii.Wii.Input
open MoonlightWii.Wii.Menu

def nul : Char := Char.ofNat 0

/-- `sizeof(buf)` -/
def bufferSize : Nat := 256

def strncpy (dst : Nat → Char) (src : List Char) (n : Nat) : Nat → Char :=
  writeBytes dst 0 (src.take n ++ List.replicate (n - src.length) nul)

/-- The text at the start of a buffer. -/
def cString (bytes : Nat → Char) : List Char :=
  (readBytes bytes 0 bufferSize).takeWhile (· ≠ nul)

def charsetIndex (charset : List Char) (c : Char) : Nat :=
  (charset.findIdx? fun char => char == c).getD 0

/-- `charset[i]`, with the terminator behind the characters. -/
def charAt (charset : List Char) (i : Nat) : Char := charset[i]?.getD nul

def extendTo (b : Nat → Char) (l p : Nat) (cs : List Char) : (Nat → Char) × Nat :=
  if l ≤ p then extendTo (writeBytes b l [charAt cs 0]) (l + 1) p cs else (b, l)
termination_by p + 1 - l

structure Editor where
  buf : Nat → Char
  len : Nat
  pos : Int
  sel : Int

section Editing

variable (charset : List Char) (maxlen : Nat)

def start (initial : Option (List Char)) : Editor :=
  let zeroed : Nat → Char := fun _ => nul
  let buf :=
    match initial with
    | some text => writeBytes (strncpy zeroed text maxlen) maxlen [nul]
    | none => zeroed
  { buf := buf, len := (cString buf).length, pos := 0, sel := charsetIndex charset (buf 0) }

/-- The tests on `pos` and `sel` at the head of the loop. -/
def clamp (editor : Editor) : Editor :=
  let pos := if editor.pos < 0 then 0 else editor.pos
  let sel := if editor.sel < 0 then 0 else editor.sel
  { editor with
    pos := if (maxlen : Int) - 1 < pos then maxlen - 1 else pos
    sel := if (charset.length : Int) ≤ sel then charset.length - 1 else sel }

/-- `extend_to(buf, &len, pos, charset); buf[pos] = charset[sel]` -/
def choose (editor : Editor) (sel : Int) : Editor :=
  let extended := extendTo editor.buf editor.len editor.pos.toNat charset
  { editor with
    buf := writeBytes extended.1 editor.pos.toNat [charAt charset sel.toNat]
    len := extended.2
    sel := sel }

def moveLeft (editor : Editor) : Editor :=
  if 0 < editor.pos then
    { editor with
      pos := editor.pos - 1
      sel := charsetIndex charset (editor.buf (editor.pos - 1).toNat) }
  else editor

def moveRight (editor : Editor) : Editor :=
  if editor.pos < maxlen - 1 then
    { editor with
      pos := editor.pos + 1
      sel :=
        if (editor.len : Int) ≤ editor.pos + 1 then 0
        else charsetIndex charset (editor.buf (editor.pos + 1).toNat) }
  else editor

/-- What the buttons of a poll do that ends neither with A nor with B. -/
def press (btns : Button → Bool) (editor : Editor) : Editor :=
  if btns .up then choose charset editor ((editor.sel - 1 + charset.length) % charset.length)
  else if btns .down then choose charset editor ((editor.sel + 1) % charset.length)
  else if btns .left then moveLeft charset editor
  else if btns .right then moveRight charset maxlen editor
  else editor

/-- `buf[len] = '\0'; strncpy(out, buf, maxlen); out[maxlen] = '\0'` -/
def finish (out : Nat → Char) (editor : Editor) : Nat → Char :=
  let ended := writeBytes editor.buf editor.len [nul]
  writeBytes (strncpy out (cString ended) maxlen) maxlen [nul]

/-- The loop: what it returns, with the text in `out` for 1. -/
def inputLoop (out : Nat → Char) :
    ProcState → Editor → List Scan → Option (Option (Nat → Char))
  | proc, _, [] => if proc.leaves then some none else none
  | proc, editor, scan :: rest =>
      if proc.leaves then some none
      else
        let shown := clamp charset maxlen editor
        let (btns, polled) := poll proc scan
        if btns .a then some (some (finish maxlen out shown))
        else if btns .b then some none
        else inputLoop out polled (press charset maxlen btns shown) rest

def menuInputString (out : Nat → Char) (initial : Option (List Char)) (proc : ProcState)
    (scans : List Scan) : Option (Option (Nat → Char)) :=
  if charset.length = 0 ∨ maxlen ≤ 0 ∨ bufferSize ≤ maxlen then some none
  else inputLoop charset maxlen out proc (start charset maxlen initial) scans

/-- The clamped editors that the loop polls with, and the buttons of these polls. -/
def inputPolls : ProcState → Editor → List Scan → List (Editor × (Button → Bool))
  | _, _, [] => []
  | proc, editor, scan :: rest =>
      if proc.leaves then []
      else
        let shown := clamp charset maxlen editor
        let (btns, polled) := poll proc scan
        if btns .a || btns .b then [(shown, btns)]
        else (shown, btns) :: inputPolls polled (press charset maxlen btns shown) rest

/-! ## The invariant -/

/-- A clamped editor: the text is made of the characters, and the selected one is the
one at the cursor. -/
structure Good (editor : Editor) : Prop where
  len_le : editor.len ≤ maxlen
  pos_nonneg : 0 ≤ editor.pos
  pos_le : editor.pos ≤ maxlen - 1
  sel_nonneg : 0 ≤ editor.sel
  sel_lt : editor.sel < charset.length
  text : ∀ index < editor.len, editor.buf index ∈ charset ∧ editor.buf index ≠ nul
  zero : ∀ index, editor.len ≤ index → index < bufferSize → editor.buf index = nul
  selected : editor.pos < editor.len →
    charset[editor.sel.toNat]? = some (editor.buf editor.pos.toNat)

/-- What the buttons of a poll do to the text: the character at the cursor is chosen,
with the first character in a gap before it, or nothing changes. -/
structure Edits (btns : Button → Bool) (before after : Editor) : Prop where
  moved : btns .up = false → btns .down = false → after.buf = before.buf ∧ after.len = before.len
  chosen : btns .up = true ∨ btns .down = true →
    after.pos = before.pos ∧ after.len = max before.len (before.pos.toNat + 1) ∧
      ∀ index, index ≠ before.pos.toNat → after.buf index =
        if before.len ≤ index ∧ index < before.pos.toNat then charAt charset 0
        else before.buf index

/-- The text of an editor stands in `out` with its terminator, and nothing else has been
written. -/
structure Written (out result : Nat → Char) (editor : Editor) : Prop where
  text : readBytes result 0 (editor.len + 1) = readBytes editor.buf 0 editor.len ++ [nul]
  room : editor.len + 1 ≤ maxlen + 1
  outside : ∀ index, maxlen < index → result index = out index

end Editing

/-! ## Characters -/

section Characters

variable {charset : List Char}

theorem charsetIndex_lt (c : Char) (characters : charset ≠ []) :
    charsetIndex charset c < charset.length := by
  unfold charsetIndex
  cases found : charset.findIdx? fun char => char == c with
  | none => exact List.length_pos_of_ne_nil characters
  | some index => exact (List.findIdx?_eq_some_iff_getElem.mp found).1

theorem charset_charsetIndex {c : Char} (member : c ∈ charset) :
    charset[charsetIndex charset c]? = some c := by
  unfold charsetIndex
  cases found : charset.findIdx? fun char => char == c with
  | none =>
      have other := List.findIdx?_eq_none_iff.mp found c member
      rw [beq_self_eq_true] at other
      cases other
  | some index =>
      obtain ⟨inside, same, -⟩ := List.findIdx?_eq_some_iff_getElem.mp found
      rw [Option.getD_some, List.getElem?_eq_getElem inside, beq_iff_eq.mp same]

theorem charAt_mem {index : Nat} (inside : index < charset.length) :
    charAt charset index ∈ charset ∧ charset[index]? = some (charAt charset index) := by
  have found := List.getElem?_eq_getElem inside
  rw [charAt, found]
  exact ⟨List.getElem_mem inside, rfl⟩

end Characters

/-! ## Filling a gap -/

theorem extendTo_length (b : Nat → Char) (l p : Nat) (cs : List Char) :
    (extendTo b l p cs).2 = max l (p + 1) := by
  induction b, l using extendTo.induct p cs with
  | case1 b l gap ih =>
      rw [extendTo, if_pos gap, ih]
      omega
  | case2 b l full =>
      rw [extendTo, if_neg full]
      omega

theorem extendTo_bytes (b : Nat → Char) (l p : Nat) (cs : List Char) (index : Nat) :
    (extendTo b l p cs).1 index =
      if l ≤ index ∧ index ≤ p then charAt cs 0 else b index := by
  induction b, l using extendTo.induct p cs with
  | case1 b l gap ih =>
      rw [extendTo, if_pos gap, ih]
      by_cases here : index = l
      · subst here
        simp [writeBytes, gap]
      · have other : writeBytes b l [charAt cs 0] index = b index := by
          by_cases before : index < l
          · exact writeBytes_before b l index _ before
          · apply writeBytes_after
            rw [List.length_singleton]
            omega
        rw [other]
        have same : (l + 1 ≤ index ∧ index ≤ p) ↔ (l ≤ index ∧ index ≤ p) := by omega
        simp only [same]
  | case2 b l full =>
      have outside : ¬ (l ≤ index ∧ index ≤ p) := by omega
      rw [extendTo, if_neg full, if_neg outside]

/-! ## One poll -/

section Polls

variable {charset : List Char} {maxlen : Nat}

theorem clamp_good {editor : Editor} (good : Good charset maxlen editor) :
    clamp charset maxlen editor = editor := by
  have pos_nonneg := good.pos_nonneg
  have pos_le := good.pos_le
  have sel_nonneg := good.sel_nonneg
  have sel_lt := good.sel_lt
  have low : ¬ editor.pos < 0 := by omega
  have high : ¬ (maxlen : Int) - 1 < editor.pos := by omega
  have first : ¬ editor.sel < 0 := by omega
  have last : ¬ (charset.length : Int) ≤ editor.sel := by omega
  simp only [clamp, if_neg low, if_neg high, if_neg first, if_neg last]

theorem choose_len (editor : Editor) (sel : Int) :
    (choose charset editor sel).len = max editor.len (editor.pos.toNat + 1) :=
  extendTo_length editor.buf editor.len editor.pos.toNat charset

theorem choose_cursor (editor : Editor) (sel : Int) :
    (choose charset editor sel).buf editor.pos.toNat = charAt charset sel.toNat := by
  simp [choose, writeBytes]

theorem choose_other (editor : Editor) (sel : Int) {index : Nat}
    (other : index ≠ editor.pos.toNat) :
    (choose charset editor sel).buf index =
      if editor.len ≤ index ∧ index < editor.pos.toNat then charAt charset 0
      else editor.buf index := by
  have unwritten : (choose charset editor sel).buf index =
      (extendTo editor.buf editor.len editor.pos.toNat charset).1 index := by
    rcases Nat.lt_or_gt_of_ne other with before | behind
    · exact writeBytes_before _ _ _ _ before
    · apply writeBytes_after
      rw [List.length_singleton]
      omega
  have gap : (editor.len ≤ index ∧ index ≤ editor.pos.toNat) ↔
      (editor.len ≤ index ∧ index < editor.pos.toNat) := by
    omega
  rw [unwritten, extendTo_bytes]
  simp only [gap]

theorem choose_good {editor : Editor} {sel : Int} (good : Good charset maxlen editor)
    (clean : nul ∉ charset) (sel_nonneg : 0 ≤ sel) (sel_lt : sel < charset.length) :
    Good charset maxlen (choose charset editor sel) := by
  have pos_nonneg := good.pos_nonneg
  have pos_le := good.pos_le
  have len_le := good.len_le
  have length := @choose_len charset editor sel
  obtain ⟨member, found⟩ := @charAt_mem charset sel.toNat (by omega)
  obtain ⟨first_member, -⟩ := @charAt_mem charset 0 (by omega)
  constructor
  · rw [length]
    omega
  · exact pos_nonneg
  · exact pos_le
  · exact sel_nonneg
  · exact sel_lt
  · intro index inside
    rw [length] at inside
    by_cases here : index = editor.pos.toNat
    · rw [here, choose_cursor]
      exact ⟨member, fun same => clean (same ▸ member)⟩
    · rw [choose_other editor sel here]
      split
      · exact ⟨first_member, fun same => clean (same ▸ first_member)⟩
      · apply good.text
        omega
  · intro index outside inside
    rw [length] at outside
    have not_gap : ¬ (editor.len ≤ index ∧ index < editor.pos.toNat) := by omega
    rw [choose_other editor sel (by omega), if_neg not_gap]
    exact good.zero index (by omega) inside
  · intro _
    change charset[sel.toNat]? = some ((choose charset editor sel).buf editor.pos.toNat)
    rw [found, choose_cursor]

/-- A move of the cursor to a position of the line, with the character that stands
there. -/
theorem move_good {editor : Editor} {pos sel : Int} (good : Good charset maxlen editor)
    (pos_nonneg : 0 ≤ pos) (pos_le : pos ≤ maxlen - 1) (sel_nonneg : 0 ≤ sel)
    (sel_lt : sel < charset.length)
    (selected : pos < editor.len → sel = charsetIndex charset (editor.buf pos.toNat)) :
    Good charset maxlen { editor with pos := pos, sel := sel } := by
  constructor
  · exact good.len_le
  · exact pos_nonneg
  · exact pos_le
  · exact sel_nonneg
  · exact sel_lt
  · exact good.text
  · exact good.zero
  · intro inside
    have letter := (good.text pos.toNat (by change pos < (editor.len : Int) at inside; omega)).1
    change charset[sel.toNat]? = _
    rw [selected inside, Int.toNat_natCast]
    exact charset_charsetIndex letter

theorem moveLeft_good {editor : Editor} (good : Good charset maxlen editor)
    (characters : charset ≠ []) : Good charset maxlen (moveLeft charset editor) := by
  have pos_le := good.pos_le
  unfold moveLeft
  split
  · apply move_good good
    · omega
    · omega
    · exact Int.natCast_nonneg _
    · exact Int.ofNat_lt.mpr (charsetIndex_lt _ characters)
    · intro _
      rfl
  · exact good

theorem moveRight_good {editor : Editor} (good : Good charset maxlen editor)
    (characters : charset ≠ []) : Good charset maxlen (moveRight charset maxlen editor) := by
  have pos_nonneg := good.pos_nonneg
  have some_characters := List.length_pos_of_ne_nil characters
  unfold moveRight
  split
  · apply move_good good
    · omega
    · omega
    · split
      · exact Int.le_refl 0
      · exact Int.natCast_nonneg _
    · split
      · exact Int.ofNat_lt.mpr some_characters
      · exact Int.ofNat_lt.mpr (charsetIndex_lt _ characters)
    · intro inside
      rw [if_neg (Int.not_le.mpr inside)]
  · exact good

/-- Every poll keeps the invariant. -/
theorem press_good {editor : Editor} (btns : Button → Bool) (good : Good charset maxlen editor)
    (characters : charset ≠ []) (clean : nul ∉ charset) :
    Good charset maxlen (press charset maxlen btns editor) := by
  have some_characters : (0 : Int) < charset.length :=
    Int.ofNat_lt.mpr (List.length_pos_of_ne_nil characters)
  unfold press
  split
  · exact choose_good good clean (Int.emod_nonneg _ (by omega))
      (Int.emod_lt_of_pos _ some_characters)
  · split
    · exact choose_good good clean (Int.emod_nonneg _ (by omega))
        (Int.emod_lt_of_pos _ some_characters)
    · split
      · exact moveLeft_good good characters
      · split
        · exact moveRight_good good characters
        · exact good

theorem choose_edits {btns : Button → Bool} (editor : Editor) (sel : Int)
    (pressed : btns .up = true ∨ btns .down = true) :
    Edits charset btns editor (choose charset editor sel) := by
  constructor
  · intro up down
    rw [up, down] at pressed
    simp at pressed
  · intro _
    refine ⟨rfl, choose_len editor sel, ?_⟩
    intro index other
    exact choose_other editor sel other

theorem same_text_edits {btns : Button → Bool} {before after : Editor}
    (up : btns .up ≠ true) (down : btns .down ≠ true) (buf : after.buf = before.buf)
    (len : after.len = before.len) : Edits charset btns before after := by
  constructor
  · intro _ _
    exact ⟨buf, len⟩
  · intro pressed
    exact absurd pressed (not_or.mpr ⟨up, down⟩)

theorem press_edits (btns : Button → Bool) (editor : Editor) :
    Edits charset btns editor (press charset maxlen btns editor) := by
  unfold press
  split
  · rename_i up
    exact choose_edits editor _ (Or.inl up)
  · rename_i up
    split
    · rename_i down
      exact choose_edits editor _ (Or.inr down)
    · rename_i down
      split
      · unfold moveLeft
        split
        · exact same_text_edits up down rfl rfl
        · exact same_text_edits up down rfl rfl
      · split
        · unfold moveRight
          split
          · exact same_text_edits up down rfl rfl
          · exact same_text_edits up down rfl rfl
        · exact same_text_edits up down rfl rfl

end Polls

/-! ## The whole run -/

theorem cString_eq {bytes : Nat → Char} {text : List Char}
    (stored : readBytes bytes 0 text.length = text) (clean : nul ∉ text)
    (ended : bytes text.length = nul) (room : text.length < bufferSize) :
    cString bytes = text := by
  apply takeWhile_readBytes stored _ _ room
  · intro letter member
    rw [decide_eq_true_eq]
    rintro rfl
    exact clean member
  · rw [ended]
    rfl

/-- `strncpy` and the terminator that follows it. -/
theorem strncpy_ended (dst : Nat → Char) (src : List Char) (n : Nat) (index : Nat) :
    writeBytes (strncpy dst src n) n [nul] index =
      if n < index then dst index else (src.take n)[index]?.getD nul := by
  have size : (src.take n ++ List.replicate (n - src.length) nul).length = n := by
    rw [List.length_append, List.length_take, List.length_replicate]
    omega
  rcases Nat.lt_trichotomy index n with before | rfl | behind
  · have inside : ¬ n < index := by omega
    rw [if_neg inside, writeBytes_before _ _ _ _ before, strncpy]
    change ((src.take n ++ List.replicate (n - src.length) nul)[index]?).getD (dst index) = _
    by_cases letter : index < (src.take n).length
    · rw [List.getElem?_append_left letter, List.getElem?_eq_getElem letter]
      rfl
    · have padding : index - (src.take n).length < n - src.length := by
        rw [List.length_take] at letter ⊢
        omega
      have behind := Nat.le_of_not_lt letter
      rw [List.getElem?_append_right behind, List.getElem?_replicate, if_pos padding,
        List.getElem?_eq_none behind]
      rfl
  · have short : (src.take index).length ≤ index := List.length_take_le index src
    simp [writeBytes, List.getElem?_eq_none short]
  · rw [if_pos behind, writeBytes_after, strncpy, writeBytes_after]
    · omega
    · rw [List.length_singleton]
      omega

section Run

variable {charset : List Char} {maxlen : Nat}

/-- The editor starts with the first characters of the initial text. -/
theorem start_text {initial : Option (List Char)}
    (allowed : ∀ text ∈ initial, ∀ char ∈ text, char ∈ charset) :
    ∃ text : List Char, text.length ≤ maxlen ∧ (∀ char ∈ text, char ∈ charset) ∧
      ∀ index, (start charset maxlen initial).buf index = text[index]?.getD nul := by
  cases initial with
  | none => exact ⟨[], Nat.zero_le _, by simp, fun index => rfl⟩
  | some text =>
      refine ⟨text.take maxlen, List.length_take_le _ _, ?_, ?_⟩
      · intro char member
        exact allowed text rfl char (List.mem_of_mem_take member)
      · intro index
        change writeBytes (strncpy (fun _ => nul) text maxlen) maxlen [nul] index = _
        rw [strncpy_ended]
        split
        · rename_i behind
          have beyond : (text.take maxlen).length ≤ index :=
            (List.length_take_le _ _).trans (Nat.le_of_lt behind)
          rw [List.getElem?_eq_none beyond]
          rfl
        · rfl

theorem start_good {initial : Option (List Char)} (characters : charset ≠ [])
    (clean : nul ∉ charset) (low : 1 ≤ maxlen) (room : maxlen < bufferSize)
    (allowed : ∀ text ∈ initial, ∀ char ∈ text, char ∈ charset) :
    Good charset maxlen (start charset maxlen initial) := by
  obtain ⟨text, short, over_text, bytes⟩ := @start_text charset maxlen initial allowed
  have clean_text : nul ∉ text := fun member => clean (over_text nul member)
  have stored : readBytes (start charset maxlen initial).buf 0 text.length = text := by
    apply List.ext_getElem
    · rw [readBytes_length]
    · intro index _ inside
      simp [readBytes, bytes, inside]
  have len : (start charset maxlen initial).len = text.length := by
    change (cString (start charset maxlen initial).buf).length = _
    rw [cString_eq stored clean_text (by rw [bytes]; simp) (by omega)]
  have letter {index : Nat} (inside : index < text.length) :
      (start charset maxlen initial).buf index ∈ charset := by
    rw [bytes, List.getElem?_eq_getElem inside]
    exact over_text _ (List.getElem_mem inside)
  constructor
  · rw [len]
    exact short
  · exact Int.le_refl 0
  · change (0 : Int) ≤ maxlen - 1
    omega
  · exact Int.natCast_nonneg _
  · exact Int.ofNat_lt.mpr (charsetIndex_lt _ characters)
  · intro index inside
    rw [len] at inside
    exact ⟨letter inside, fun same => clean (same ▸ letter inside)⟩
  · intro index outside _
    rw [len] at outside
    rw [bytes, List.getElem?_eq_none outside]
    rfl
  · intro inside
    rw [len] at inside
    change (0 : Int) < text.length at inside
    exact charset_charsetIndex (letter (by omega))

theorem finish_written {editor : Editor} (out : Nat → Char) (good : Good charset maxlen editor)
    (room : maxlen < bufferSize) : Written maxlen out (finish maxlen out editor) editor := by
  have len_le := good.len_le
  let text := readBytes editor.buf 0 editor.len
  have length : text.length = editor.len := readBytes_length _ _ _
  have clean : nul ∉ text := by
    intro member
    obtain ⟨index, inside, same⟩ := List.mem_map.mp member
    rw [Nat.zero_add] at same
    exact (good.text index (List.mem_range.mp inside)).2 same
  have ended : cString (writeBytes editor.buf editor.len [nul]) = text := by
    apply cString_eq _ clean
    · rw [length]
      simp [writeBytes]
    · omega
    · rw [length]
      exact readBytes_writeBytes_before _ _ _ _ _ (by omega)
  have bytes (index : Nat) : finish maxlen out editor index =
      if maxlen < index then out index else text[index]?.getD nul := by
    have whole : text.take maxlen = text := List.take_of_length_le (by omega)
    unfold finish
    rw [strncpy_ended, ended, whole]
  constructor
  · have copied : readBytes (finish maxlen out editor) 0 editor.len = text := by
      apply readBytes_congr
      intro index _ inside
      have near : ¬ maxlen < index := by omega
      have letter : text[index]? = some (editor.buf index) := by
        simp [text, readBytes, (show index < editor.len by omega)]
      rw [bytes, if_neg near, letter]
      rfl
    have last : finish maxlen out editor (0 + editor.len) = nul := by
      have near : ¬ maxlen < 0 + editor.len := by omega
      rw [bytes, if_neg near, List.getElem?_eq_none (by omega)]
      rfl
    rw [readBytes_add, copied]
    exact congrArg (text ++ [·]) last
  · omega
  · intro index behind
    rw [bytes, if_pos behind]

/-- Every poll of a run meets a good editor. -/
theorem inputPolls_good {proc : ProcState} {editor : Editor} {scans : List Scan}
    (good : Good charset maxlen editor) (characters : charset ≠ []) (clean : nul ∉ charset) :
    ∀ poll ∈ inputPolls charset maxlen proc editor scans, Good charset maxlen poll.1 := by
  induction scans generalizing proc editor with
  | nil =>
      intro poll member
      cases member
  | cons scan rest ih =>
      have shown_good : Good charset maxlen (clamp charset maxlen editor) := by
        rw [clamp_good good]
        exact good
      intro polled member
      rw [inputPolls] at member
      by_cases leaves : proc.leaves = true
      · rw [if_pos leaves] at member
        cases member
      · rw [if_neg leaves] at member
        generalize poll proc scan = scanned at member
        obtain ⟨btns, after⟩ := scanned
        simp only at member
        by_cases ends : (btns .a || btns .b) = true
        · rw [if_pos ends] at member
          rw [List.mem_singleton.mp member]
          exact shown_good
        · rw [if_neg ends] at member
          rcases List.mem_cons.mp member with rfl | later
          · exact shown_good
          · exact @ih after _ (press_good btns shown_good characters clean) polled later

/-- A confirmed text is the one of the last poll. -/
theorem inputLoop_written {out : Nat → Char} {proc : ProcState} {editor : Editor}
    {scans : List Scan} (good : Good charset maxlen editor) (characters : charset ≠ [])
    (clean : nul ∉ charset) (room : maxlen < bufferSize) {result : Nat → Char}
    (returned : inputLoop charset maxlen out proc editor scans = some (some result)) :
    ∃ poll ∈ (inputPolls charset maxlen proc editor scans).getLast?,
      Written maxlen out result poll.1 := by
  induction scans generalizing proc editor with
  | nil =>
      rw [inputLoop] at returned
      split at returned
      · cases returned
      · cases returned
  | cons scan rest ih =>
      have shown_good : Good charset maxlen (clamp charset maxlen editor) := by
        rw [clamp_good good]
        exact good
      rw [inputLoop] at returned
      rw [inputPolls]
      by_cases leaves : proc.leaves = true
      · rw [if_pos leaves] at returned
        cases returned
      · rw [if_neg leaves] at returned ⊢
        generalize poll proc scan = scanned at returned ⊢
        obtain ⟨btns, after⟩ := scanned
        simp only at returned ⊢
        by_cases confirmed : btns .a = true
        · rw [if_pos confirmed] at returned
          rw [confirmed, Bool.true_or, if_pos rfl]
          cases Option.some.inj (Option.some.inj returned)
          exact ⟨_, rfl, finish_written out shown_good room⟩
        · rw [if_neg confirmed] at returned
          by_cases cancelled : btns .b = true
          · rw [if_pos cancelled] at returned
            cases Option.some.inj returned
          · have goes_on : ¬ (btns .a || btns .b) = true := by
              rw [Bool.or_eq_true, not_or]
              exact ⟨confirmed, cancelled⟩
            rw [if_neg cancelled] at returned
            rw [if_neg goes_on]
            obtain ⟨last, found, written⟩ :=
              @ih after _ (press_good btns shown_good characters clean) returned
            refine ⟨last, ?_, written⟩
            rw [List.getLast?_cons, Option.mem_def.mp found]
            rfl

/-- `menu_input_string` keeps its invariant over all polls, changes the text only as its
buttons say, and returns the text that it shows. -/
theorem menuInputString_run {initial : Option (List Char)} (out : Nat → Char) (proc : ProcState)
    (scans : List Scan) (characters : charset ≠ []) (clean : nul ∉ charset) (low : 1 ≤ maxlen)
    (high : maxlen ≤ 255) (allowed : ∀ text ∈ initial, ∀ char ∈ text, char ∈ charset) :
    (∀ poll ∈ inputPolls charset maxlen proc (start charset maxlen initial) scans,
      Good charset maxlen poll.1 ∧
        Edits charset poll.2 poll.1 (press charset maxlen poll.2 poll.1)) ∧
      ∀ result, menuInputString charset maxlen out initial proc scans = some (some result) →
        ∃ poll ∈ (inputPolls charset maxlen proc (start charset maxlen initial) scans).getLast?,
          Written maxlen out result poll.1 := by
  have room : maxlen < bufferSize := Nat.lt_succ_of_le high
  have good := start_good characters clean low room allowed
  constructor
  · intro poll member
    exact ⟨inputPolls_good good characters clean poll member, press_edits poll.2 poll.1⟩
  · intro result returned
    have accepted : ¬ (charset.length = 0 ∨ maxlen ≤ 0 ∨ bufferSize ≤ maxlen) := by
      have some_characters := List.length_pos_of_ne_nil characters
      omega
    rw [menuInputString, if_neg accepted] at returned
    exact inputLoop_written good characters clean room returned

end Run

/-- One press of Up on the first character of an address. -/
def upScan : Scan where
  microsNow := 0
  wiimote :=
    { errNone := true, dataPresent := true, held := fun _ => false,
      pressed := fun button => button == .up, nunchuk := none }

def addressPolls : List (Editor × (Button → Bool)) :=
  inputPolls "0123456789.".toList 15 ⟨true, false, false, ⟨0, false, false⟩⟩
    (start "0123456789.".toList 15 (some "10.0.0.1".toList)) [upScan]

theorem address_digit_changed :
    addressPolls.length = 1 ∧ ∀ poll ∈ addressPolls, Good "0123456789.".toList 15 poll.1 ∧
      Edits "0123456789.".toList poll.2 poll.1 (press "0123456789.".toList 15 poll.2 poll.1) := by
  have allowed : ∀ text ∈ some "10.0.0.1".toList, ∀ char ∈ text, char ∈ "0123456789.".toList := by
    intro text same char member
    rw [← Option.mem_some_iff.mp same] at member
    have all : ("10.0.0.1".toList.all fun char => "0123456789.".toList.contains char) = true := rfl
    exact List.contains_iff_mem.mp (List.all_eq_true.mp all char member)
  exact ⟨rfl, (menuInputString_run (fun _ => nul) _ _ (by decide) (by decide) (by decide)
    (by decide) allowed).1⟩

end MoonlightWii.Wii.InputString
