import MoonlightWii.Foundation.ByteMemory

/-!
# Writing to the USB Gecko (`debug.c`)

`gecko_write` fills a buffer on its stack and hands it to `usb_sendbuffer_safe`, until the
string is used up.  A store behind the end of the buffer has no result.
-/

set_option autoImplicit false

namespace MoonlightWii.Wii.GeckoWrite

open Foundation.ByteMemory

/-- `sizeof(buf)` -/
def bufSize : Nat := 256

def carriageReturn : UInt8 := 13

def newline : UInt8 := 10

/-- `buf` and `pos`. -/
structure Filling where
  buf : Nat → UInt8
  pos : Nat

/-- `buf[pos++] = c` -/
def Filling.put (filling : Filling) (c : UInt8) : Option Filling :=
  if filling.pos < bufSize then
    some ⟨writeBytes filling.buf filling.pos [c], filling.pos + 1⟩
  else none

def Filling.emit (filling : Filling) (c : UInt8) : Option Filling :=
  if c = newline then (filling.put carriageReturn).bind fun returned => returned.put newline
  else filling.put c

/-- The inner loop, with the part of the string behind `off`. -/
def fillBuffer (filling : Filling) : List UInt8 → Option (Filling × List UInt8)
  | [] => some (filling, [])
  | c :: rest =>
      if filling.pos + 2 < bufSize then
        (filling.emit c).bind fun emitted => fillBuffer emitted rest
      else some (filling, c :: rest)

/-- The bytes in `buf` before `pos`. -/
def Filling.block (filling : Filling) : List UInt8 := readBytes filling.buf 0 filling.pos

/-! ## The inner loop -/

/-- What the host should get for a byte. -/
def expand (c : UInt8) : List UInt8 := if c = newline then [carriageReturn, newline] else [c]

theorem put_block (filling : Filling) (c : UInt8) (room : filling.pos < bufSize) :
    ∃ after, filling.put c = some after ∧ after.pos = filling.pos + 1 ∧
      after.block = filling.block ++ [c] := by
  refine ⟨_, if_pos room, rfl, ?_⟩
  have extended := readBytes_writeBytes_extend filling.buf 0 filling.pos [c]
  rw [Nat.zero_add] at extended
  exact extended

theorem emit_block (filling : Filling) (c : UInt8) (room : filling.pos + 2 < bufSize) :
    ∃ after, filling.emit c = some after ∧ filling.pos < after.pos ∧ after.pos < bufSize ∧
      after.block = filling.block ++ expand c := by
  unfold Filling.emit expand
  by_cases line : c = newline
  · obtain ⟨returned, first, position, block⟩ := put_block filling carriageReturn (by omega)
    obtain ⟨after, second, next, whole⟩ := put_block returned newline (by omega)
    rw [if_pos line, if_pos line, first]
    refine ⟨after, second, by omega, by omega, ?_⟩
    rw [whole, block, List.append_assoc]
    rfl
  · obtain ⟨after, only, position, block⟩ := put_block filling c (by omega)
    rw [if_neg line, if_neg line]
    exact ⟨after, only, by omega, by omega, block⟩

/-- The loop never leaves the buffer, and nothing is lost between what it has put there and
what is left of the string. -/
theorem fillBuffer_block (filling : Filling) (ptr : List UInt8) (inside : filling.pos < bufSize) :
    ∃ after left, fillBuffer filling ptr = some (after, left) ∧
      filling.pos ≤ after.pos ∧ after.pos < bufSize ∧
      after.block ++ left.flatMap expand = filling.block ++ ptr.flatMap expand := by
  induction ptr generalizing filling with
  | nil => exact ⟨filling, [], rfl, Nat.le_refl _, inside, rfl⟩
  | cons c rest ih =>
      unfold fillBuffer
      by_cases room : filling.pos + 2 < bufSize
      · obtain ⟨emitted, ran, further, within, block⟩ := emit_block filling c room
        obtain ⟨after, left, filled, later, bound, whole⟩ := ih emitted within
        rw [if_pos room, ran]
        refine ⟨after, left, filled, by omega, bound, ?_⟩
        rw [whole, block, List.append_assoc, List.flatMap_cons]
      · rw [if_neg room]
        exact ⟨filling, c :: rest, rfl, Nat.le_refl _, inside, rfl⟩

theorem fillBuffer_length {filling after : Filling} {ptr left : List UInt8}
    (filled : fillBuffer filling ptr = some (after, left)) : left.length ≤ ptr.length := by
  induction ptr generalizing filling with
  | nil =>
      cases filled
      exact Nat.le_refl _
  | cons c rest ih =>
      unfold fillBuffer at filled
      split at filled
      · obtain ⟨emitted, -, later⟩ := Option.bind_eq_some_iff.mp filled
        exact Nat.le_succ_of_le (ih later)
      · cases filled
        exact Nat.le_refl _

/-- An empty buffer takes the next byte. -/
theorem fillBuffer_shorter {buf : Nat → UInt8} {after : Filling} {c : UInt8}
    {rest left : List UInt8} (filled : fillBuffer ⟨buf, 0⟩ (c :: rest) = some (after, left)) :
    left.length < (c :: rest).length := by
  unfold fillBuffer at filled
  rw [if_pos (show 0 + 2 < bufSize by decide)] at filled
  obtain ⟨emitted, -, later⟩ := Option.bind_eq_some_iff.mp filled
  exact Nat.lt_succ_of_le (fillBuffer_length later)

/-! ## The outer loop -/

/-- The blocks that are sent.  `stack` is what `buf` holds when it comes into scope. -/
def sendBlocks (stack : Nat → Nat → UInt8) : List UInt8 → Option (List (List UInt8))
  | [] => some []
  | c :: rest =>
      match _filled : fillBuffer ⟨stack rest.length, 0⟩ (c :: rest) with
      | none => none
      | some (filling, left) =>
          (sendBlocks stack left).map fun later =>
            if filling.pos ≠ 0 then filling.block :: later else later
termination_by ptr => ptr.length
decreasing_by exact fillBuffer_shorter _filled

structure Written where
  returned : Int32
  /-- The calls of `usb_sendbuffer_safe`. -/
  sent : List (Int × List UInt8)
  deriving DecidableEq

def geckoWrite (geckoChn : Int) (stack : Nat → Nat → UInt8) (ptr : List UInt8) : Option Written :=
  if geckoChn < 0 then some ⟨Int32.ofNat ptr.length, []⟩
  else (sendBlocks stack ptr).map fun blocks =>
    ⟨Int32.ofNat ptr.length, blocks.map fun block => (geckoChn, block)⟩

/-- The host gets the text with its lines ended by a carriage return and a newline. -/
structure SendsText (ptr : List UInt8) (blocks : List (List UInt8)) : Prop where
  text : blocks.flatten = ptr.flatMap expand
  fits : ∀ block ∈ blocks, block.length ≤ bufSize

theorem sendBlocks_cons {stack : Nat → Nat → UInt8} {c : UInt8} {rest left : List UInt8}
    {filling : Filling} {later : List (List UInt8)}
    (filled : fillBuffer ⟨stack rest.length, 0⟩ (c :: rest) = some (filling, left))
    (sent : sendBlocks stack left = some later) :
    sendBlocks stack (c :: rest) =
      some (if filling.pos ≠ 0 then filling.block :: later else later) := by
  rw [sendBlocks]
  split
  · rename_i failed
    rw [filled] at failed
    cases failed
  · rename_i first
    rw [filled] at first
    cases first
    rw [sent]
    rfl

theorem sendBlocks_text (stack : Nat → Nat → UInt8) (ptr : List UInt8) :
    ∃ blocks, sendBlocks stack ptr = some blocks ∧ SendsText ptr blocks := by
  induction ptr using sendBlocks.induct stack with
  | case1 =>
      refine ⟨[], by rw [sendBlocks], rfl, ?_⟩
      intro block member
      cases member
  | case2 c rest failed =>
      obtain ⟨after, left, filled, -⟩ :=
        fillBuffer_block ⟨stack rest.length, 0⟩ (c :: rest) (show 0 < bufSize by decide)
      rw [filled] at failed
      cases failed
  | case3 c rest filling left filled ih =>
      obtain ⟨later, sent, text, fits⟩ := ih
      obtain ⟨after, remaining, again, -, bound, whole⟩ :=
        fillBuffer_block ⟨stack rest.length, 0⟩ (c :: rest) (show 0 < bufSize by decide)
      rw [filled] at again
      cases again
      have empty : (Filling.mk (stack rest.length) 0).block = [] := rfl
      rw [empty, List.nil_append, ← text] at whole
      refine ⟨_, sendBlocks_cons filled sent, ?_⟩
      by_cases some_bytes : filling.pos ≠ 0
      · rw [if_pos some_bytes]
        refine ⟨whole, ?_⟩
        intro block member
        rcases List.mem_cons.mp member with rfl | other
        · rw [Filling.block, readBytes_length]
          exact Nat.le_of_lt bound
        · exact fits block other
      · rw [if_neg some_bytes]
        have none : filling.block = [] := by
          rw [Filling.block, Classical.not_not.mp some_bytes]
          rfl
        rw [none, List.nil_append] at whole
        exact ⟨whole, fits⟩

/-- With a Gecko the whole text is sent, in blocks that fit the buffer. -/
theorem geckoWrite_sends (geckoChn : Int) (present : 0 ≤ geckoChn) (stack : Nat → Nat → UInt8)
    (ptr : List UInt8) :
    ∃ blocks, SendsText ptr blocks ∧
      geckoWrite geckoChn stack ptr =
        some ⟨Int32.ofNat ptr.length, blocks.map fun block => (geckoChn, block)⟩ := by
  obtain ⟨blocks, sent, sends⟩ := sendBlocks_text stack ptr
  refine ⟨blocks, sends, ?_⟩
  rw [geckoWrite, if_neg (Int.not_lt.mpr present), sent]
  rfl

/-- "Hi", a newline and "!" on slot B. -/
theorem geckoWrite_greeting :
    ∃ blocks, SendsText [72, 105, 10, 33] blocks ∧
      geckoWrite 1 (fun _ _ => 0) [72, 105, 10, 33] =
        some ⟨4, blocks.map fun block => (1, block)⟩ :=
  geckoWrite_sends 1 (by decide) (fun _ _ => 0) [72, 105, 10, 33]

end MoonlightWii.Wii.GeckoWrite
