import MoonlightWii.Gamestream.Numbers
import MoonlightWii.Gamestream.ReadResponse

/-!
# Well-formed responses (`read_response` in `http.c`)

A response with a status line, header fields and a body of the length that its
Content-Length field says, which arrives in any chunks before the connection is
closed.
-/

set_option autoImplicit false

namespace MoonlightWii.Gamestream.ResponseBody

open Foundation.FirstMatch
open Foundation.TextRun
open MoonlightWii.Gamestream.Errors
open MoonlightWii.Gamestream.Numbers
open MoonlightWii.Gamestream.ReadResponse

/-! ## Responses -/

/-- A visible byte, a blank or a tab. -/
def isTextByte (byte : UInt8) : Bool := byte == 9 || (32 ≤ byte && byte != 127)

/-- A letter, a digit or one of the marks that a field name may contain. -/
def isTokenByte (byte : UInt8) : Bool :=
  (65 ≤ byte && byte ≤ 90) || (97 ≤ byte && byte ≤ 122) || isDigit byte ||
    (ascii "!#$%&'*+-.^_|~").contains byte || byte == 96

structure Field where
  name : Bytes
  value : Bytes
  named : name ≠ []
  token : ∀ byte ∈ name, isTokenByte byte = true
  text : ∀ byte ∈ value, isTextByte byte = true

def Field.line (field : Field) : Bytes := field.name ++ 58 :: field.value

structure Response where
  statusLine : Bytes
  fields : List Field
  body : Bytes
  hasStatus : statusLine ≠ []
  statusText : ∀ byte ∈ statusLine, isTextByte byte = true
  distinct : (fields.map fun field => field.name.map lowerCase).Nodup
  contentLength : ∃ field ∈ fields,
    field.name.map lowerCase = contentLengthName ∧ IsDecimal field.value body.length

/-- Lines with their ends, and the empty line. -/
def block (lines : List Bytes) : Bytes := lines.flatMap (· ++ crLf) ++ crLf

def Response.lines (response : Response) : List Bytes :=
  response.statusLine :: response.fields.map Field.line

def Response.header (response : Response) : Bytes := block response.lines

def Response.bytes (response : Response) : Bytes := response.header ++ response.body

/-! ## The end of the header block -/

/-- A line that is not empty and has neither a line end nor a zero. -/
structure CleanLine (line : Bytes) : Prop where
  nonempty : line ≠ []
  noCr : (13 : UInt8) ∉ line
  noLf : (10 : UInt8) ∉ line
  noNul : (0 : UInt8) ∉ line

theorem isTextByte_of_range {low high byte : UInt8} (visible : 32 ≤ low) (plain : high < 127)
    (above : low ≤ byte) (below : byte ≤ high) : isTextByte byte = true := by
  have printable : 32 ≤ byte := UInt8.le_trans visible above
  have other : byte ≠ 127 := by
    rintro rfl
    exact UInt8.not_le.mpr plain below
  simp only [isTextByte, Bool.or_eq_true, Bool.and_eq_true, decide_eq_true_eq, bne_iff_ne]
  exact Or.inr ⟨printable, other⟩

theorem isTextByte_of_token (byte : UInt8) (token : isTokenByte byte = true) :
    isTextByte byte = true := by
  have marks : (ascii "!#$%&'*+-.^_|~").all isTextByte = true := by decide
  simp only [isTokenByte, isDigit, Bool.or_eq_true, Bool.and_eq_true, decide_eq_true_eq,
    beq_iff_eq] at token
  rcases token with (((⟨low, high⟩ | ⟨low, high⟩) | ⟨low, high⟩) | mark) | rfl
  · exact isTextByte_of_range (by decide) (by decide) low high
  · exact isTextByte_of_range (by decide) (by decide) low high
  · exact isTextByte_of_range (by decide) (by decide) low high
  · exact List.all_eq_true.mp marks byte (List.contains_iff_mem.mp mark)
  · rfl

theorem cleanLine_of_text {line : Bytes} (nonempty : line ≠ [])
    (text : ∀ byte ∈ line, isTextByte byte = true) : CleanLine line where
  nonempty := nonempty
  noCr := fun member => absurd (text _ member) (by decide)
  noLf := fun member => absurd (text _ member) (by decide)
  noNul := fun member => absurd (text _ member) (by decide)

theorem Response.lines_clean (response : Response) :
    ∀ line ∈ response.lines, CleanLine line := by
  intro line member
  rcases List.mem_cons.mp member with rfl | inFields
  · exact cleanLine_of_text response.hasStatus response.statusText
  · obtain ⟨field, _, rfl⟩ := List.mem_map.mp inFields
    refine cleanLine_of_text (by simp [Field.line]) fun byte inLine => ?_
    simp only [Field.line, List.mem_append, List.mem_cons] at inLine
    rcases inLine with inName | rfl | inValue
    · exact isTextByte_of_token byte (field.token byte inName)
    · decide
    · exact field.text byte inValue

theorem block_cons (line : Bytes) (lines : List Bytes) :
    block (line :: lines) = line ++ 13 :: 10 :: block lines := by
  simp [block, crLf]

/-- A block begins with its first line, or is the empty line. -/
theorem block_first {letter : UInt8} {lines : List Bytes} (clean : ∀ line ∈ lines, CleanLine line)
    (begins : [letter] <+: block lines) :
    (lines = [] ∧ letter = 13) ∨ ∃ line ∈ lines, letter ∈ line := by
  cases lines with
  | nil =>
      obtain ⟨rest, same⟩ := begins
      exact .inl ⟨rfl, (List.cons.inj same).1⟩
  | cons line lines =>
      obtain ⟨first, later, known⟩ :=
        List.exists_cons_of_ne_nil (clean line List.mem_cons_self).nonempty
      refine .inr ⟨line, List.mem_cons_self, ?_⟩
      rw [block_cons, known, List.cons_append] at begins
      have same : letter = first := (List.cons_prefix_cons.mp begins).1
      rw [known, same]
      exact List.mem_cons_self

theorem four_le_block (line : Bytes) (lines : List Bytes) :
    4 ≤ (block (line :: lines)).length := by
  simp only [block, crLf, List.flatMap_cons, List.length_append, List.length_cons, List.length_nil]
  omega

/-- The word does not start at the end of a line that has another line after it. -/
theorem locate_lineEnd {lines : List Bytes} (clean : ∀ line ∈ lines, CleanLine line)
    (more : lines ≠ []) :
    locate (crLf ++ crLf) (13 :: 10 :: block lines) =
      (locate (crLf ++ crLf) (block lines)).map (· + 2) := by
  have notHere : ¬ crLf ++ crLf <+: 13 :: 10 :: block lines := by
    intro begins
    have begins : [13, 10] <+: block lines := by
      simpa [crLf, List.cons_prefix_cons] using begins
    rcases block_first clean ((List.prefix_append [13] [10]).trans begins) with
      ⟨none_, _⟩ | ⟨other, member, inside⟩
    · exact more none_
    · exact (clean other member).noCr inside
  have skipped : locate (crLf ++ crLf) (10 :: block lines) =
      (locate (crLf ++ crLf) (block lines)).map (· + 1) :=
    locate_skip [10] (block lines) (by decide)
  have later : locate (crLf ++ crLf) (13 :: 10 :: block lines) =
      (locate (crLf ++ crLf) (10 :: block lines)).map (· + 1) := by
    rw [locate, firstAt_cons, decide_eq_false notHere]
    rfl
  rw [later, skipped, Option.map_map]
  rfl

theorem locate_block (line : Bytes) (lines : List Bytes)
    (clean : ∀ other ∈ line :: lines, CleanLine other) :
    locate (crLf ++ crLf) (block (line :: lines)) =
      some ((block (line :: lines)).length - 4) := by
  have here := clean line List.mem_cons_self
  rw [block_cons]
  refine (locate_skip line _ here.noCr).trans ?_
  induction lines generalizing line with
  | nil =>
      have found : locate (crLf ++ crLf) (13 :: 10 :: block []) = some 0 := by decide
      refine (congrArg _ found).trans ?_
      simp [block, crLf]
  | cons next lines ih =>
      have later : ∀ other ∈ next :: lines, CleanLine other :=
        fun other member => clean other (List.mem_cons_of_mem _ member)
      have rest : locate (crLf ++ crLf) (block (next :: lines)) =
          some ((block (next :: lines)).length - 4) := by
        rw [block_cons]
        refine (locate_skip next _ (later next List.mem_cons_self).noCr).trans ?_
        exact ih next later (later next List.mem_cons_self)
      have size := four_le_block next lines
      refine (congrArg _ (locate_lineEnd later (List.cons_ne_nil _ _))).trans ?_
      rw [rest]
      simp only [Option.map_some, List.length_append, List.length_cons, Option.some.injEq]
      omega

/-- Two line feeds never meet. -/
theorem locate_lf_block (lines : List Bytes) (clean : ∀ line ∈ lines, CleanLine line) :
    locate [10, 10] (block lines) = none := by
  induction lines with
  | nil => decide
  | cons line lines ih =>
      have here := clean line List.mem_cons_self
      have later : ∀ other ∈ lines, CleanLine other :=
        fun other member => clean other (List.mem_cons_of_mem _ member)
      have cut : block (line :: lines) = (line ++ [13]) ++ 10 :: block lines := by
        rw [block_cons]
        simp
      have notHere : ¬ [10, 10] <+: 10 :: block lines := by
        intro begins
        rcases block_first later (List.cons_prefix_cons.mp begins).2 with
          ⟨_, wrong⟩ | ⟨other, member, inside⟩
        · exact absurd wrong (by decide)
        · exact (later other member).noLf inside
      rw [cut, locate_skip (line ++ [13]) _ (by simp [here.noLf]), locate, firstAt_cons,
        decide_eq_false notHere]
      have rest := ih later
      rw [locate] at rest
      simp [rest]

theorem block_noNul (lines : List Bytes) (clean : ∀ line ∈ lines, CleanLine line) :
    ∀ byte ∈ block lines, byte ≠ 0 := by
  rintro byte member rfl
  simp only [block, List.mem_append, List.mem_flatMap] at member
  rcases member with ⟨line, inLines, inLine | inEnd⟩ | inEnd
  · exact (clean line inLines).noNul inLine
  · exact absurd inEnd (by decide)
  · exact absurd inEnd (by decide)

theorem cText_append {clean : Bytes} (noNul : ∀ byte ∈ clean, byte ≠ 0) (rest : Bytes) :
    cText (clean ++ rest) = clean ++ cText rest :=
  List.takeWhile_append_of_pos fun byte member => by simpa using noNul byte member

section HeaderBlock

variable (response : Response)

theorem headerEnd_full (rest : Bytes) :
    headerEnd (response.header ++ rest) = some response.header.length := by
  have clean := response.lines_clean
  have text : cText (response.header ++ rest) = response.header ++ cText rest :=
    cText_append (block_noNul response.lines clean) rest
  have found : locate (crLf ++ crLf) response.header = some (response.header.length - 4) :=
    locate_block response.statusLine (response.fields.map Field.line) clean
  have size := four_le_block response.statusLine (response.fields.map Field.line)
  have size : 4 ≤ response.header.length := size
  simp only [headerEnd, text, locate_append found]
  congr 1
  omega

/-- A part of the header block has no end. -/
theorem headerEnd_part {part : Bytes} (begins : part <+: response.header)
    (short : part.length < response.header.length) : headerEnd part = none := by
  have clean := response.lines_clean
  obtain ⟨rest, whole⟩ := begins
  have noNul (byte : UInt8) (member : byte ∈ part) : byte ≠ 0 := by
    refine block_noNul response.lines clean byte ?_
    change byte ∈ response.header
    rw [← whole]
    exact List.mem_append_left _ member
  have text : cText part = part := by
    simpa [cText] using cText_append noNul []
  have found : locate (crLf ++ crLf) response.header = some (response.header.length - 4) :=
    locate_block response.statusLine (response.fields.map Field.line) clean
  have noCrLf : locate (crLf ++ crLf) part = none := by
    cases early : locate (crLf ++ crLf) part with
    | none => rfl
    | some place =>
        have inside : place + 4 ≤ part.length := locate_end early
        have same := locate_append early rest
        rw [whole, found] at same
        have equal : response.header.length - 4 = place := Option.some.inj same
        omega
  have noLf : locate [10, 10] part = none := by
    refine locate_append_none rest ?_
    rw [whole]
    exact locate_lf_block response.lines clean
  simp only [headerEnd, text, noCrLf, noLf, Option.map_none]

/-- The number that `parse_content_length` finds is reached by the body bytes of a
part of the response. -/
def LengthReached (part : Bytes) : Prop :=
  0 ≤ parseContentLength part response.header.length ∧
    parseContentLength part response.header.length ≤
      (part.length - response.header.length : Nat)

theorem responseComplete_part {part : Bytes} (begins : part <+: response.bytes) :
    responseComplete (holding part) = true ↔
      response.header.length ≤ part.length ∧ LengthReached response part := by
  by_cases full : response.header.length ≤ part.length
  · have split : response.header <+: part :=
      List.prefix_of_prefix_length_le (List.prefix_append _ _) begins full
    obtain ⟨rest, whole⟩ := split
    have ended : headerEnd part = some response.header.length := by
      rw [← whole]
      exact headerEnd_full response rest
    have nonempty : part ≠ [] := by
      have size : 4 ≤ response.header.length :=
        four_le_block response.statusLine (response.fields.map Field.line)
      rintro rfl
      simp only [List.length_nil] at full
      omega
    simp only [responseComplete, holding, if_neg nonempty, ended, HttpData.size,
      Option.getD_some, LengthReached]
    by_cases negative : parseContentLength part response.header.length < 0
    · rw [if_pos negative]
      exact iff_of_false (by decide) fun reached => absurd reached.2.1 (by omega)
    · rw [if_neg negative, decide_eq_true_eq]
      exact ⟨fun fits => ⟨full, by omega, fits⟩, fun reached => reached.2.2⟩
  · have inHeader : part <+: response.header :=
      List.prefix_of_prefix_length_le begins (List.prefix_append _ _) (by omega)
    have ended := headerEnd_part response inHeader (by omega)
    refine iff_of_false ?_ fun reached => full reached.1
    unfold responseComplete holding
    by_cases nonempty : part = []
    · simp [nonempty]
    · simp [nonempty, ended]

theorem stripHeaders_full (rest : Bytes) :
    stripHeaders (holding (response.header ++ rest)) = ⟨some rest⟩ := by
  have nonempty : response.header ++ rest ≠ [] := by
    intro empty
    have size : 4 ≤ response.header.length :=
      four_le_block response.statusLine (response.fields.map Field.line)
    rw [(List.append_eq_nil_iff.mp empty).1] at size
    exact absurd size (by decide)
  simp only [stripHeaders, holding, if_neg nonempty, headerEnd_full, List.drop_left]

end HeaderBlock

/-! ## Chunks -/

def joined (chunks : List Chunk) : Bytes := chunks.flatMap Chunk.bytes

/-- The chunks without timeouts, then the close. -/
def delivery (chunks : List Chunk) : List Round :=
  chunks.map (fun chunk => .received chunk true) ++ [.ended]

theorem joined_append (before after : List Chunk) :
    joined (before ++ after) = joined before ++ joined after := List.flatMap_append

theorem joined_ne_nil {chunks : List Chunk} (nonempty : chunks ≠ []) : joined chunks ≠ [] := by
  cases chunks with
  | nil => exact absurd rfl nonempty
  | cons chunk chunks =>
      intro empty
      have first := chunk.size.1
      rw [(List.append_eq_nil_iff.mp empty).1] at first
      exact absurd first (by decide)

/-- The loop takes the chunks up to the first place where the response is complete,
or all of them. -/
theorem readLoop_delivery (seen : Bytes) (chunks : List Chunk) :
    ∃ before after, chunks = before ++ after ∧
      readLoop (holding seen) (delivery chunks) = some (holding (seen ++ joined before)) ∧
      (after ≠ [] → before ≠ [] ∧ responseComplete (holding (seen ++ joined before)) = true) ∧
      ∀ earlier rest, before = earlier ++ rest → earlier ≠ [] → rest ≠ [] →
        responseComplete (holding (seen ++ joined earlier)) ≠ true := by
  induction chunks generalizing seen with
  | nil =>
      refine ⟨[], [], rfl, by simp [delivery, readLoop, joined], fun more => absurd rfl more, ?_⟩
      intro earlier rest cut nonempty
      exact absurd (List.append_eq_nil_iff.mp cut.symm).1 nonempty
  | cons chunk chunks ih =>
      have appended := appendData_holding seen chunk
      have one : joined [chunk] = chunk.bytes := by simp [joined]
      by_cases complete : responseComplete (holding (seen ++ chunk.bytes)) = true
      · refine ⟨[chunk], chunks, rfl, ?_, fun _ => ⟨List.cons_ne_nil _ _, one ▸ complete⟩, ?_⟩
        · simp [delivery, readLoop, appended, complete, one]
        · intro earlier rest cut nonempty more
          exfalso
          cases earlier with
          | nil => exact nonempty rfl
          | cons first earlier =>
              have later := (List.cons.inj cut).2
              exact more (List.append_eq_nil_iff.mp later.symm).2
      · obtain ⟨before, after, cut, read, completes, first⟩ := ih (seen ++ chunk.bytes)
        have join (part : List Chunk) :
            seen ++ joined (chunk :: part) = seen ++ chunk.bytes ++ joined part := by
          simp [joined]
        refine ⟨chunk :: before, after, by rw [cut]; rfl, ?_, ?_, ?_⟩
        · rw [join, ← read]
          simp [delivery, readLoop, appended, complete]
        · intro more
          exact ⟨List.cons_ne_nil _ _, join before ▸ (completes more).2⟩
        · intro earlier rest cut' nonempty more
          cases earlier with
          | nil => exact absurd rfl nonempty
          | cons other earlier =>
              obtain ⟨same, tail⟩ := List.cons.inj cut'
              subst same
              rw [join]
              by_cases none_ : earlier = []
              · subst none_
                simpa [joined] using complete
              · exact first earlier rest tail none_ more

section Delivery

variable {response : Response} {chunks : List Chunk}

theorem part_of_response (exact : joined chunks = response.bytes) {before after : List Chunk}
    (cut : chunks = before ++ after) : joined before <+: response.bytes := by
  rw [← exact, cut, joined_append]
  exact List.prefix_append _ _

/-- Where the loop stops short, less than the body is delivered. -/
theorem short_of_body (exact : joined chunks = response.bytes) {before after : List Chunk}
    (cut : chunks = before ++ after) (more : after ≠ [])
    (full : response.header.length ≤ (joined before).length) :
    stripHeaders (holding (joined before)) ≠ ⟨some response.body⟩ := by
  have begins := part_of_response exact cut
  obtain ⟨rest, whole⟩ : response.header <+: joined before :=
    List.prefix_of_prefix_length_le (List.prefix_append _ _) begins full
  intro delivered
  rw [← whole, stripHeaders_full] at delivered
  have same : rest = response.body := by simpa using delivered
  have all : joined before ++ joined after = joined before := by
    rw [← joined_append, ← cut, exact, ← whole, same]
    rfl
  exact joined_ne_nil more (List.append_right_eq_self.mp all)

theorem delivers_of_unreached (nonempty : response.body ≠ [])
    (exact : joined chunks = response.bytes)
    (unreached : ∀ before after, chunks = before ++ after → after ≠ [] →
      response.header.length ≤ (joined before).length →
      ¬ LengthReached response (joined before)) :
    readResponse (delivery chunks) = some (0, ⟨some response.body⟩) := by
  obtain ⟨taken, left, cut, read, completes, _⟩ := readLoop_delivery [] chunks
  have start : holding [] = ⟨none⟩ := rfl
  simp only [List.nil_append, start] at read completes
  have takenPart := part_of_response exact cut
  have all : left = [] := by
    apply Classical.byContradiction
    intro stopped
    have here := (responseComplete_part response takenPart).mp (completes stopped).2
    exact unreached taken left cut stopped here.1 here.2
  have whole : joined taken = response.header ++ response.body := by
    rw [← List.append_nil taken, ← all, ← cut]
    exact exact
  have positive : 0 < response.body.length := List.length_pos_iff.mpr nonempty
  simp only [readResponse, read, whole, stripHeaders_full, Option.map_some, HttpData.size,
    Option.getD_some, if_pos positive]

theorem unreached_of_delivered (exact : joined chunks = response.bytes)
    (delivered : readResponse (delivery chunks) = some (0, ⟨some response.body⟩))
    (before after : List Chunk) (cut : chunks = before ++ after) (more : after ≠ [])
    (full : response.header.length ≤ (joined before).length) :
    ¬ LengthReached response (joined before) := by
  intro reached
  obtain ⟨taken, left, cut', read, completes, first⟩ := readLoop_delivery [] chunks
  have start : holding [] = ⟨none⟩ := rfl
  simp only [List.nil_append, start] at read completes first
  have takenPart := part_of_response exact cut'
  have body : stripHeaders (holding (joined taken)) = ⟨some response.body⟩ := by
    simp only [readResponse, read, Option.map_some, Option.some.injEq, Prod.mk.injEq] at delivered
    exact delivered.2
  have complete := (responseComplete_part response (part_of_response exact cut)).mpr
    ⟨full, reached⟩
  have begun : before ≠ [] := by
    rintro rfl
    exact absurd complete (by decide)
  -- The loop does not stop before the first complete part.
  by_cases stopped : left = []
  · subst stopped
    refine first before after ?_ begun more complete
    rw [← cut, cut', List.append_nil]
  · have here := (responseComplete_part response takenPart).mp (completes stopped).2
    exact short_of_body exact cut' stopped here.1 body

end Delivery

/-! ## The usual case -/

theorem digit_char (byte : UInt8) :
    (Char.ofNat byte.toNat).isDigit = isDigit byte ∧ (Char.ofNat byte.toNat).toNat = byte.toNat := by
  have every : ∀ value : Fin 256,
      (Char.ofNat (UInt8.toNat ⟨⟨value⟩⟩)).isDigit = isDigit ⟨⟨value⟩⟩ ∧
        (Char.ofNat (UInt8.toNat ⟨⟨value⟩⟩)).toNat = UInt8.toNat ⟨⟨value⟩⟩ := by
    decide +kernel
  exact every byte.toBitVec.toFin

theorem digitsValue_chars (digits : Bytes) :
    digitsValue (digits.map fun byte => Char.ofNat byte.toNat) = digitsOf digits := by
  have fold (start : Nat) :
      Nat.ofDigitChars 10 (digits.map fun byte => Char.ofNat byte.toNat) start =
        digits.foldl (fun value digit => value * 10 + (digit.toNat - 48)) start := by
    induction digits generalizing start with
    | nil => rfl
    | cons digit digits ih =>
        rw [List.map_cons, Nat.ofDigitChars_cons, ih, (digit_char digit).2, Nat.mul_comm]
        rfl
  rw [digitsValue_eq, fold]
  rfl

theorem strtol_digits {digits rest : Bytes} (nonempty : digits ≠ [])
    (all : ∀ byte ∈ digits, isDigit byte = true) (stops : Stops isDigit rest) :
    strtol (digits ++ rest) = clampLong (digitsOf digits) := by
  rw [strtol, List.map_append, ← digitsValue_chars]
  refine atoi_digits (by simpa using nonempty) ?_ ?_
  · intro char member
    obtain ⟨byte, inDigits, rfl⟩ := List.mem_map.mp member
    rw [(digit_char byte).1]
    exact all byte inDigits
  · intro char member
    rw [List.head?_map] at member
    obtain ⟨byte, first, rfl⟩ := Option.map_eq_some_iff.mp member
    rw [(digit_char byte).1]
    exact stops byte first

/-- The Content-Length field is the first place of the header block with its name. -/
structure NameFirst (response : Response) (earlier : List Field) (field : Field)
    (later : List Field) : Prop where
  fields : response.fields = earlier ++ field :: later
  name : field.name.map lowerCase = contentLengthName
  first : ∀ place < ((response.statusLine :: earlier.map Field.line).flatMap (· ++ crLf)).length,
    startsContentLength (response.header.drop place) = false

theorem header_split {response : Response} {earlier later : List Field} {field : Field}
    (fields : response.fields = earlier ++ field :: later) :
    response.header =
      (response.statusLine :: earlier.map Field.line).flatMap (· ++ crLf) ++
        (field.name ++ 58 :: (field.value ++ 13 :: 10 :: block (later.map Field.line))) := by
  simp [Response.header, Response.lines, block, fields, Field.line, crLf]

/-- A digit ends the blanks and the colon in front of a value. -/
theorem not_separator_of_digit {byte : UInt8} (digit : isDigit byte = true) :
    (byte == 32 || byte == 9 || byte == 58) = false := by
  simp only [isDigit, Bool.and_eq_true, decide_eq_true_eq] at digit
  simp only [Bool.or_eq_false_iff, beq_eq_false_iff_ne]
  obtain ⟨low, high⟩ := digit
  refine ⟨⟨?_, ?_⟩, ?_⟩
  · rintro rfl
    exact absurd low (by decide)
  · rintro rfl
    exact absurd low (by decide)
  · rintro rfl
    exact absurd high (by decide)

theorem separator_of_blank {byte : UInt8} (blank : byte = 32 ∨ byte = 9) :
    (byte == 32 || byte == 9 || byte == 58) = true := by
  rcases blank with rfl | rfl
  · rfl
  · rfl

/-- The digits of a value end at the blanks behind it, or at the end of the line. -/
theorem stops_behind_value {right : Bytes} (blanks : ∀ byte ∈ right, byte = 32 ∨ byte = 9)
    (rest : Bytes) : Stops isDigit (right ++ 13 :: rest) := by
  cases right with
  | nil => exact stops_cons (by decide) _
  | cons byte right =>
      apply stops_cons
      rcases blanks byte List.mem_cons_self with rfl | rfl
      · rfl
      · rfl

/-- The name of the field is the first place at which the search stops. -/
theorem firstAt_name {response : Response} {earlier later : List Field} {field : Field}
    (nameFirst : NameFirst response earlier field later) (long : field.name.length = 14) :
    firstAt startsContentLength response.header =
      some ((response.statusLine :: earlier.map Field.line).flatMap (· ++ crLf)).length := by
  have split := header_split nameFirst.fields
  refine (firstAt_some_iff _ _ _).mpr ⟨?_, ?_, ?_⟩
  · rw [split, List.length_append]
    omega
  · rw [split, List.drop_left, startsContentLength, List.take_left' long, nameFirst.name]
    exact beq_self_eq_true _
  · exact fun place inside => nameFirst.first place inside

theorem parseContentLength_first {response : Response} {earlier later : List Field}
    {field : Field} (nameFirst : NameFirst response earlier field later) (rest : Bytes) {n : Nat}
    (value : IsDecimal field.value n) :
    parseContentLength (response.header ++ rest) response.header.length = clampLong n := by
  have long : field.name.length = 14 := by
    have same := congrArg List.length nameFirst.name
    rwa [List.length_map] at same
  have found := firstAt_name nameFirst long
  have split := header_split nameFirst.fields
  generalize (response.statusLine :: earlier.map Field.line).flatMap (· ++ crLf) = before
    at split found
  obtain ⟨left, digits, right, known, blanks, nonempty, all, same⟩ := value
  have after : (response.header ++ rest).drop (before.length + 14) =
      (58 :: left) ++ (digits ++ (right ++ 13 :: 10 :: (block (later.map Field.line) ++ rest))) := by
    have shape : response.header ++ rest = (before ++ field.name) ++ ((58 :: left) ++
        (digits ++ (right ++ 13 :: 10 :: (block (later.map Field.line) ++ rest)))) := by
      rw [split, known]
      simp
    rw [shape]
    exact List.drop_left' (by rw [List.length_append, long])
  have skipped : ((response.header ++ rest).drop (before.length + 14)).dropWhile
      (fun byte => byte == 32 || byte == 9 || byte == 58) =
        digits ++ (right ++ 13 :: 10 :: (block (later.map Field.line) ++ rest)) := by
    rw [after]
    apply dropWhile_run
    · intro byte member
      rcases List.mem_cons.mp member with rfl | inLeft
      · rfl
      · exact separator_of_blank (blanks byte (List.mem_append_left _ inLeft))
    · obtain ⟨digit, more, shape⟩ := List.exists_cons_of_ne_nil nonempty
      rw [shape]
      apply stops_cons
      exact not_separator_of_digit (all digit (by rw [shape]; exact List.mem_cons_self))
  have stops := stops_behind_value (fun byte member => blanks byte (List.mem_append_right _ member))
    (10 :: (block (later.map Field.line) ++ rest))
  rw [parseContentLength, List.take_left, found]
  simp only [skipped]
  rw [strtol_digits nonempty all stops, same]

/-- A response whose Content-Length field comes first, of less than 2 GiB, is
delivered in any chunks. -/
theorem delivers_name_first {response : Response} {earlier later : List Field} {field : Field}
    (nameFirst : NameFirst response earlier field later) {chunks : List Chunk}
    (value : IsDecimal field.value response.body.length) (nonempty : response.body ≠ [])
    (small : response.body.length ≤ 2147483647) (exact : joined chunks = response.bytes) :
    readResponse (delivery chunks) = some (0, ⟨some response.body⟩) := by
  refine delivers_of_unreached nonempty exact ?_
  intro before after cut more full reached
  obtain ⟨rest, whole⟩ : response.header <+: joined before :=
    List.prefix_of_prefix_length_le (List.prefix_append _ _) (part_of_response exact cut) full
  have length := parseContentLength_first nameFirst rest value
  rw [clampLong_of_range (by omega) (by omega), whole] at length
  have bound := reached.2
  rw [length] at bound
  have sizes := congrArg List.length exact
  rw [cut, joined_append] at sizes
  simp only [Response.bytes, List.length_append] at sizes
  have left := List.length_pos_iff.mpr (joined_ne_nil more)
  omega

/-! ## Two responses -/

def validField (name value : Bytes) : Bool :=
  !name.isEmpty && name.all isTokenByte && value.all isTextByte

def textField (name value : String) (valid : validField (ascii name) (ascii value) = true) :
    Field where
  name := ascii name
  value := ascii value
  named := by
    rintro empty
    simp [validField, empty] at valid
  token := by
    simp only [validField, Bool.and_eq_true, List.all_eq_true] at valid
    exact valid.1.2
  text := by
    simp only [validField, Bool.and_eq_true, List.all_eq_true] at valid
    exact valid.2

def typeField : Field := textField "Content-Type" " text/xml" (by decide +kernel)

def exposeField : Field :=
  textField "Access-Control-Expose-Headers" " Content-Length" (by decide +kernel)

def lengthField : Field := textField "Content-Length" " 5" (by decide +kernel)

theorem lengthField_decimal : IsDecimal lengthField.value 5 :=
  ⟨[32], [53], [], rfl, by simp, List.cons_ne_nil _ _, by simp [isDigit], rfl⟩

theorem lengthField_name : lengthField.name.map lowerCase = contentLengthName := by
  decide

theorem statusOk_text : ∀ byte ∈ ascii "HTTP/1.1 200 OK", isTextByte byte = true :=
  List.all_eq_true.mp (by decide)

/-- `hello` with one field before its length. -/
def helloAfter (field : Field)
    (distinct : field.name.map lowerCase ≠ lengthField.name.map lowerCase) : Response where
  statusLine := ascii "HTTP/1.1 200 OK"
  fields := [field, lengthField]
  body := ascii "hello"
  hasStatus := List.cons_ne_nil _ _
  statusText := statusOk_text
  distinct := by simpa using distinct
  contentLength :=
    ⟨lengthField, List.mem_cons_of_mem _ List.mem_cons_self, lengthField_name,
      lengthField_decimal⟩

theorem typeField_distinct : typeField.name.map lowerCase ≠ lengthField.name.map lowerCase := by
  decide

theorem exposeField_distinct :
    exposeField.name.map lowerCase ≠ lengthField.name.map lowerCase := by
  decide

def plainHello : Response := helloAfter typeField typeField_distinct

def exposingHello : Response := helloAfter exposeField exposeField_distinct

/-- The response in two chunks: the header block, and the body. -/
def headerThenBody (response : Response) (header : response.header.length ≤ 4096)
    (body : 0 < response.body.length ∧ response.body.length ≤ 4096) : List Chunk :=
  [⟨response.header,
      Nat.lt_of_lt_of_le (by decide) (four_le_block response.statusLine _), header⟩,
    ⟨response.body, body⟩]

theorem joined_headerThenBody (response : Response) (header : response.header.length ≤ 4096)
    (body : 0 < response.body.length ∧ response.body.length ≤ 4096) :
    joined (headerThenBody response header body) = response.bytes := by
  simp [joined, headerThenBody, Response.bytes]

end MoonlightWii.Gamestream.ResponseBody
