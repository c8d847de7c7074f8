import MoonlightWii.Foundation.FirstMatch
import MoonlightWii.Gamestream.Errors

/-!
# Reading a plain HTTP response (`http.c`)

The memory of `HTTP_DATA` is the list of its bytes without the terminator that
`append_data` adds.  The results of `select` and `recv` are a list; the loop of
`read_response` consumes it up to the result that makes it leave.
-/

set_option autoImplicit false

namespace MoonlightWii.Gamestream.ReadResponse

open Foundation.FirstMatch
open MoonlightWii.Gamestream.Errors

abbrev Bytes := List UInt8

def crLf : Bytes := [13, 10]

/-- `size` is the number of the bytes. -/
structure HttpData where
  memory : Option Bytes
  deriving DecidableEq

def HttpData.size (data : HttpData) : Nat := (data.memory.getD []).length

/-- The memory as a C string, for `strstr`. -/
def cText (memory : Bytes) : Bytes := memory.takeWhile (· ≠ 0)

/-- The length of the header block with its empty line. -/
def headerEnd (memory : Bytes) : Option Nat :=
  match locate (crLf ++ crLf) (cText memory) with
  | some sep => some (sep + 4)
  | none => (locate [10, 10] (cText memory)).map (· + 2)

/-- `append_data`, where `realloc` succeeds. -/
def appendData (data : HttpData) (buf : Bytes) : HttpData := ⟨some (data.memory.getD [] ++ buf)⟩

def stripHeaders (data : HttpData) : HttpData :=
  match data.memory with
  | none => data
  | some mem =>
      match headerEnd mem with
      | none => data
      | some skip => ⟨some (mem.drop skip)⟩

/-! ## The content length -/

def lowerCase (byte : UInt8) : UInt8 := if 65 ≤ byte ∧ byte ≤ 90 then byte + 32 else byte

/-- `content-length` -/
def contentLengthName : Bytes :=
  [99, 111, 110, 116, 101, 110, 116, 45, 108, 101, 110, 103, 116, 104]

def startsContentLength (rest : Bytes) : Bool :=
  (rest.take 14).map lowerCase == contentLengthName

/-- `strtol` in base 10 on the bytes up to the terminator. -/
def strtol (text : Bytes) : Int := atoi (text.map fun byte => Char.ofNat byte.toNat)

/-- The first place is taken anywhere in the header block, and `strtol` may read
beyond it. -/
def parseContentLength (headers : Bytes) (len : Nat) : Int :=
  match firstAt startsContentLength (headers.take len) with
  | none => -1
  | some i =>
      strtol ((headers.drop (i + 14)).dropWhile fun byte => byte == 32 || byte == 9 || byte == 58)

def responseComplete (data : HttpData) : Bool :=
  match data.memory with
  | none => false
  | some mem =>
      match headerEnd mem with
      | none => false
      | some headerLen =>
          let cl := parseContentLength mem headerLen
          if cl < 0 then false else decide (cl ≤ (data.size - headerLen : Nat))

/-! ## The loop -/

/-- What one `recv` into `buf` delivers. -/
structure Chunk where
  bytes : Bytes
  size : 0 < bytes.length ∧ bytes.length ≤ 4096

/-- The results of `select` and `recv` in one round of the loop. -/
inductive Round where
  | selectInterrupted
  | selectFailed
  | timeout
  | received (chunk : Chunk) (reallocates : Bool)
  | recvInterrupted
  /-- The end of the stream or an error. -/
  | ended

/-- `none` where the results end before the loop does. -/
def readLoop : HttpData → List Round → Option HttpData
  | _, [] => none
  | data, .selectInterrupted :: later => readLoop data later
  | data, .selectFailed :: _ => some data
  | data, .timeout :: _ => some data
  | data, .received chunk reallocates :: later =>
      if reallocates then
        let appended := appendData data chunk.bytes
        if responseComplete appended then some appended else readLoop appended later
      else some data
  | data, .recvInterrupted :: later => readLoop data later
  | data, .ended :: _ => some data

def readResponse (rounds : List Round) : Option (Int × HttpData) :=
  (readLoop ⟨none⟩ rounds).map fun data =>
    let stripped := stripHeaders data
    (if 0 < stripped.size then 0 else -1, stripped)

/-! ## What has arrived -/

/-- The bytes that the rounds bring into memory. -/
def arrived : List Round → Bytes
  | [] => []
  | .received chunk true :: later => chunk.bytes ++ arrived later
  | _ :: later => arrived later

/-- The round makes the loop leave, after the earlier ones. -/
def Leaves (earlier : List Round) : Round → Prop
  | .selectInterrupted => False
  | .selectFailed => True
  | .timeout => True
  | .received chunk true => responseComplete ⟨some (arrived earlier ++ chunk.bytes)⟩ = true
  | .received _ false => True
  | .recvInterrupted => False
  | .ended => True

/-- The bytes that arrived up to the first round at which the loop leaves. -/
def ArrivedBy (rounds : List Round) (bytes : Bytes) : Prop :=
  ∃ earlier last later, rounds = earlier ++ last :: later ∧ Leaves earlier last ∧
    (∀ before round after, earlier = before ++ round :: after → ¬ Leaves before round) ∧
    bytes = arrived (earlier ++ [last])

/-- The memory after these bytes. -/
def holding (bytes : Bytes) : HttpData := ⟨if bytes = [] then none else some bytes⟩

theorem arrived_append (earlier later : List Round) :
    arrived (earlier ++ later) = arrived earlier ++ arrived later := by
  induction earlier with
  | nil => rfl
  | cons round earlier ih =>
      cases round with
      | received chunk reallocates =>
          cases reallocates with
          | true => simp only [List.cons_append, arrived, ih, List.append_assoc]
          | false => exact ih
      | selectInterrupted => exact ih
      | selectFailed => exact ih
      | timeout => exact ih
      | recvInterrupted => exact ih
      | ended => exact ih

theorem appendData_holding (bytes : Bytes) (chunk : Chunk) :
    appendData (holding bytes) chunk.bytes = holding (bytes ++ chunk.bytes) := by
  have nonempty : chunk.bytes ≠ [] := List.length_pos_iff.mp chunk.size.1
  by_cases empty : bytes = []
  · simp [appendData, holding, empty, nonempty]
  · simp [appendData, holding, empty]

theorem holding_chunk (bytes : Bytes) (chunk : Chunk) :
    holding (bytes ++ chunk.bytes) = ⟨some (bytes ++ chunk.bytes)⟩ := by
  have nonempty : chunk.bytes ≠ [] := List.length_pos_iff.mp chunk.size.1
  simp [holding, nonempty]

/-- One round: the loop leaves, or goes on with what has arrived. -/
theorem readLoop_round (seen : List Round) (round : Round) (later : List Round) :
    (Leaves seen round ∧
      readLoop (holding (arrived seen)) (round :: later) =
        some (holding (arrived (seen ++ [round])))) ∨
    (¬ Leaves seen round ∧
      readLoop (holding (arrived seen)) (round :: later) =
        readLoop (holding (arrived (seen ++ [round]))) later) := by
  rw [arrived_append]
  cases round with
  | received chunk reallocates =>
      cases reallocates with
      | false => exact .inl ⟨trivial, by simp [readLoop, arrived]⟩
      | true =>
          simp only [arrived, List.append_nil]
          have appended := appendData_holding (arrived seen) chunk
          by_cases complete : responseComplete ⟨some (arrived seen ++ chunk.bytes)⟩ = true
          · refine .inl ⟨complete, ?_⟩
            simp only [readLoop, appended, holding_chunk, complete, if_true]
          · refine .inr ⟨complete, ?_⟩
            simp only [readLoop, appended, holding_chunk, if_true, if_neg complete]
  | selectInterrupted => exact .inr ⟨not_false, by simp [readLoop, arrived]⟩
  | selectFailed => exact .inl ⟨trivial, by simp [readLoop, arrived]⟩
  | timeout => exact .inl ⟨trivial, by simp [readLoop, arrived]⟩
  | recvInterrupted => exact .inr ⟨not_false, by simp [readLoop, arrived]⟩
  | ended => exact .inl ⟨trivial, by simp [readLoop, arrived]⟩

/-- The rounds from `earlier` on bring the loop to its end at `last`. -/
structure EndsAt (seen earlier : List Round) (last : Round) : Prop where
  leaves : Leaves (seen ++ earlier) last
  goesOn : ∀ before round after, earlier = before ++ round :: after →
    ¬ Leaves (seen ++ before) round

theorem endsAt_cons {seen earlier : List Round} {round last : Round}
    (first : ¬ Leaves seen round) (rest : EndsAt (seen ++ [round]) earlier last) :
    EndsAt seen (round :: earlier) last := by
  refine ⟨by simpa using rest.leaves, ?_⟩
  intro before other after cut
  cases before with
  | nil =>
      cases cut
      simpa using first
  | cons _ before =>
      obtain ⟨same, tail⟩ := List.cons.inj cut
      subst same
      simpa using rest.goesOn before other after tail

theorem readLoop_ends (rounds seen : List Round) (data : HttpData)
    (read : readLoop (holding (arrived seen)) rounds = some data) :
    ∃ earlier last later, rounds = earlier ++ last :: later ∧ EndsAt seen earlier last ∧
      data = holding (arrived (seen ++ earlier ++ [last])) := by
  induction rounds generalizing seen with
  | nil => cases read
  | cons round rounds ih =>
      rcases readLoop_round seen round rounds with ⟨leaves, result⟩ | ⟨stays, result⟩
      · rw [result] at read
        refine ⟨[], round, rounds, rfl, ⟨by simpa using leaves, ?_⟩, ?_⟩
        · intro before other after cut
          cases before <;> cases cut
        · simpa using (Option.some.inj read).symm
      · rw [result] at read
        obtain ⟨earlier, last, later, cut, ends, exact⟩ := ih _ read
        refine ⟨round :: earlier, last, later, by rw [cut]; rfl, endsAt_cons stays ends, ?_⟩
        simpa using exact

theorem readLoop_of_ends (earlier seen : List Round) (last : Round) (later : List Round)
    (ends : EndsAt seen earlier last) :
    readLoop (holding (arrived seen)) (earlier ++ last :: later) =
      some (holding (arrived (seen ++ earlier ++ [last]))) := by
  induction earlier generalizing seen with
  | nil =>
      have leaves : Leaves seen last := by simpa using ends.leaves
      rcases readLoop_round seen last later with ⟨_, result⟩ | ⟨stays, _⟩
      · simpa using result
      · exact absurd leaves stays
  | cons round earlier ih =>
      have first : ¬ Leaves seen round := by simpa using ends.goesOn [] round earlier rfl
      rcases readLoop_round seen round (earlier ++ last :: later) with ⟨leaves, _⟩ | ⟨_, result⟩
      · exact absurd leaves first
      · have rest : EndsAt (seen ++ [round]) earlier last := by
          refine ⟨by simpa using ends.leaves, fun before other after cut => ?_⟩
          simpa using ends.goesOn (round :: before) other after (by rw [cut]; rfl)
        rw [List.cons_append, result, ih _ rest]
        simp

theorem readLoop_some_iff (rounds : List Round) (data : HttpData) :
    readLoop ⟨none⟩ rounds = some data ↔
      ∃ bytes, ArrivedBy rounds bytes ∧ data = holding bytes := by
  constructor
  · intro read
    obtain ⟨earlier, last, later, cut, ends, exact⟩ := readLoop_ends rounds [] data read
    exact ⟨_, ⟨earlier, last, later, cut, ends.leaves, ends.goesOn, rfl⟩, exact⟩
  · rintro ⟨bytes, ⟨earlier, last, later, cut, leaves, goesOn, exact⟩, held⟩
    rw [cut, held, exact]
    exact readLoop_of_ends earlier [] last later ⟨leaves, goesOn⟩

theorem arrivedBy_unique {rounds : List Round} {first second : Bytes}
    (arrives : ArrivedBy rounds first) (other : ArrivedBy rounds second) : first = second := by
  have read := (readLoop_some_iff rounds _).mpr ⟨first, arrives, rfl⟩
  rw [(readLoop_some_iff rounds _).mpr ⟨second, other, rfl⟩] at read
  have same : holding second = holding first := Option.some.inj read
  unfold holding at same
  by_cases one : first = [] <;> by_cases two : second = [] <;> simp_all

/-! ## Whole responses -/

def isDigit (byte : UInt8) : Bool := 48 ≤ byte && byte ≤ 57

def digitsOf (digits : Bytes) : Nat :=
  digits.foldl (fun value digit => value * 10 + (digit.toNat - 48)) 0

/-- The number `n` in decimal, with blanks around it. -/
def IsDecimal (value : Bytes) (n : Nat) : Prop :=
  ∃ left digits right, value = left ++ digits ++ right ∧
    (∀ byte ∈ left ++ right, byte = 32 ∨ byte = 9) ∧
    digits ≠ [] ∧ (∀ byte ∈ digits, isDigit byte = true) ∧ digitsOf digits = n

/-- The lines after the status line, without their ends. -/
def fieldLines (header : Bytes) : List Bytes :=
  ((header.splitOn 10).map fun line =>
    if line.getLast? = some 13 then line.dropLast else line).tail

/-- The header block has a Content-Length field of value `n`. -/
def ContentLengthField (header : Bytes) (n : Nat) : Prop :=
  ∃ line ∈ fieldLines header, ∃ name value, line = name ++ 58 :: value ∧
    name.map lowerCase = contentLengthName ∧ IsDecimal value n

/-- The header block has ended, and the body is as long as it says. -/
def WholeResponse (bytes : Bytes) : Prop :=
  ∃ headerLen, headerEnd bytes = some headerLen ∧
    ∀ n, ContentLengthField (bytes.take headerLen) n → headerLen + n ≤ bytes.length

/-- Something arrived, but not the whole header block, or some of the body, but
not all of it. -/
def CutOff (bytes : Bytes) : Prop :=
  bytes ≠ [] ∧
    (headerEnd bytes = none ∨
      ∃ headerLen, headerEnd bytes = some headerLen ∧ headerLen < bytes.length ∧
        ∃ n, ContentLengthField (bytes.take headerLen) n ∧ bytes.length < headerLen + n)

def ReturnsZero (rounds : List Round) : Prop := (readResponse rounds).map Prod.fst = some 0

theorem returnsZero_iff {rounds : List Round} {bytes : Bytes} (arrives : ArrivedBy rounds bytes) :
    ReturnsZero rounds ↔ 0 < (stripHeaders (holding bytes)).size := by
  have read := (readLoop_some_iff rounds _).mpr ⟨bytes, arrives, rfl⟩
  simp only [ReturnsZero, readResponse, read, Option.map_some, Option.some.injEq]
  by_cases positive : 0 < (stripHeaders (holding bytes)).size
  · simp [positive]
  · simp [positive]

theorem stripHeaders_size {bytes : Bytes} (nonempty : bytes ≠ []) :
    (stripHeaders (holding bytes)).size =
      match headerEnd bytes with
      | none => bytes.length
      | some headerLen => bytes.length - headerLen := by
  simp only [stripHeaders, holding, if_neg nonempty]
  cases headerEnd bytes with
  | none => rfl
  | some headerLen => simp [HttpData.size]

theorem success_iff {bytes : Bytes} :
    (0 < (stripHeaders (holding bytes)).size → WholeResponse bytes) ↔ ¬ CutOff bytes := by
  by_cases empty : bytes = []
  · subst empty
    exact iff_of_true (fun positive => absurd positive (by decide)) fun cut => cut.1 rfl
  rw [stripHeaders_size empty]
  cases ended : headerEnd bytes with
  | none =>
      refine iff_of_false (fun whole => ?_) fun uncut => uncut ⟨empty, .inl ended⟩
      obtain ⟨headerLen, found, _⟩ := whole (List.length_pos_iff.mpr empty)
      rw [ended] at found
      cases found
  | some headerLen =>
      simp only [Nat.sub_pos_iff_lt]
      constructor
      · rintro whole ⟨_, missing | ⟨len, found, begun, n, field, short⟩⟩
        · rw [ended] at missing
          cases missing
        · rw [ended] at found
          cases Option.some.inj found
          obtain ⟨len, found, all⟩ := whole begun
          rw [ended] at found
          cases Option.some.inj found
          exact absurd (all n field) (by omega)
      · intro uncut begun
        refine ⟨headerLen, ended, fun n field => ?_⟩
        apply Classical.byContradiction
        intro short
        exact uncut ⟨empty, .inr ⟨headerLen, ended, begun, n, field, by omega⟩⟩

/-- What made the loop leave does not count: `read_response` succeeds on what has
arrived, unless that is nothing or a header block alone. -/
theorem success_means_whole_response_iff (rounds : List Round) :
    (ReturnsZero rounds → ∃ bytes, ArrivedBy rounds bytes ∧ WholeResponse bytes) ↔
      ¬ ∃ bytes, ArrivedBy rounds bytes ∧ CutOff bytes := by
  constructor
  · rintro whole ⟨bytes, arrives, cut⟩
    refine success_iff.mp (fun positive => ?_) cut
    obtain ⟨other, same, response⟩ := whole ((returnsZero_iff arrives).mpr positive)
    rw [arrivedBy_unique arrives same]
    exact response
  · intro uncut success
    cases read : readLoop ⟨none⟩ rounds with
    | none => simp [ReturnsZero, readResponse, read] at success
    | some data =>
        obtain ⟨bytes, arrives, _⟩ := (readLoop_some_iff rounds data).mp read
        refine ⟨bytes, arrives, ?_⟩
        exact success_iff.mpr (fun cut => uncut ⟨bytes, arrives, cut⟩)
          ((returnsZero_iff arrives).mp success)

def ascii (text : String) : Bytes := text.toList.map fun char => UInt8.ofNat char.toNat

theorem partOfResponse_size :
    0 < (ascii "HTTP/1.1 200 OK\r\nContent-Length: 9\r\n\r\nabc").length ∧
      (ascii "HTTP/1.1 200 OK\r\nContent-Length: 9\r\n\r\nabc").length ≤ 4096 := by
  decide

/-- Three of nine body bytes. -/
def partOfResponse : Chunk :=
  ⟨ascii "HTTP/1.1 200 OK\r\nContent-Length: 9\r\n\r\nabc", partOfResponse_size⟩

theorem partOfResponse_field :
    ContentLengthField (partOfResponse.bytes.take 38) 9 := by
  have line : ascii "Content-Length: 9" ∈ fieldLines (partOfResponse.bytes.take 38) := by
    decide
  have name : (ascii "Content-Length").map lowerCase = contentLengthName := by decide
  refine ⟨ascii "Content-Length: 9", line, ascii "Content-Length", ascii " 9", rfl, name, ?_⟩
  exact ⟨[32], [57], [], rfl, by simp, List.cons_ne_nil _ _, by simp [isDigit], rfl⟩

theorem holding_some {bytes text : Bytes} (same : holding bytes = ⟨some text⟩) : bytes = text := by
  unfold holding at same
  by_cases empty : bytes = [] <;> simp_all

/-- A timeout in the body counts as success. -/
theorem timeout_in_body_succeeds :
    ¬ ∀ rounds : List Round, ReturnsZero rounds →
      ∃ bytes, ArrivedBy rounds bytes ∧ WholeResponse bytes := by
  intro always
  obtain ⟨bytes, arrives, headerLen, ended, all⟩ :=
    always [.received partOfResponse true, .timeout] (by unfold ReturnsZero; decide)
  have read := (readLoop_some_iff _ _).mpr ⟨bytes, arrives, rfl⟩
  have known : readLoop ⟨none⟩ [.received partOfResponse true, .timeout] =
      some ⟨some partOfResponse.bytes⟩ := by
    decide
  rw [known] at read
  have same := holding_some (Option.some.inj read).symm
  subst same
  have length : headerEnd partOfResponse.bytes = some 38 := by decide
  rw [length] at ended
  cases Option.some.inj ended
  have short := all 9 partOfResponse_field
  exact absurd short (by decide)

end MoonlightWii.Gamestream.ReadResponse
