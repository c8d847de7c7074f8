import MoonlightWii.Foundation.ByteMemory
import MoonlightWii.Foundation.GuardedRun
import MoonlightWii.Wii.Decoder

/-!
# Runs of decode units (`decode.c`)

The buffers of a unit are copied one behind the other into `decodebuffer`, and the
codec is given what lies there.  A unit that the codec does not get, or does not take,
is lost: every later picture refers to it, until the host is asked for an IDR frame.
Returning `DR_NEED_IDR` is how the decoder asks.
-/

set_option autoImplicit false

namespace MoonlightWii.Wii.DecodeRun

open Foundation.ByteMemory
open Foundation.GuardedRun
open MoonlightWii.Wii.Decoder

/-- A unit as the depacketizer chains it: `fullLength` is the length of the chain. -/
structure ChainedUnit extends DecodeUnit where
  wholeChain : fullLength = bufferList.flatten.length

/-- `while (entry != NULL)`: the buffer and the length it has been filled to. -/
def copyEntries (decodebuffer : Nat → UInt8) (length : Nat) :
    List (List UInt8) → (Nat → UInt8) × Nat
  | [] => (decodebuffer, length)
  | entry :: entries =>
      copyEntries (writeBytes decodebuffer length entry) (length + entry.length) entries

/-- `wii_decoder_submit_decode_unit` up to the copy of a picture, with what it leaves in
`decodebuffer`. -/
def submit (decodebuffer : Nat → UInt8) (avcodecDecodeVideo2 : List UInt8 → DecodeReply)
    (decodeUnit : DecodeUnit) : UnitOutcome × (Nat → UInt8) :=
  if decoderBufferSize < decodeUnit.fullLength then
    (⟨.ok, none, none⟩, decodebuffer)
  else
    let copied := copyEntries decodebuffer 0 decodeUnit.bufferList
    let pkt := readBytes copied.1 0 copied.2
    match avcodecDecodeVideo2 pkt with
    | .rejected => (⟨.needIdr, some pkt, none⟩, copied.1)
    | .noPicture => (⟨.ok, some pkt, none⟩, copied.1)
    | .picture frame => (⟨.ok, some pkt, some frame⟩, copied.1)

/-! ## The copy -/

theorem copyEntries_packet (entries : List (List UInt8)) (decodebuffer : Nat → UInt8)
    (length : Nat) :
    readBytes (copyEntries decodebuffer length entries).1 0
        (copyEntries decodebuffer length entries).2 =
      readBytes decodebuffer 0 length ++ entries.flatten := by
  induction entries generalizing decodebuffer length with
  | nil => simp [copyEntries]
  | cons entry entries inductionHypothesis =>
      have extended := readBytes_writeBytes_extend decodebuffer 0 length entry
      rw [Nat.zero_add] at extended
      rw [copyEntries, inductionHypothesis, extended, List.flatten_cons, List.append_assoc]

/-- Nothing is written behind the last byte of the chain. -/
theorem copyEntries_behind (entries : List (List UInt8)) (decodebuffer : Nat → UInt8)
    (length address : Nat) (behind : length + entries.flatten.length ≤ address) :
    (copyEntries decodebuffer length entries).1 address = decodebuffer address := by
  induction entries generalizing decodebuffer length with
  | nil => rfl
  | cons entry entries inductionHypothesis =>
      rw [List.flatten_cons, List.length_append] at behind
      rw [copyEntries, inductionHypothesis _ _ (by omega)]
      exact writeBytes_after decodebuffer length address entry (by omega)

/-- The unit as a whole, as `submitDecodeUnit` has it. -/
theorem submit_outcome (decodebuffer : Nat → UInt8)
    (avcodecDecodeVideo2 : List UInt8 → DecodeReply) (decodeUnit : DecodeUnit) :
    (submit decodebuffer avcodecDecodeVideo2 decodeUnit).1 =
      submitDecodeUnit avcodecDecodeVideo2 decodeUnit := by
  have packet := copyEntries_packet decodeUnit.bufferList decodebuffer 0
  rw [readBytes_zero, List.nil_append] at packet
  unfold submit submitDecodeUnit
  simp only [packet]
  split
  · rfl
  · cases avcodecDecodeVideo2 decodeUnit.bufferList.flatten with
    | rejected => rfl
    | noPicture => rfl
    | picture frame => rfl

/-- A chain never reaches the end of `decodebuffer`. -/
theorem submit_inside (decodebuffer : Nat → UInt8)
    (avcodecDecodeVideo2 : List UInt8 → DecodeReply) (decodeUnit : ChainedUnit) (address : Nat)
    (outside : decoderBufferSize ≤ address) :
    (submit decodebuffer avcodecDecodeVideo2 decodeUnit.toDecodeUnit).2 address =
      decodebuffer address := by
  unfold submit
  split
  · rfl
  · rename_i fits
    have whole := decodeUnit.wholeChain
    have kept := copyEntries_behind decodeUnit.bufferList decodebuffer 0 address (by omega)
    simp only
    split
    · exact kept
    · exact kept
    · exact kept

/-! ## Runs -/

/-- A unit, and what the codec makes of packets by then. -/
structure Submission where
  decodeUnit : ChainedUnit
  avcodecDecodeVideo2 : List UInt8 → DecodeReply

structure Report where
  submission : Submission
  outcome : UnitOutcome

/-- The codec did not get the unit, or did not take it. -/
def Report.lost (report : Report) : Bool :=
  match report.outcome.handed with
  | none => true
  | some pkt =>
      match report.submission.avcodecDecodeVideo2 pkt with
      | .rejected => true
      | _ => false

/-- `unrecovered` is set while a lost unit is behind which no IDR frame was requested. -/
structure State where
  decodebuffer : Nat → UInt8
  reports : List Report
  unrecovered : Bool

def start (decodebuffer : Nat → UInt8) : State := ⟨decodebuffer, [], false⟩

def performed (state : State) (submission : Submission) : Report :=
  ⟨submission,
    (submit state.decodebuffer submission.avcodecDecodeVideo2
      submission.decodeUnit.toDecodeUnit).1⟩

def step (state : State) (submission : Submission) : Option State :=
  let report := performed state submission
  some
    { decodebuffer := (submit state.decodebuffer submission.avcodecDecodeVideo2
        submission.decodeUnit.toDecodeUnit).2
      reports := state.reports ++ [report]
      unrecovered := (state.unrecovered || report.lost) && report.outcome.status != .needIdr }

/-- The status says what became of the unit. -/
structure Report.Truthful (report : Report) : Prop where
  handed : report.outcome.status = .ok →
    report.outcome.handed = some report.submission.decodeUnit.bufferList.flatten
  lost : report.lost = true → report.outcome.status = .needIdr

structure Recovering (state : State) : Prop where
  truthful : ∀ report ∈ state.reports, report.Truthful
  recovered : state.unrecovered = false

def Fits (_ : State) (submission : Submission) : Prop :=
  submission.decodeUnit.fullLength ≤ decoderBufferSize

theorem performed_outcome (state : State) (submission : Submission) :
    (performed state submission).outcome =
      submitDecodeUnit submission.avcodecDecodeVideo2 submission.decodeUnit.toDecodeUnit :=
  submit_outcome state.decodebuffer submission.avcodecDecodeVideo2
    submission.decodeUnit.toDecodeUnit

/-- A unit that fits is handed over whole, and its status is that of the codec. -/
theorem performed_fits (state : State) (submission : Submission) (fits : Fits state submission) :
    (performed state submission).Truthful := by
  have outcome := performed_outcome state submission
  unfold submitDecodeUnit at outcome
  rw [if_neg (Nat.not_lt.mpr fits)] at outcome
  cases reply : submission.avcodecDecodeVideo2 submission.decodeUnit.bufferList.flatten with
  | rejected =>
      simp only [reply] at outcome
      constructor
      · intro ok
        rw [outcome] at ok
        cases ok
      · intro _
        rw [outcome]
  | noPicture =>
      simp only [reply] at outcome
      have kept : (performed state submission).lost = false := by
        rw [Report.lost, outcome]
        simp only [performed, reply]
      exact ⟨fun _ => by rw [outcome]; rfl, fun lost => by rw [kept] at lost; cases lost⟩
  | picture frame =>
      simp only [reply] at outcome
      have kept : (performed state submission).lost = false := by
        rw [Report.lost, outcome]
        simp only [performed, reply]
      exact ⟨fun _ => by rw [outcome]; rfl, fun lost => by rw [kept] at lost; cases lost⟩

/-- A unit that does not fit is dropped with `DR_OK`. -/
theorem performed_oversized (state : State) (submission : Submission)
    (oversized : ¬ Fits state submission) : ¬ (performed state submission).Truthful := by
  intro truthful
  have outcome := performed_outcome state submission
  unfold submitDecodeUnit at outcome
  rw [if_pos (Nat.lt_of_not_le oversized)] at outcome
  have handed := truthful.handed (by rw [outcome])
  rw [outcome] at handed
  cases handed

theorem step_recovering (state : State) (submission : Submission) (next : State)
    (recovering : Recovering state) (fits : Fits state submission)
    (stepped : step state submission = some next) : Recovering next := by
  cases Option.some.inj stepped
  have truthful := performed_fits state submission fits
  constructor
  · intro report member
    rcases List.mem_append.mp member with earlier | latest
    · exact recovering.truthful report earlier
    · rw [List.mem_singleton] at latest
      rw [latest]
      exact truthful
  · have lostReported := truthful.lost
    simp only [recovering.recovered, Bool.false_or, Bool.and_eq_false_iff, bne_eq_false_iff_eq]
    cases lost : (performed state submission).lost with
    | false => exact .inl rfl
    | true => exact .inr (lostReported lost)

theorem step_oversized (state : State) (submission : Submission) (next : State)
    (oversized : ¬ Fits state submission) (stepped : step state submission = some next) :
    ¬ Recovering next := by
  cases Option.some.inj stepped
  intro recovering
  exact performed_oversized state submission oversized
    (recovering.truthful _ (List.mem_append_right _ (List.mem_singleton.mpr rfl)))

theorem start_recovering (decodebuffer : Nat → UInt8) : Recovering (start decodebuffer) :=
  ⟨fun _ member => absurd member List.not_mem_nil, rfl⟩

/-- Every list of submissions is a run. -/
theorem run_defined (submissions : List Submission) (state : State) :
    ∃ final, run step state submissions = some final := by
  induction submissions generalizing state with
  | nil => exact ⟨state, rfl⟩
  | cons submission rest inductionHypothesis => exact inductionHypothesis _

theorem along_fits_iff (submissions : List Submission) (state : State) :
    Along step Fits state submissions ↔
      ∀ submission ∈ submissions,
        submission.decodeUnit.fullLength ≤ decoderBufferSize := by
  constructor
  · intro along
    induction submissions generalizing state with
    | nil => exact fun _ member => absurd member List.not_mem_nil
    | cons submission rest inductionHypothesis =>
        intro other member
        rcases List.mem_cons.mp member with rfl | later
        · exact along.1
        · exact inductionHypothesis _ along.2 other later
  · intro fits
    exact along_of_forall state submissions fun submission member _ => fits submission member

/-- In every state of a run the statuses are truthful and no lost unit is left without
a request, exactly when every unit fits `decodebuffer`. -/
theorem losses_recovered_iff_units_fit (decodebuffer : Nat → UInt8)
    (submissions : List Submission) :
    Throughout step Recovering (start decodebuffer) submissions ↔
      ∀ submission ∈ submissions,
        submission.decodeUnit.fullLength ≤ decoderBufferSize := by
  obtain ⟨final, reached⟩ := run_defined submissions (start decodebuffer)
  rw [← along_fits_iff submissions (start decodebuffer)]
  exact throughout_iff_along Recovering (fun _ recovering => recovering) step_recovering
    (fun state submission next _ => step_oversized state submission next)
    (start_recovering decodebuffer) reached

/-- An IDR frame of one byte more than `decodebuffer` has. -/
def oversizedUnit : ChainedUnit where
  fullLength := decoderBufferSize + 1
  bufferList := [List.replicate (decoderBufferSize + 1) 0]
  wholeChain := by simp

theorem oversized_unit_unreported :
    ¬ ∀ (decodebuffer : Nat → UInt8) (submissions : List Submission),
      Throughout step Recovering (start decodebuffer) submissions := by
  intro always
  have all := always (fun _ => 0) [⟨oversizedUnit, fun _ => .noPicture⟩]
  have oversized : ¬ Fits (start fun _ => 0) ⟨oversizedUnit, fun _ => .noPicture⟩ :=
    Nat.not_le.mpr (Nat.lt_succ_self _)
  exact step_oversized _ _ _ oversized rfl (throughout_first all.2)

end MoonlightWii.Wii.DecodeRun
