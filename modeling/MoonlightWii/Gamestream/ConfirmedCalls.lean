import MoonlightWii.Gamestream.FailedCalls

/-!
# What `gs_unpair` and `gs_quit_app` take for a confirmation

`gs_unpair` looks for one of the three results of `xml_status` only, and a search for
an element that is missing succeeds with an empty text.
-/

set_option autoImplicit false

namespace MoonlightWii.Gamestream.ConfirmedCalls

open Foundation.EarlyExit
open MoonlightWii.Gamestream.Errors
open MoonlightWii.Gamestream.FailedCalls
open MoonlightWii.Gamestream.QuitApp
open MoonlightWii.Gamestream.Request
open MoonlightWii.Gamestream.Xml

/-- The request of the call completes with this document. -/
structure Answered (world : World) (call : Call) (document : Document) : Prop where
  allocates : world.allocates call.allocations = true
  completed : world.answer call.sent.length = .completed document

theorem answered_unique {world : World} {call : Call} {first second : Document}
    (one : Answered world call first) (other : Answered world call second) : first = second :=
  Answer.completed.inj (one.completed.symm.trans other.completed)

/-- A well-formed document with the status code 200. -/
structure Accepted (document : Document) : Prop where
  parsed : document.error = none
  status : statusCode document = statusOk

theorem accepted_iff (document : Document) :
    Accepted document ↔ (xmlStatus document).result = gsOk := by
  rw [xmlStatus_ok_iff]
  exact ⟨fun accepted => ⟨accepted.parsed, accepted.status⟩, fun both => ⟨both.1, both.2⟩⟩

/-- The text inside the `cancel` elements. -/
def cancelText (document : Document) : CString :=
  (document.events.foldl (searchEvent "cancel".toList) ⟨some [], 0⟩).memory.getD []

/-- The document has a `cancel` element, with a text that is neither empty nor 0. -/
structure Cancels (document : Document) : Prop where
  element : ∃ atts, XmlEvent.startElement "cancel".toList atts ∈ document.events
  nonempty : cancelText document ≠ []
  nonzero : cancelText document ≠ "0".toList

/-! ## The search for the element -/

/-- A search that is not required finds a text in every document that parses. -/
theorem search_memory (node : CString) (events : List XmlEvent) (text : CString) (start : Int) :
    ∃ found, (events.foldl (searchEvent node) ⟨some text, start⟩).memory = some found := by
  induction events generalizing text start with
  | nil => exact ⟨text, rfl⟩
  | cons event events ih =>
      rw [List.foldl_cons]
      cases event with
      | startElement name atts =>
          simp only [searchEvent]
          split
          · exact ih text (start + 1)
          · exact ih text start
      | endElement name =>
          simp only [searchEvent]
          split
          · exact ih text (start - 1)
          · exact ih text start
      | characterData data =>
          simp only [searchEvent]
          split
          · exact ih text start
          · exact ih _ start

theorem xmlSearch_cancel {document : Document} (parsed : document.error = none) :
    (xmlSearch document "cancel".toList).result = .ok (cancelText document) := by
  obtain ⟨found, memory⟩ := search_memory "cancel".toList document.events [] 0
  have text : cancelText document = found := by rw [cancelText, memory, Option.getD_some]
  unfold xmlSearch xmlSearchEx
  simp only [parsed, Bool.false_eq_true, if_false, memory, text]

/-- Without a start of the element no text is collected. -/
theorem search_absent {node : CString} {events : List XmlEvent} {start : Int}
    (closed : start ≤ 0) (absent : ∀ atts, XmlEvent.startElement node atts ∉ events) :
    (events.foldl (searchEvent node) ⟨some [], start⟩).memory = some [] := by
  induction events generalizing start with
  | nil => rfl
  | cons event events ih =>
      have later : ∀ atts, XmlEvent.startElement node atts ∉ events :=
        fun atts member => absent atts (List.mem_cons_of_mem _ member)
      rw [List.foldl_cons]
      cases event with
      | startElement name atts =>
          have other : name ≠ node := by
            rintro rfl
            exact absent atts List.mem_cons_self
          simp only [searchEvent, if_neg other]
          exact ih closed later
      | endElement name =>
          simp only [searchEvent]
          split
          · exact ih (by omega) later
          · exact ih closed later
      | characterData data =>
          simp only [searchEvent, if_pos closed]
          exact ih closed later

/-- A text that is not empty comes from an element that is there. -/
theorem cancel_present {document : Document} (nonempty : cancelText document ≠ []) :
    ∃ atts, XmlEvent.startElement "cancel".toList atts ∈ document.events := by
  by_contra none
  have absent : ∀ atts, XmlEvent.startElement "cancel".toList atts ∉ document.events :=
    fun atts member => none ⟨atts, member⟩
  exact nonempty (by rw [cancelText, search_absent (Int.le_refl 0) absent, Option.getD_some])

/-! ## When the calls succeed -/

theorem gsUnpair_ok_iff (world : World) (client : Client) (call : Call) :
    (returned (gsUnpair world client call)).1 = gsOk ↔
      ∃ document, Answered world call document ∧ (xmlStatus document).result ≠ gsError := by
  have known : (returned (gsUnpair world client call)).1 = gsOk ↔ Unpairs world call := by
    have ensured := gsUnpair_exact world client call call ⟨rfl, rfl, rfl⟩
    cases ran : gsUnpair world client call with
    | ok ret after =>
        rw [ran] at ensured
        obtain ⟨unpairs, ok, -⟩ | ⟨refused, failed, -⟩ := ensured
        · exact iff_of_true ok unpairs
        · exact iff_of_false failed refused
    | error ret after =>
        rw [ran] at ensured
        exact ensured.elim
  rw [known]
  constructor
  · rintro ⟨allocates, document, completed, status⟩
    exact ⟨document, ⟨allocates, completed⟩, status⟩
  · rintro ⟨document, answered, status⟩
    exact ⟨answered.allocates, document, answered.completed, status⟩

/-- What `gs_quit_app` needs of the document. -/
def Quits (document : Document) : Prop :=
  Accepted document ∧ cancelText document ≠ "0".toList

theorem quitAppBody_exact (world : World) (client : Client) (call : Call) :
    Ensures (SameStart call) (quitAppBody world client)
      (fun _ _ => ∃ document, Answered world call document ∧ Quits document)
      (fun ret _ => ret ≠ gsOk ∧
        ∀ document, Answered world call document → ¬ Quits document) := by
  refine ensures_bind (fun allocated state =>
    allocated = world.allocates call.allocations ∧
      (state.server = call.server ∧ state.sent = call.sent)) ?_ fun allocated =>
        ensures_fact fun known => ?_
  · intro state same
    exact ⟨by rw [← same.2.2], same.1, same.2.1⟩
  refine ensures_ite (fun yes => ?_) fun no => ?_
  · refine ensures_bind (fun (_ : CString) (state : Call) =>
      state.server = call.server ∧ state.sent = call.sent) (fun _ same => same) fun url => ?_
    refine ensures_bind (fun document state =>
      Answered world call document ∧ state.server = call.server) ?_ fun document =>
        ensures_fact fun answered => ?_
    · refine ensures_bind (fun answer state =>
        answer = world.answer call.sent.length ∧ state.server = call.server) ?_ fun answer =>
          ensures_fact fun same => ?_
      · intro state same
        exact ⟨by rw [← same.2], same.1⟩
      cases answer with
      | failed =>
          refine ensures_throw _ fun _ _ => ⟨by decide, fun document answered => ?_⟩
          cases same.trans answered.completed
      | completed document =>
          exact ensures_pure _ fun _ kept => ⟨⟨known ▸ yes, same.symm⟩, kept⟩
    have only : ∀ other, Answered world call other → other = document :=
      fun other found => answered_unique found answered
    refine ensures_bind (fun _ state => Accepted document ∧ state.server = call.server) ?_
      fun _ => ensures_fact fun accepted => ?_
    · refine ensures_report_bind _ ?_
      refine ensures_ite (fun refused => ?_) fun fine => ?_
      · refine ensures_throw _ fun _ _ => ⟨by decide, fun other found quits => ?_⟩
        rw [only other found] at quits
        exact refused ((accepted_iff document).mp quits.1)
      · exact ensures_pure _ fun _ same =>
          ⟨(accepted_iff document).mpr (Classical.not_not.mp fine), same⟩
    refine ensures_bind (fun text state =>
      text = cancelText document ∧ state.server = call.server) ?_ fun text =>
        ensures_fact fun found => ?_
    · refine ensures_report_bind _ ?_
      rw [xmlSearch_cancel accepted.parsed]
      exact ensures_pure _ fun _ same => ⟨rfl, same⟩
    refine ensures_ite (fun zero => ?_) fun nonzero => ?_
    · refine fun _ _ => ⟨by decide, fun other answers quits => ?_⟩
      rw [only other answers] at quits
      exact quits.2 (found.symm.trans zero)
    · exact ensures_modify _ fun _ _ =>
        ⟨document, answered, accepted, fun zero => nonzero (found.trans zero)⟩
  · refine fun _ _ => ⟨by decide, fun document answered => ?_⟩
    exact absurd (known.trans answered.allocates) no

theorem gsQuitApp_ok_iff (world : World) (client : Client) (call : Call) :
    (gsQuitApp world client call).1 = gsOk ↔
      ∃ document, Answered world call document ∧ Quits document := by
  have ensured := quitAppBody_exact world client call call ⟨rfl, rfl, rfl⟩
  unfold gsQuitApp
  cases ran : quitAppBody world client call with
  | ok value after =>
      rw [ran] at ensured
      exact iff_of_true rfl ensured
  | error ret after =>
      rw [ran] at ensured
      refine iff_of_false ensured.1 ?_
      rintro ⟨document, answered, quits⟩
      exact ensured.2 document answered quits

/-! ## Confirmations -/

/-- The answer breaks off. -/
def brokenDocument : Document where
  events := [.startElement "root".toList [("status_code".toList, "200".toList)]]
  error := some ⟨3, "no element found".toList⟩

/-- `<root status_code="200"/>` -/
def emptyDocument : Document where
  events := [.startElement "root".toList [("status_code".toList, "200".toList)],
    .endElement "root".toList]
  error := none

end MoonlightWii.Gamestream.ConfirmedCalls
