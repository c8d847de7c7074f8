import MoonlightWii.Foundation.LastWrite
import MoonlightWii.Gamestream.XmlLists

/-!
# Display modes of well-formed documents (`xml_modelist` in `xml.c`)

A document is any content.  What `xml_modelist` takes from it are the starts of its
`DisplayMode` elements and the ends of the `Width`, `Height` and `RefreshRate` elements
without an element inside, wherever they stand behind the first start.
-/

set_option autoImplicit false

namespace MoonlightWii.Gamestream.ModelistDocument

open Foundation.LastWrite Foundation.NestedMarkup
open MoonlightWii.Gamestream.Errors
open MoonlightWii.Gamestream.Request
open MoonlightWii.Gamestream.Xml
open MoonlightWii.Gamestream.XmlLists

/-! ## Documents -/

inductive Field where
  | width
  | height
  | refresh
  deriving DecidableEq, Repr

def Field.word : Field → CString
  | .width => "Width".toList
  | .height => "Height".toList
  | .refresh => "RefreshRate".toList

theorem Field.forall_iff {holds : Field → Prop} :
    (∀ field, holds field) ↔ holds .width ∧ holds .height ∧ holds .refresh := by
  constructor
  · exact fun all => ⟨all .width, all .height, all .refresh⟩
  · rintro ⟨width, height, refresh⟩ field
    cases field with
    | width => exact width
    | height => exact height
    | refresh => exact refresh

instance (holds : Field → Prop) [DecidablePred holds] : Decidable (∀ field, holds field) :=
  decidable_of_iff' _ Field.forall_iff

def fieldOf (name : CString) : Option Field :=
  if name = Field.width.word then some .width
  else if name = Field.height.word then some .height
  else if name = Field.refresh.word then some .refresh
  else none

/-- The number that a field holds for a text. -/
def number (text : CString) : Int := toUnsigned (atoi text)

def modeWith (text : Field → CString) : DisplayMode where
  width := number (text .width)
  height := number (text .height)
  refresh := number (text .refresh)

/-- The contents of the `DisplayMode` elements, in document order. -/
def displayModes : XmlContent → List XmlContent
  | .nil => []
  | .text _ rest => displayModes rest
  | .element label inner rest =>
      (if label.1 = "DisplayMode".toList then [inner] else []) ++
        (displayModes inner ++ displayModes rest)

/-- The text of a mode's own child, and the empty text when there is none.  Of several
children with one name the last one counts. -/
def ownText (inner : XmlContent) (field : Field) : CString :=
  ((inner.children fun label => decide (label.1 = field.word)).map Content.letters).getLast?.getD []

/-- The list that the document describes. -/
def describedModes (content : XmlContent) : List DisplayMode :=
  ((displayModes content).map fun inner => modeWith (ownText inner)).reverse

/-! ## What the parser takes from a document -/

inductive Mark where
  | mode (inner : XmlContent)
  | field (field : Field) (text : CString)

def elementMarks (name : CString) (inner : XmlContent) : List Mark :=
  if name = "DisplayMode".toList then [.mode inner]
  else
    match fieldOf name, inner.textOnly with
    | some field, true => [.field field inner.letters]
    | _, _ => []

/-- The starts of modes and the fields without elements inside, in document order. -/
def marks : XmlContent → List Mark
  | .nil => []
  | .text _ rest => marks rest
  | .element label inner rest => elementMarks label.1 inner ++ (marks inner ++ marks rest)

/-- A field element: its name and its text. -/
structure Reading where
  field : Field
  text : CString

/-- A mode and the fields from its start to the start of the next one. -/
structure Stretch where
  inner : XmlContent
  readings : List Reading

/-- The fields before the next mode. -/
def leading : List Mark → List Reading
  | [] => []
  | .mode _ :: _ => []
  | .field field text :: rest => ⟨field, text⟩ :: leading rest

def stretches : List Mark → List Stretch
  | [] => []
  | .mode inner :: rest => ⟨inner, leading rest⟩ :: stretches rest
  | .field _ _ :: rest => stretches rest

def Reading.textFor (field : Field) (reading : Reading) : Option CString :=
  if reading.field = field then some reading.text else none

/-- The text of the last of these fields with a name. -/
def lastText (readings : List Reading) (field : Field) : CString :=
  (readings.filterMap (Reading.textFor field)).getLast?.getD []

/-- From the start of a mode to the start of the next, no field is empty, and the last one
of each name has the value of the mode's own. -/
structure Readable (content : XmlContent) : Prop where
  filled : ∀ stretch ∈ stretches (marks content), ∀ reading ∈ stretch.readings,
    reading.text ≠ []
  own : ∀ stretch ∈ stretches (marks content), ∀ field,
    number (lastText stretch.readings field) = number (ownText stretch.inner field)

instance (content : XmlContent) : Decidable (Readable content) :=
  decidable_of_iff
    ((∀ stretch ∈ stretches (marks content), ∀ reading ∈ stretch.readings, reading.text ≠ []) ∧
      ∀ stretch ∈ stretches (marks content), ∀ field,
        number (lastText stretch.readings field) = number (ownText stretch.inner field))
    ⟨fun both => ⟨both.1, both.2⟩, fun readable => ⟨readable.filled, readable.own⟩⟩

/-! ## The parser with what it reads -/

section Parser

variable (unwritten : Nat → CString)

def modeEvent : ListQuery DisplayMode → XmlEvent → ListQuery DisplayMode :=
  listEvent startModeElement (endModeElement unwritten)

/-- The text in the block of `memory`; there is none when nothing was written. -/
def cellText (query : ListQuery DisplayMode) : Option CString :=
  query.memory.bind fun block => query.blocks[block]?.bind Block.text

/-- The text that `strtol` reads at the end of an element. -/
def endReads (query : ListQuery DisplayMode) (name : CString) : List (Option CString) :=
  match query.start, query.items, fieldOf name with
  | true, _ :: _, some _ => [cellText query]
  | _, _, _ => []

def eventReads (query : ListQuery DisplayMode) : XmlEvent → List (Option CString)
  | .startElement _ _ => []
  | .endElement name => endReads query name
  | .characterData _ => []

structure Traced where
  query : ListQuery DisplayMode
  reads : List (Option CString)

def tracedEvent (traced : Traced) (event : XmlEvent) : Traced where
  query := modeEvent unwritten traced.query event
  reads := traced.reads ++ eventReads traced.query event

def trace (query : ListQuery DisplayMode) (events : List XmlEvent) : Traced :=
  events.foldl (tracedEvent unwritten) ⟨query, []⟩

/-- Everything that `strtol` reads, with `none` for memory that was never written. -/
def modelistReads (document : Document) : List (Option CString) :=
  (trace unwritten emptyQuery document.events).reads

/-! ## Traces -/

theorem trace_query (events : List XmlEvent) (traced : Traced) :
    (events.foldl (tracedEvent unwritten) traced).query =
      events.foldl (modeEvent unwritten) traced.query := by
  induction events generalizing traced with
  | nil => rfl
  | cons event events ih => exact ih (tracedEvent unwritten traced event)

theorem trace_frame (events : List XmlEvent) (query : ListQuery DisplayMode)
    (reads : List (Option CString)) :
    events.foldl (tracedEvent unwritten) ⟨query, reads⟩ =
      ⟨(trace unwritten query events).query, reads ++ (trace unwritten query events).reads⟩ := by
  induction events generalizing query reads with
  | nil => exact congrArg (Traced.mk query) (List.append_nil reads).symm
  | cons event events ih =>
      have later : trace unwritten query (event :: events) = _ :=
        ih (modeEvent unwritten query event) ([] ++ eventReads query event)
      rw [later, List.nil_append, ← List.append_assoc]
      exact ih (modeEvent unwritten query event) (reads ++ eventReads query event)

theorem trace_append (first later : List XmlEvent) (query : ListQuery DisplayMode) :
    trace unwritten query (first ++ later) =
      ⟨(trace unwritten (trace unwritten query first).query later).query,
        (trace unwritten query first).reads ++
          (trace unwritten (trace unwritten query first).query later).reads⟩ := by
  unfold trace
  rw [List.foldl_append]
  exact trace_frame unwritten later _ _

theorem writeCdata_merges (query : ListQuery DisplayMode) (first second : CString) :
    writeCdata (writeCdata query first) second = writeCdata query (first ++ second) := by
  obtain ⟨items, blocks, memory, start⟩ := query
  cases start with
  | false => rfl
  | true =>
      cases memory with
      | none => rfl
      | some block =>
          simp only [writeCdata, List.modify_modify_eq]
          congr 2
          funext cell
          simp only [Function.comp_apply, Option.getD_some, List.append_assoc]

theorem tracedEvent_merges : Merges xmlMarkup (tracedEvent unwritten) := by
  intro traced first second
  change Traced.mk (writeCdata (writeCdata traced.query first) second) (traced.reads ++ [] ++ []) =
    Traced.mk (writeCdata traced.query (first ++ second)) (traced.reads ++ [])
  rw [List.append_nil, List.append_nil, writeCdata_merges]

/-- Text on its own is collected in one piece, and nothing is read. -/
theorem trace_textOnly {content : XmlContent} (plain : content.textOnly = true)
    (query : ListQuery DisplayMode) :
    trace unwritten query (content.events xmlMarkup) =
      ⟨if content.letters = [] then query else writeCdata query content.letters, []⟩ := by
  unfold trace
  rw [foldl_textOnly (tracedEvent_merges unwritten) plain]
  cases content.letters with
  | nil => rfl
  | cons first rest => rfl

/-! ## One event -/

theorem fieldOf_eq_some {name : CString} {field : Field} (known : fieldOf name = some field) :
    name = field.word := by
  unfold fieldOf at known
  split at known
  · cases known; assumption
  · split at known
    · cases known; assumption
    · split at known
      · cases known; assumption
      · cases known

theorem fieldOf_eq_none {name : CString} (other : fieldOf name = none) (field : Field) :
    name ≠ field.word := by
  rintro rfl
  cases field with
  | width => cases other
  | height => cases other
  | refresh => cases other

theorem fieldOf_word (field : Field) : fieldOf field.word = some field := by
  cases field with
  | width => rfl
  | height => rfl
  | refresh => rfl

theorem startModeElement_other {name : CString} (other : fieldOf name = none)
    (notMode : name ≠ "DisplayMode".toList) (query : ListQuery DisplayMode) :
    startModeElement name query = query := by
  have noField : ¬ (query.items.isEmpty = false ∧ (name = "Height".toList ∨
      name = "Width".toList ∨ name = "RefreshRate".toList)) := by
    rintro ⟨-, same | same | same⟩
    · exact fieldOf_eq_none other .height same
    · exact fieldOf_eq_none other .width same
    · exact fieldOf_eq_none other .refresh same
  rw [startModeElement, if_neg notMode, if_neg noField]

theorem startModeElement_field (field : Field) (query : ListQuery DisplayMode) :
    startModeElement field.word query =
      if query.items.isEmpty = false then mallocBlock query else query := by
  have word : field.word = "Height".toList ∨ field.word = "Width".toList ∨
      field.word = "RefreshRate".toList := by
    cases field with
    | width => exact .inr (.inl rfl)
    | height => exact .inl rfl
    | refresh => exact .inr (.inr rfl)
  have notMode : field.word ≠ "DisplayMode".toList := by
    cases field with
    | width => decide
    | height => decide
    | refresh => decide
  rw [startModeElement, if_neg notMode]
  by_cases begun : query.items.isEmpty = false
  · rw [if_pos ⟨begun, word⟩, if_pos begun]
  · rw [if_neg begun, if_neg (fun both => begun both.1)]

def setField (field : Field) (value : Int) (mode : DisplayMode) : DisplayMode :=
  match field with
  | .width => { mode with width := value }
  | .height => { mode with height := value }
  | .refresh => { mode with refresh := value }

theorem setMode_word (field : Field) (value : Int) (mode : DisplayMode) :
    setMode field.word value mode = setField field value mode := by
  cases field with
  | width => rfl
  | height => rfl
  | refresh => rfl

theorem setMode_other {name : CString} (other : fieldOf name = none) (value : Int)
    (mode : DisplayMode) : setMode name value mode = mode :=
  (if_neg (fieldOf_eq_none other .width)).trans
    ((if_neg (fieldOf_eq_none other .height)).trans (if_neg (fieldOf_eq_none other .refresh)))

/-- An end has no effect while no text is collected, and before the first mode. -/
theorem end_idle {query : ListQuery DisplayMode} (idle : query.items ≠ [] → query.start = false)
    (name : CString) :
    endModeElement unwritten name query = query ∧ endReads query name = [] := by
  obtain ⟨items, blocks, memory, start⟩ := query
  cases items with
  | nil =>
      unfold endModeElement endReads
      cases start with
      | false => exact ⟨rfl, rfl⟩
      | true => exact ⟨rfl, rfl⟩
  | cons mode older =>
      have stopped : start = false := idle (List.cons_ne_nil _ _)
      rw [stopped]
      exact ⟨rfl, rfl⟩

/-- After an end no text is collected. -/
theorem end_settles (name : CString) (query : ListQuery DisplayMode)
    (begun : (endModeElement unwritten name query).items ≠ []) :
    (endModeElement unwritten name query).start = false := by
  obtain ⟨items, blocks, memory, start⟩ := query
  cases items with
  | nil =>
      cases start with
      | false => rfl
      | true => exact absurd rfl begun
  | cons mode older =>
      cases start with
      | false => rfl
      | true => rfl

/-- The end of another element changes no mode. -/
theorem end_other {name : CString} (other : fieldOf name = none) (query : ListQuery DisplayMode) :
    (endModeElement unwritten name query).items = query.items ∧ endReads query name = [] := by
  obtain ⟨items, blocks, memory, start⟩ := query
  constructor
  · cases items with
    | nil =>
        cases start with
        | false => rfl
        | true => rfl
    | cons mode older =>
        cases start with
        | false => rfl
        | true => exact congrArg (· :: older) (setMode_other other _ mode)
  · unfold endReads
    rw [other]
    split
    · rename_i known
      cases known
    · rfl

/-! ## What a run does to the list -/

def applyMark : List DisplayMode → Mark → List DisplayMode
  | modes, .mode _ => ⟨0, 0, 0⟩ :: modes
  | [], .field _ _ => []
  | mode :: older, .field field text => setField field (number text) mode :: older

def Mark.isMode : Mark → Bool
  | .mode _ => true
  | .field _ _ => false

/-- The fields behind the first mode; `begun` says that it is already there. -/
def readings : Bool → List Mark → List Reading
  | _, [] => []
  | _, .mode _ :: rest => readings true rest
  | begun, .field field text :: rest =>
      (if begun then [⟨field, text⟩] else []) ++ readings begun rest

/-- What `strtol` reads of a text. -/
def Reading.written (reading : Reading) : Option CString :=
  if reading.text = [] then none else some reading.text

theorem readings_append (begun : Bool) (first later : List Mark) :
    readings begun (first ++ later) =
      readings begun first ++ readings (begun || first.any Mark.isMode) later := by
  induction first generalizing begun with
  | nil => rw [List.any_nil, Bool.or_false]; rfl
  | cons mark first ih =>
      cases mark with
      | mode inner =>
          rw [List.cons_append, readings, ih, List.any_cons, readings]
          simp only [Mark.isMode, Bool.true_or, Bool.or_true]
      | field field text =>
          rw [List.cons_append, readings, ih, List.any_cons, readings]
          simp only [Mark.isMode, Bool.false_or, List.append_assoc]

/-- The events do to the list of modes what the marks say, as long as nothing unwritten is
read. -/
structure Ran (query : ListQuery DisplayMode) (after : Traced) (marks : List Mark) : Prop where
  reads : after.reads = (readings (!query.items.isEmpty) marks).map Reading.written
  begun : (!after.query.items.isEmpty) = (!query.items.isEmpty || marks.any Mark.isMode)
  items : none ∉ after.reads → after.query.items = marks.foldl applyMark query.items

theorem Ran.append {query : ListQuery DisplayMode} {mid later : Traced} {first second : List Mark}
    (ran : Ran query mid first) (ran_later : Ran mid.query later second) :
    Ran query ⟨later.query, mid.reads ++ later.reads⟩ (first ++ second) := by
  constructor
  · rw [readings_append, List.map_append, ← ran.begun, ← ran.reads, ← ran_later.reads]
  · rw [List.any_append, ← Bool.or_assoc, ← ran.begun]
    exact ran_later.begun
  · intro clean
    rw [List.mem_append, not_or] at clean
    rw [List.foldl_append, ← ran.items clean.1]
    exact ran_later.items clean.2

/-- Events without a meaning for the list. -/
theorem ran_silent {query after : ListQuery DisplayMode} (same : after.items = query.items) :
    Ran query ⟨after, []⟩ [] := by
  constructor
  · rfl
  · rw [List.any_nil, Bool.or_false, same]
  · exact fun _ => same

theorem ran_end {query : ListQuery DisplayMode} {label : CString × List (CString × CString)}
    (silent : (endModeElement unwritten label.1 query).items = query.items ∧
      endReads query label.1 = []) :
    Ran query (trace unwritten query [xmlMarkup.stop label]) [] := by
  have traced : trace unwritten query [xmlMarkup.stop label] =
      ⟨endModeElement unwritten label.1 query, []⟩ := congrArg (Traced.mk _) silent.2
  rw [traced]
  exact ran_silent silent.1

theorem ran_start_mode (query : ListQuery DisplayMode) {inner : XmlContent}
    {label : CString × List (CString × CString)} (mode : label.1 = "DisplayMode".toList) :
    Ran query (trace unwritten query [xmlMarkup.start label]) [.mode inner] := by
  have traced : trace unwritten query [xmlMarkup.start label] =
      ⟨{ query with items := ⟨0, 0, 0⟩ :: query.items }, []⟩ := by
    have started : startModeElement label.1 query = _ := if_pos mode
    exact congrArg (Traced.mk · []) started
  rw [traced]
  constructor
  · rfl
  · rw [List.any_cons, Mark.isMode, Bool.true_or, Bool.or_true]
    rfl
  · exact fun _ => rfl

/-- The start of another element does not change the list. -/
theorem ran_start_other (query : ListQuery DisplayMode)
    {label : CString × List (CString × CString)} (other : label.1 ≠ "DisplayMode".toList) :
    Ran query (trace unwritten query [xmlMarkup.start label]) [] := by
  apply ran_silent
  change (startModeElement label.1 query).items = query.items
  cases known : fieldOf label.1 with
  | none => rw [startModeElement_other known other]
  | some field =>
      rw [fieldOf_eq_some known, startModeElement_field]
      split
      · rfl
      · rfl

theorem trace_end (query : ListQuery DisplayMode) (label : CString × List (CString × CString)) :
    trace unwritten query [xmlMarkup.stop label] =
      ⟨endModeElement unwritten label.1 query, endReads query label.1⟩ := rfl

theorem trace_element (query : ListQuery DisplayMode)
    (label : CString × List (CString × CString)) (inner : List XmlEvent) :
    trace unwritten query (xmlMarkup.start label :: (inner ++ [xmlMarkup.stop label])) =
      let opened := (trace unwritten query [xmlMarkup.start label]).query
      let filled := trace unwritten opened inner
      ⟨endModeElement unwritten label.1 filled.query,
        filled.reads ++ endReads filled.query label.1⟩ := by
  have split : xmlMarkup.start label :: (inner ++ [xmlMarkup.stop label]) =
      [xmlMarkup.start label] ++ (inner ++ [xmlMarkup.stop label]) := rfl
  rw [split, trace_append, trace_append, trace_end]
  rfl

/-- What the end of a field leaves behind. -/
theorem end_field (field : Field) (mode : DisplayMode) (older : List DisplayMode)
    (blocks : List Block) (text : Option CString) :
    endReads ⟨mode :: older, blocks ++ [⟨text, false⟩], some blocks.length, true⟩ field.word =
        [text] ∧
      (endModeElement unwritten field.word
        ⟨mode :: older, blocks ++ [⟨text, false⟩], some blocks.length, true⟩).items =
        setField field (toUnsigned (atoi (text.getD (unwritten blocks.length)))) mode :: older := by
  constructor
  · have newest : (blocks ++ [Block.mk text false])[blocks.length]? = some ⟨text, false⟩ := by
      rw [List.getElem?_append_right (Nat.le_refl _), Nat.sub_self]
      rfl
    simp only [endReads, fieldOf_word, cellText, Option.bind_some, newest]
  · simp only [endModeElement, memoryText_newest, setMode_word]

/-- A field with text only, behind the start of a mode. -/
theorem trace_field {label : CString × List (CString × CString)} {field : Field}
    (word : label.1 = field.word) {inner : XmlContent} (plain : inner.textOnly = true)
    (mode : DisplayMode) (older : List DisplayMode) (blocks : List Block) (memory : Option Nat)
    (start : Bool) :
    ∃ after, trace unwritten ⟨mode :: older, blocks, memory, start⟩
        (xmlMarkup.start label :: (inner.events xmlMarkup ++ [xmlMarkup.stop label])) =
      ⟨after, [(Reading.mk field inner.letters).written]⟩ ∧
        after.items = setField field
          (toUnsigned (atoi ((Reading.mk field inner.letters).written.getD
            (unwritten blocks.length)))) mode :: older := by
  have begun : (ListQuery.mk (mode :: older) blocks memory start).items.isEmpty = false := rfl
  have opened : (trace unwritten ⟨mode :: older, blocks, memory, start⟩
      [xmlMarkup.start label]).query =
        ⟨mode :: older, blocks ++ [⟨none, false⟩], some blocks.length, true⟩ := by
    have started := startModeElement_field field ⟨mode :: older, blocks, memory, start⟩
    rw [if_pos begun, ← word] at started
    exact started
  have filled : trace unwritten
      ⟨mode :: older, blocks ++ [⟨none, false⟩], some blocks.length, true⟩
      (inner.events xmlMarkup) =
      ⟨⟨mode :: older, blocks ++ [⟨(Reading.mk field inner.letters).written, false⟩],
        some blocks.length, true⟩, []⟩ := by
    rw [trace_textOnly unwritten plain, writeCdata_newest]
    unfold Reading.written
    by_cases empty : inner.letters = []
    · simp only [if_pos empty]
    · simp only [if_neg empty, Option.getD_none, List.nil_append]
  obtain ⟨reads, items⟩ := end_field unwritten field mode older blocks
    (Reading.mk field inner.letters).written
  refine ⟨_, ?_, items⟩
  rw [trace_element, opened]
  simp only [filled, word, reads, List.nil_append]

/-- A field with text only. -/
theorem ran_field (query : ListQuery DisplayMode) {label : CString × List (CString × CString)}
    {field : Field} (word : label.1 = field.word) {inner : XmlContent}
    (plain : inner.textOnly = true) :
    Ran query (trace unwritten query
      (xmlMarkup.start label :: (inner.events xmlMarkup ++ [xmlMarkup.stop label])))
      [.field field inner.letters] := by
  obtain ⟨items, blocks, memory, start⟩ := query
  cases items with
  | nil =>
      have opened : (trace unwritten ⟨[], blocks, memory, start⟩ [xmlMarkup.start label]).query =
          ⟨[], blocks, memory, start⟩ := by
        have started := startModeElement_field field ⟨[], blocks, memory, start⟩
        rw [if_neg (by simp), ← word] at started
        exact started
      have filled := trace_textOnly unwritten plain ⟨[], blocks, memory, start⟩
      have no_items : (trace unwritten ⟨[], blocks, memory, start⟩
          (inner.events xmlMarkup)).query.items = [] := by
        rw [filled]
        split
        · rfl
        · exact writeCdata_items _ _
      obtain ⟨same, silent⟩ := end_idle unwritten (fun begun => absurd no_items begun) label.1
      rw [trace_element, opened]
      simp only [same, silent, List.append_nil]
      constructor
      · rw [filled]
        rfl
      · rw [no_items]
        rfl
      · exact fun _ => no_items
  | cons mode older =>
      obtain ⟨after, traced, items⟩ :=
        trace_field unwritten word plain mode older blocks memory start
      rw [traced]
      constructor
      · rfl
      · rw [items]
        rfl
      · intro clean
        rw [items]
        by_cases empty : inner.letters = []
        · exact absurd (List.mem_singleton.mpr (if_pos empty).symm) clean
        · rw [Reading.written, if_neg empty]
          rfl

theorem marks_textOnly {content : XmlContent} (plain : content.textOnly = true) :
    marks content = [] := by
  induction content with
  | nil => rfl
  | text letters rest ih => exact ih plain
  | element label inner rest _ _ => cases plain

/-- No text is collected, once there is a mode. -/
def Settled (query : ListQuery DisplayMode) : Prop := query.items ≠ [] → query.start = false

theorem Settled.text {query : ListQuery DisplayMode} (settled : Settled query) (text : CString) :
    Settled (if text = [] then query else writeCdata query text) := by
  have same_start : (writeCdata query text).start = query.start := by
    unfold writeCdata
    split
    · rfl
    · rfl
  split
  · exact settled
  · unfold Settled
    rw [writeCdata_items, same_start]
    exact settled

/-- An element whose end has no effect. -/
theorem ran_around {query : ListQuery DisplayMode} {label : CString × List (CString × CString)}
    {inner : List XmlEvent} {first within : List Mark}
    (started : Ran query (trace unwritten query [xmlMarkup.start label]) first)
    (filled : Ran (trace unwritten query [xmlMarkup.start label]).query
      (trace unwritten (trace unwritten query [xmlMarkup.start label]).query inner) within)
    (silent : ∀ after,
      after = (trace unwritten (trace unwritten query [xmlMarkup.start label]).query inner).query →
        (endModeElement unwritten label.1 after).items = after.items ∧
          endReads after label.1 = []) :
    Ran query (trace unwritten query (xmlMarkup.start label :: (inner ++ [xmlMarkup.stop label])))
      (first ++ within) := by
  have whole := (started.append filled).append (ran_end unwritten (silent _ rfl))
  rw [List.append_nil (first ++ within)] at whole
  rw [trace_element]
  exact whole

theorem ran_element (query : ListQuery DisplayMode) (label : CString × List (CString × CString))
    (inner : XmlContent)
    (ran_inner : ∀ query,
      Ran query (trace unwritten query (inner.events xmlMarkup)) (marks inner) ∧
        (inner.textOnly = false →
          Settled (trace unwritten query (inner.events xmlMarkup)).query)) :
    Ran query (trace unwritten query
      (xmlMarkup.start label :: (inner.events xmlMarkup ++ [xmlMarkup.stop label])))
      (elementMarks label.1 inner ++ marks inner) := by
  unfold elementMarks
  by_cases mode : label.1 = "DisplayMode".toList
  · have other : fieldOf label.1 = none := by
      rw [mode]
      rfl
    rw [if_pos mode]
    exact ran_around unwritten (ran_start_mode unwritten query mode) (ran_inner _).1
      (fun after _ => end_other unwritten other after)
  · rw [if_neg mode]
    have started := ran_start_other unwritten query mode
    cases known : fieldOf label.1 with
    | none =>
        exact ran_around unwritten started (ran_inner _).1
          (fun after _ => end_other unwritten known after)
    | some field =>
        cases plain : inner.textOnly with
        | true =>
            rw [marks_textOnly plain]
            exact ran_field unwritten query (fieldOf_eq_some known) plain
        | false =>
            apply ran_around unwritten started (ran_inner _).1
            rintro after rfl
            obtain ⟨same, silent⟩ := end_idle unwritten ((ran_inner _).2 plain) label.1
            exact ⟨congrArg ListQuery.items same, silent⟩

/-- The content of a document does to the list what its marks say. -/
theorem ran_content (content : XmlContent) (query : ListQuery DisplayMode) :
    Ran query (trace unwritten query (content.events xmlMarkup)) (marks content) ∧
      (content.textOnly = false →
        Settled (trace unwritten query (content.events xmlMarkup)).query) := by
  induction content generalizing query with
  | nil => exact ⟨ran_silent rfl, fun element => by cases element⟩
  | text letters rest ih =>
      have written : Ran query (trace unwritten query (dataEvents xmlMarkup letters)) [] := by
        cases letters with
        | nil => exact ran_silent rfl
        | cons first later => exact ran_silent (writeCdata_items query (first :: later))
      obtain ⟨ran, settled⟩ := ih (trace unwritten query (dataEvents xmlMarkup letters)).query
      rw [Content.events, trace_append]
      exact ⟨written.append ran, settled⟩
  | element label inner rest ih_inner ih_rest =>
      have split : Content.events xmlMarkup (.element label inner rest) =
          (xmlMarkup.start label :: (inner.events xmlMarkup ++ [xmlMarkup.stop label])) ++
            rest.events xmlMarkup := by
        rw [Content.events, List.cons_append, List.append_assoc]
        rfl
      have ended := ran_element unwritten query label inner ih_inner
      obtain ⟨ran, settled⟩ := ih_rest (trace unwritten query
        (xmlMarkup.start label :: (inner.events xmlMarkup ++ [xmlMarkup.stop label]))).query
      rw [split, trace_append, marks, ← List.append_assoc]
      refine ⟨ended.append ran, ?_⟩
      intro _
      cases plain : rest.textOnly with
      | false => exact settled plain
      | true =>
          have at_end : Settled (trace unwritten query (xmlMarkup.start label ::
              (inner.events xmlMarkup ++ [xmlMarkup.stop label]))).query := by
            rw [trace_element]
            exact end_settles unwritten label.1 _
          rw [trace_textOnly unwritten plain]
          exact at_end.text rest.letters

end Parser

/-! ## The list in stretches -/

def setReading (mode : DisplayMode) (reading : Reading) : DisplayMode :=
  setField reading.field (number reading.text) mode

/-- The mode after the fields of a stretch. -/
def Stretch.mode (stretch : Stretch) : DisplayMode :=
  stretch.readings.foldl setReading ⟨0, 0, 0⟩

def Field.value (field : Field) (mode : DisplayMode) : Int :=
  match field with
  | .width => mode.width
  | .height => mode.height
  | .refresh => mode.refresh

theorem setReading_value (field : Field) (mode : DisplayMode) (reading : Reading) :
    field.value (setReading mode reading) =
      ((reading.textFor field).map number).getD (field.value mode) := by
  obtain ⟨set, text⟩ := reading
  cases set with
  | width =>
      cases field with
      | width => rfl
      | height => rfl
      | refresh => rfl
  | height =>
      cases field with
      | width => rfl
      | height => rfl
      | refresh => rfl
  | refresh =>
      cases field with
      | width => rfl
      | height => rfl
      | refresh => rfl

/-- A field of a mode has the value of the last element that was read for it. -/
theorem stretch_value (stretch : Stretch) (field : Field) :
    field.value stretch.mode = number (lastText stretch.readings field) := by
  have zero : field.value ⟨0, 0, 0⟩ = number [] := by
    cases field with
    | width => rfl
    | height => rfl
    | refresh => rfl
  have texts : stretch.readings.filterMap (fun reading => (reading.textFor field).map number) =
      (stretch.readings.filterMap (Reading.textFor field)).map number :=
    List.map_filterMap.symm
  unfold Stretch.mode lastText
  rw [foldl_field (setReading_value field), texts, List.getLast?_map, zero, Option.getD_map]

theorem mode_eq_modeWith_iff (stretch : Stretch) (text : Field → CString) :
    stretch.mode = modeWith text ↔
      ∀ field, number (lastText stretch.readings field) = number (text field) := by
  constructor
  · intro same field
    rw [← stretch_value, same]
    cases field with
    | width => rfl
    | height => rfl
    | refresh => rfl
  · intro same
    have width := (stretch_value stretch .width).trans (same .width)
    have height := (stretch_value stretch .height).trans (same .height)
    have refresh := (stretch_value stretch .refresh).trans (same .refresh)
    exact congr (congr (congrArg DisplayMode.mk width) height) refresh

theorem foldl_marks_begun (marks : List Mark) (mode : DisplayMode) (older : List DisplayMode) :
    marks.foldl applyMark (mode :: older) =
      ((stretches marks).map Stretch.mode).reverse ++
        (leading marks).foldl setReading mode :: older := by
  induction marks generalizing mode older with
  | nil => rfl
  | cons mark marks ih =>
      cases mark with
      | mode inner =>
          rw [List.foldl_cons, applyMark, ih, stretches, List.map_cons, List.reverse_cons,
            List.append_assoc]
          rfl
      | field field text => exact ih (setField field (number text) mode) older

theorem foldl_marks (marks : List Mark) :
    marks.foldl applyMark [] = ((stretches marks).map Stretch.mode).reverse := by
  induction marks with
  | nil => rfl
  | cons mark marks ih =>
      cases mark with
      | mode inner =>
          rw [List.foldl_cons, applyMark, foldl_marks_begun, stretches, List.map_cons,
            List.reverse_cons]
          rfl
      | field field text => exact ih

theorem readings_begun (marks : List Mark) :
    readings true marks = leading marks ++ (stretches marks).flatMap Stretch.readings := by
  induction marks with
  | nil => rfl
  | cons mark marks ih =>
      cases mark with
      | mode inner =>
          rw [readings, ih, leading, stretches, List.flatMap_cons]
          rfl
      | field field text =>
          rw [readings, ih, leading, stretches]
          rfl

theorem readings_stretches (marks : List Mark) :
    readings false marks = (stretches marks).flatMap Stretch.readings := by
  induction marks with
  | nil => rfl
  | cons mark marks ih =>
      cases mark with
      | mode inner =>
          rw [readings, readings_begun, stretches, List.flatMap_cons]
      | field field text => exact ih

def Mark.inner : Mark → Option XmlContent
  | .mode inner => some inner
  | .field _ _ => none

theorem elementMarks_inner (name : CString) (inner : XmlContent) :
    (elementMarks name inner).filterMap Mark.inner =
      if name = "DisplayMode".toList then [inner] else [] := by
  unfold elementMarks
  by_cases mode : name = "DisplayMode".toList
  · rw [if_pos mode, if_pos mode]
    rfl
  · rw [if_neg mode, if_neg mode]
    split
    · rfl
    · rfl

theorem marks_inner (content : XmlContent) :
    (marks content).filterMap Mark.inner = displayModes content := by
  induction content with
  | nil => rfl
  | text letters rest ih => exact ih
  | element label inner rest ih_inner ih_rest =>
      rw [marks, List.filterMap_append, List.filterMap_append, elementMarks_inner, ih_inner,
        ih_rest, displayModes]

theorem stretches_filterMap (marks : List Mark) :
    (stretches marks).map Stretch.inner = marks.filterMap Mark.inner := by
  induction marks with
  | nil => rfl
  | cons mark marks ih =>
      cases mark with
      | mode inner => exact congrArg (inner :: ·) ih
      | field field text => exact ih

/-- There is one stretch for each mode. -/
theorem stretches_inner (content : XmlContent) :
    (stretches (marks content)).map Stretch.inner = displayModes content :=
  (stretches_filterMap (marks content)).trans (marks_inner content)

/-! ## The document -/

section Document

variable {content : XmlContent} {events : List XmlEvent}

theorem delivered_ran (delivered : Delivers xmlMarkup content events)
    (unwritten : Nat → CString) :
    Ran emptyQuery (trace unwritten emptyQuery events) (marks content) := by
  have canonical : trace unwritten emptyQuery events =
      trace unwritten emptyQuery (content.events xmlMarkup) :=
    foldl_delivers (tracedEvent_merges unwritten) delivered ⟨emptyQuery, []⟩
  rw [canonical]
  exact (ran_content unwritten content emptyQuery).1

theorem xmlModelist_items (unwritten : Nat → CString) :
    (xmlModelist unwritten ⟨events, none⟩).result =
      .ok (trace unwritten emptyQuery events).query.items := by
  have same := trace_query unwritten events ⟨emptyQuery, []⟩
  unfold trace
  rw [same]
  rfl

theorem clean_iff_filled (delivered : Delivers xmlMarkup content events)
    (unwritten : Nat → CString) :
    none ∉ modelistReads unwritten ⟨events, none⟩ ↔
      ∀ stretch ∈ stretches (marks content), ∀ reading ∈ stretch.readings,
        reading.text ≠ [] := by
  have reads : modelistReads unwritten ⟨events, none⟩ =
      ((stretches (marks content)).flatMap Stretch.readings).map Reading.written := by
    rw [← readings_stretches]
    exact (delivered_ran delivered unwritten).reads
  have unread (reading : Reading) : reading.written = none ↔ reading.text = [] := by
    simp [Reading.written]
  rw [reads]
  constructor
  · intro clean stretch stretched reading member empty
    apply clean
    have listed := List.mem_flatMap.mpr ⟨stretch, stretched, member⟩
    exact List.mem_map.mpr ⟨reading, listed, (unread reading).mpr empty⟩
  · intro filled missing
    obtain ⟨reading, listed, nothing⟩ := List.mem_map.mp missing
    obtain ⟨stretch, stretched, member⟩ := List.mem_flatMap.mp listed
    exact filled stretch stretched reading member ((unread reading).mp nothing)

theorem described_iff_own :
    ((stretches (marks content)).map Stretch.mode).reverse = describedModes content ↔
      ∀ stretch ∈ stretches (marks content), ∀ field,
        number (lastText stretch.readings field) = number (ownText stretch.inner field) := by
  unfold describedModes
  rw [List.reverse_inj, ← stretches_inner, List.map_map, List.map_inj_left]
  constructor
  · intro same stretch stretched
    exact (mode_eq_modeWith_iff stretch _).mp (same stretch stretched)
  · intro same stretch stretched
    exact (mode_eq_modeWith_iff stretch _).mpr (same stretch stretched)

theorem items_of_filled (delivered : Delivers xmlMarkup content events)
    (unwritten : Nat → CString) (clean : none ∉ modelistReads unwritten ⟨events, none⟩) :
    (xmlModelist unwritten ⟨events, none⟩).result =
      .ok ((stretches (marks content)).map Stretch.mode).reverse := by
  rw [xmlModelist_items, (delivered_ran delivered unwritten).items clean]
  exact congrArg Except.ok (foldl_marks (marks content))

end Document

/-- The modes of a document are read, and nothing unwritten is, exactly when the fields can
be told apart from what stands around them. -/
theorem modelist_described_iff (content : XmlContent) (events : List XmlEvent)
    (delivered : Delivers xmlMarkup content events) :
    (∀ unwritten,
        (xmlModelist unwritten ⟨events, none⟩).result = .ok (describedModes content) ∧
          none ∉ modelistReads unwritten ⟨events, none⟩) ↔
      Readable content := by
  constructor
  · intro described
    obtain ⟨read, clean⟩ := described fun _ => []
    rw [items_of_filled delivered _ clean] at read
    exact ⟨(clean_iff_filled delivered _).mp clean,
      described_iff_own.mp (Except.ok.inj read)⟩
  · intro readable unwritten
    have clean := (clean_iff_filled delivered unwritten).mpr readable.filled
    rw [items_of_filled delivered unwritten clean, described_iff_own.mpr readable.own]
    exact ⟨rfl, clean⟩

/-- An element without attributes. -/
def tag (name : String) (inner rest : XmlContent) : XmlContent :=
  .element (name.toList, []) inner rest

def textTag (name text : String) (rest : XmlContent) : XmlContent :=
  tag name (.text text.toList .nil) rest

/-- Two modes, the second one without a height. -/
def twoModes : XmlContent :=
  tag "root"
    (textTag "Width" "5"
      (tag "DisplayMode"
        (textTag "Height" "1080" (textTag "RefreshRate" "60" (textTag "Width" "1920" .nil)))
        (tag "DisplayMode" (textTag "Width" "1280" (textTag "RefreshRate" "30" .nil)) .nil)))
    .nil

theorem two_modes_described :
    Readable twoModes ∧
      ∀ unwritten,
        (xmlModelist unwritten ⟨twoModes.events xmlMarkup, none⟩).result =
            .ok [⟨1280, 0, 30⟩, ⟨1920, 1080, 60⟩] ∧
          none ∉ modelistReads unwritten ⟨twoModes.events xmlMarkup, none⟩ := by
  have readable : Readable twoModes := by decide
  exact ⟨readable, (modelist_described_iff twoModes _
    (events_delivered xmlMarkup twoModes)).mpr readable⟩

/-- `<DisplayMode><Width></Width></DisplayMode>` -/
def emptyWidth : XmlContent := tag "DisplayMode" (tag "Width" .nil .nil) .nil

/-- A width behind the mode. -/
def strayWidth : XmlContent :=
  tag "root" (tag "DisplayMode" (textTag "Width" "1920" .nil) (textTag "Width" "5" .nil)) .nil

/-- The text of an empty width was never written, and a width behind a mode becomes its own. -/
theorem modes_misread :
    (¬∀ unwritten,
        (xmlModelist unwritten ⟨emptyWidth.events xmlMarkup, none⟩).result =
            .ok (describedModes emptyWidth) ∧
          none ∉ modelistReads unwritten ⟨emptyWidth.events xmlMarkup, none⟩) ∧
      ¬∀ unwritten,
        (xmlModelist unwritten ⟨strayWidth.events xmlMarkup, none⟩).result =
            .ok (describedModes strayWidth) ∧
          none ∉ modelistReads unwritten ⟨strayWidth.events xmlMarkup, none⟩ := by
  constructor
  · intro described
    have clean := (described fun _ => []).2
    have reads : modelistReads (fun _ => []) ⟨emptyWidth.events xmlMarkup, none⟩ = [none] := rfl
    rw [reads] at clean
    exact clean List.mem_cons_self
  · intro described
    have read := (described fun _ => []).1
    have given : (xmlModelist (fun _ => []) ⟨strayWidth.events xmlMarkup, none⟩).result =
        .ok [⟨5, 0, 0⟩] := rfl
    have own : describedModes strayWidth = [⟨1920, 0, 0⟩] := rfl
    rw [given, own] at read
    cases read

end MoonlightWii.Gamestream.ModelistDocument
