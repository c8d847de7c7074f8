import Mathlib.Data.List.Forall2
import MoonlightWii.Gamestream.XmlLists

/-!
# App lists of well-formed documents (`xml_applist` in `xml.c`)

A document holds apps, and an app holds at most one element for each of its fields;
every other event between them has no meaning for `xml_applist`.  The text of a field
comes in any number of pieces.  The block of a field is the one that the `n`th field
element of the document has `malloc`ed.
-/

set_option autoImplicit false

namespace MoonlightWii.Gamestream.ApplistDocument

open MoonlightWii.Gamestream.Errors
open MoonlightWii.Gamestream.Xml
open MoonlightWii.Gamestream.XmlLists

/-! ## Documents -/

inductive Field where
  | id
  | title
  | hdr
  deriving DecidableEq, Repr

def Field.word : Field → CString
  | .id => "ID".toList
  | .title => "AppTitle".toList
  | .hdr => "IsHdrSupported".toList

def Meaningful (name : CString) : Prop :=
  name = "App".toList ∨ ∃ field : Field, name = field.word

/-- Another element, or text that is not in a field. -/
inductive Filler where
  | opening (name : CString) (plain : ¬ Meaningful name) (atts : List (CString × CString))
  | closing (name : CString) (plain : ¬ Meaningful name)
  | text (chunk : CString)

def Filler.event : Filler → XmlEvent
  | .opening name _ atts => .startElement name atts
  | .closing name _ => .endElement name
  | .text chunk => .characterData chunk

structure FieldElement where
  field : Field
  atts : List (CString × CString)
  chunks : List CString

def FieldElement.text (element : FieldElement) : CString := element.chunks.flatten

def FieldElement.events (element : FieldElement) : List XmlEvent :=
  .startElement element.field.word element.atts ::
    (element.chunks.map XmlEvent.characterData ++ [.endElement element.field.word])

inductive Child where
  | between (filler : Filler)
  | field (element : FieldElement)

def Child.events : Child → List XmlEvent
  | .between filler => [filler.event]
  | .field element => element.events

def Child.fieldElement : Child → Option FieldElement
  | .between _ => none
  | .field element => some element

def fieldsOf (children : List Child) : List FieldElement :=
  children.filterMap Child.fieldElement

structure AppElement where
  atts : List (CString × CString)
  children : List Child
  once : ((fieldsOf children).map FieldElement.field).Nodup

def AppElement.fields (app : AppElement) : List FieldElement := fieldsOf app.children

def AppElement.events (app : AppElement) : List XmlEvent :=
  .startElement "App".toList app.atts ::
    (app.children.flatMap Child.events ++ [.endElement "App".toList])

/-- The text of a field; that of a missing one is empty. -/
def AppElement.textOf (app : AppElement) (field : Field) : CString :=
  match app.fields.find? fun element => element.field = field with
  | some element => element.text
  | none => []

inductive Part where
  | between (filler : Filler)
  | app (element : AppElement)

def Part.events : Part → List XmlEvent
  | .between filler => [filler.event]
  | .app element => element.events

def Part.appElement : Part → Option AppElement
  | .between _ => none
  | .app element => some element

abbrev Parts := List Part

def apps (parts : Parts) : List AppElement := parts.filterMap Part.appElement

/-- The field elements of apps, in document order. -/
def allFields (apps : List AppElement) : List FieldElement := apps.flatMap AppElement.fields

/-- What expat delivers for the document. -/
def document (parts : Parts) : Document := ⟨parts.flatMap Part.events, none⟩

/-! ## What a list has to say -/

/-- The string at a pointer into the heap; `unwritten` is what `malloc` found there. -/
def stringAt (unwritten : Nat → CString) (block : Nat) (cell : Block) : CString :=
  cell.text.getD (unwritten block)

structure Described (unwritten : Nat → CString) (blocks : List Block) (entry : App)
    (app : AppElement) : Prop where
  id : entry.id = atoi (app.textOf .id)
  hdr : entry.hdr = atoi (app.textOf .hdr)
  name : ∃ block cell, entry.name = some block ∧ blocks[block]? = some cell ∧
    cell.freed = false ∧ stringAt unwritten block cell = app.textOf .title

/-- One entry for each app, the last app first. -/
def Delivered (unwritten : Nat → CString) (parts : Parts) (list : AppList) : Prop :=
  List.Forall₂ (Described unwritten list.blocks) list.apps (apps parts).reverse

/-- Every app has a title, no field is empty, and the last field of the document is not
a title. -/
structure Complete (parts : Parts) : Prop where
  titled : ∀ app ∈ apps parts, ∃ element ∈ app.fields, element.field = .title
  written : ∀ element ∈ allFields (apps parts), element.chunks ≠ []
  ended : ∀ element ∈ (allFields (apps parts)).getLast?, element.field ≠ .title

/-! ## One field -/

def writtenText (chunks : List CString) : Option CString :=
  if chunks = [] then none else some chunks.flatten

/-- The block of a field when its element has ended. -/
def blockOf (element : FieldElement) : Block :=
  ⟨writtenText element.chunks, decide (element.field ≠ .title)⟩

def setField (unwritten : Nat → CString) (block : Nat) (element : FieldElement) (entry : App) :
    App :=
  let value := atoi ((writtenText element.chunks).getD (unwritten block))
  match element.field with
  | .id => { entry with id := value }
  | .title => { entry with name := some block }
  | .hdr => { entry with hdr := value }

/-- `memory` behind a field: a title is not let go. -/
def heldBlock (block : Nat) (element : FieldElement) : Option Nat :=
  if element.field = .title then some block else none

section Events

variable (unwritten : Nat → CString)

def applistEvent : ListQuery App → XmlEvent → ListQuery App :=
  listEvent startApplistElement (endApplistElement unwritten)

theorem startApplistElement_plain (name : CString) (plain : ¬ Meaningful name)
    (query : ListQuery App) : startApplistElement name query = query := by
  rw [Meaningful, not_or, not_exists] at plain
  have noField : ¬ (name = "ID".toList ∨ name = "AppTitle".toList ∨
      name = "IsHdrSupported".toList) := by
    rintro (same | same | same)
    · exact plain.2 .id same
    · exact plain.2 .title same
    · exact plain.2 .hdr same
  rw [startApplistElement, if_neg plain.1, if_neg noField]

theorem endApplistElement_resting (name : CString) (query : ListQuery App)
    (resting : query.start = false) : endApplistElement unwritten name query = query := by
  unfold endApplistElement
  rw [resting]

theorem filler_event (query : ListQuery App) (resting : query.start = false) (filler : Filler) :
    applistEvent unwritten query filler.event = query := by
  cases filler with
  | opening name plain atts => exact startApplistElement_plain name plain query
  | closing name plain => exact endApplistElement_resting unwritten name query resting
  | text chunk =>
      simp only [applistEvent, Filler.event, listEvent, writeCdata, resting]

/-- Pieces of text are collected in the newest block. -/
theorem chunks_event (items : List App) (blocks : List Block) (cell : Block)
    (chunks : List CString) :
    (chunks.map XmlEvent.characterData).foldl (applistEvent unwritten)
        ⟨items, blocks ++ [cell], some blocks.length, true⟩ =
      ⟨items, blocks ++ [{ cell with
          text := if chunks = [] then cell.text else some (cell.text.getD [] ++ chunks.flatten) }],
        some blocks.length, true⟩ := by
  induction chunks generalizing cell with
  | nil => rfl
  | cons chunk rest inductionHypothesis =>
      have written : applistEvent unwritten ⟨items, blocks ++ [cell], some blocks.length, true⟩
          (.characterData chunk) =
            ⟨items, blocks ++ [{ cell with text := some (cell.text.getD [] ++ chunk) }],
              some blocks.length, true⟩ := by
        exact writeCdata_newest items blocks cell chunk
      rw [List.map_cons, List.foldl_cons, written, inductionHypothesis]
      by_cases last : rest = []
      · simp [last]
      · simp [last]

theorem startApplistElement_field (field : Field) (query : ListQuery App) :
    startApplistElement field.word query = mallocBlock query := by
  cases field with
  | id => rfl
  | title => rfl
  | hdr => rfl

theorem endApplistElement_open (name : CString) (entry : App) (older : List App)
    (blocks : List Block) (memory : Option Nat) :
    endApplistElement unwritten name ⟨entry :: older, blocks, memory, true⟩ =
      let query : ListQuery App := ⟨entry :: older, blocks, memory, true⟩
      let value := atoi (memoryText unwritten query)
      if name = Field.id.word then
        { freeBlock query with items := { entry with id := value } :: older, start := false }
      else if name = Field.title.word then
        { query with items := { entry with name := memory } :: older, start := false }
      else if name = Field.hdr.word then
        { freeBlock query with items := { entry with hdr := value } :: older, start := false }
      else
        { query with start := false } := rfl

theorem words_distinct :
    Field.title.word ≠ Field.id.word ∧ Field.hdr.word ≠ Field.id.word ∧
      Field.hdr.word ≠ Field.title.word := by
  decide

/-- What the end of a field element leaves behind. -/
theorem endApplistElement_field (element : FieldElement) (entry : App) (older : List App)
    (blocks : List Block) :
    endApplistElement unwritten element.field.word
        ⟨entry :: older, blocks ++ [⟨writtenText element.chunks, false⟩], some blocks.length,
          true⟩ =
      ⟨setField unwritten blocks.length element entry :: older, blocks ++ [blockOf element],
        heldBlock blocks.length element, false⟩ := by
  obtain ⟨field, atts, chunks⟩ := element
  rw [endApplistElement_open]
  simp only [memoryText_newest, freeBlock_newest]
  cases field with
  | id =>
      rw [if_pos rfl]
      rfl
  | title =>
      rw [if_neg words_distinct.1, if_pos rfl]
      rfl
  | hdr =>
      rw [if_neg words_distinct.2.1, if_neg words_distinct.2.2, if_pos rfl]
      rfl

theorem field_events (element : FieldElement) (entry : App) (older : List App)
    (blocks : List Block) (memory : Option Nat) :
    element.events.foldl (applistEvent unwritten) ⟨entry :: older, blocks, memory, false⟩ =
      ⟨setField unwritten blocks.length element entry :: older, blocks ++ [blockOf element],
        heldBlock blocks.length element, false⟩ := by
  have opened : applistEvent unwritten ⟨entry :: older, blocks, memory, false⟩
      (.startElement element.field.word element.atts) =
        ⟨entry :: older, blocks ++ [⟨none, false⟩], some blocks.length, true⟩ :=
    startApplistElement_field element.field _
  rw [FieldElement.events, List.foldl_cons, opened, List.foldl_append, chunks_event]
  exact endApplistElement_field unwritten element entry older blocks

/-! ## One app -/

/-- An entry behind field elements, the first of which has this block. -/
def fillEntry : Nat → App → List FieldElement → App
  | _, entry, [] => entry
  | block, entry, element :: rest =>
      fillEntry (block + 1) (setField unwritten block element entry) rest

/-- `memory` behind field elements. -/
def memoryBehind : Nat → Option Nat → List FieldElement → Option Nat
  | _, memory, [] => memory
  | block, _, element :: rest => memoryBehind (block + 1) (heldBlock block element) rest

theorem children_events (children : List Child) (entry : App) (older : List App)
    (blocks : List Block) (memory : Option Nat) :
    (children.flatMap Child.events).foldl (applistEvent unwritten)
        ⟨entry :: older, blocks, memory, false⟩ =
      ⟨fillEntry unwritten blocks.length entry (fieldsOf children) :: older,
        blocks ++ (fieldsOf children).map blockOf,
        memoryBehind blocks.length memory (fieldsOf children), false⟩ := by
  induction children generalizing entry blocks memory with
  | nil => simp [fieldsOf, fillEntry, memoryBehind]
  | cons child rest inductionHypothesis =>
      rw [List.flatMap_cons, List.foldl_append]
      cases child with
      | between filler =>
          have skipped := filler_event unwritten ⟨entry :: older, blocks, memory, false⟩ rfl filler
          simp only [Child.events, List.foldl_cons, List.foldl_nil, skipped]
          rw [inductionHypothesis]
          rfl
      | field element =>
          have fields : fieldsOf (.field element :: rest) = element :: fieldsOf rest := rfl
          simp only [Child.events]
          rw [field_events, inductionHypothesis, fields]
          simp only [List.length_append, List.length_singleton, fillEntry, memoryBehind,
            List.map_cons, List.append_assoc, List.singleton_append]

def newEntry : App := { id := 0, name := none, hdr := 0 }

theorem app_events (app : AppElement) (older : List App) (blocks : List Block)
    (memory : Option Nat) :
    app.events.foldl (applistEvent unwritten) ⟨older, blocks, memory, false⟩ =
      ⟨fillEntry unwritten blocks.length newEntry app.fields :: older,
        blocks ++ app.fields.map blockOf, memoryBehind blocks.length memory app.fields,
        false⟩ := by
  have opened : applistEvent unwritten ⟨older, blocks, memory, false⟩
      (.startElement "App".toList app.atts) = ⟨newEntry :: older, blocks, memory, false⟩ := rfl
  rw [AppElement.events, List.foldl_cons, opened, List.foldl_append, children_events]
  exact endApplistElement_resting unwritten "App".toList ⟨_, _, _, false⟩ rfl

/-! ## The document -/

/-- The entries of apps, the first of whose fields has this block. -/
def entriesFrom : Nat → List AppElement → List App
  | _, [] => []
  | block, app :: rest =>
      fillEntry unwritten block newEntry app.fields ::
        entriesFrom (block + app.fields.length) rest

theorem memoryBehind_append (block : Nat) (memory : Option Nat) (first later : List FieldElement) :
    memoryBehind block memory (first ++ later) =
      memoryBehind (block + first.length) (memoryBehind block memory first) later := by
  induction first generalizing block memory with
  | nil => rfl
  | cons element rest inductionHypothesis =>
      rw [List.cons_append, memoryBehind, inductionHypothesis, List.length_cons, memoryBehind,
        Nat.add_assoc, Nat.add_comm 1]

theorem parts_events (parts : Parts) (older : List App) (blocks : List Block)
    (memory : Option Nat) :
    (parts.flatMap Part.events).foldl (applistEvent unwritten) ⟨older, blocks, memory, false⟩ =
      ⟨(entriesFrom unwritten blocks.length (apps parts)).reverse ++ older,
        blocks ++ (allFields (apps parts)).map blockOf,
        memoryBehind blocks.length memory (allFields (apps parts)), false⟩ := by
  induction parts generalizing older blocks memory with
  | nil => simp [apps, allFields, entriesFrom, memoryBehind]
  | cons part rest inductionHypothesis =>
      rw [List.flatMap_cons, List.foldl_append]
      cases part with
      | between filler =>
          have skipped := filler_event unwritten ⟨older, blocks, memory, false⟩ rfl filler
          simp only [Part.events, List.foldl_cons, List.foldl_nil, skipped]
          rw [inductionHypothesis]
          rfl
      | app element =>
          have listed : apps (.app element :: rest) = element :: apps rest := rfl
          simp only [Part.events]
          rw [app_events, inductionHypothesis, listed]
          simp only [entriesFrom, allFields, List.flatMap_cons, List.map_append,
            List.length_append, List.length_map, memoryBehind_append, List.reverse_cons,
            List.append_assoc, List.singleton_append]

/-- `memory` is left at the block of a title that is the last field of all. -/
theorem memoryBehind_last (block : Nat) (fields : List FieldElement) :
    memoryBehind block none fields =
      fields.getLast?.bind fun element => heldBlock (block + fields.length - 1) element := by
  rcases List.eq_nil_or_concat fields with rfl | ⟨first, last, rfl⟩
  · rfl
  · rw [List.concat_eq_append, memoryBehind_append, List.getLast?_concat, Option.bind_some,
      memoryBehind, memoryBehind, List.length_append, List.length_singleton, ← Nat.add_assoc,
      Nat.add_sub_cancel]

def listOf (parts : Parts) : AppList :=
  let query : ListQuery App :=
    ⟨(entriesFrom unwritten 0 (apps parts)).reverse, (allFields (apps parts)).map blockOf,
      memoryBehind 0 none (allFields (apps parts)), false⟩
  ⟨query.items, (freeBlock query).blocks⟩

theorem xmlApplist_document (parts : Parts) :
    xmlApplist unwritten (document parts) = ⟨.ok (listOf unwritten parts), none⟩ := by
  have read := parts_events unwritten parts [] [] none
  rw [List.append_nil, List.nil_append, List.length_nil] at read
  have query : (document parts).events.foldl
      (listEvent startApplistElement (endApplistElement unwritten)) emptyQuery = _ := read
  unfold xmlApplist
  rw [query]
  rfl

end Events

/-! ## The fields of an entry -/

/-- The element of a field with its block, where the first element has this block. -/
def locate (field : Field) : Nat → List FieldElement → Option (Nat × FieldElement)
  | _, [] => none
  | block, element :: rest =>
      if element.field = field then some (block, element) else locate field (block + 1) rest

theorem locate_absent {field : Field} {fields : List FieldElement}
    (absent : field ∉ fields.map FieldElement.field) (block : Nat) :
    locate field block fields = none := by
  induction fields generalizing block with
  | nil => rfl
  | cons element rest inductionHypothesis =>
      rw [List.map_cons, List.mem_cons, not_or] at absent
      rw [locate, if_neg (Ne.symm absent.1)]
      exact inductionHypothesis absent.2 (block + 1)

theorem locate_at {fields : List FieldElement} (once : (fields.map FieldElement.field).Nodup)
    (block : Nat) {offset : Nat} {element : FieldElement}
    (found : fields[offset]? = some element) :
    locate element.field block fields = some (block + offset, element) := by
  induction fields generalizing block offset with
  | nil => cases found
  | cons first rest inductionHypothesis =>
      rw [List.map_cons, List.nodup_cons] at once
      cases offset with
      | zero =>
          cases Option.some.inj found
          rw [locate, if_pos rfl]
          rfl
      | succ offset =>
          rw [List.getElem?_cons_succ] at found
          have later : element.field ∈ rest.map FieldElement.field :=
            List.mem_map_of_mem (List.mem_of_getElem? found)
          have other : first.field ≠ element.field := by
            intro same
            rw [← same] at later
            exact once.1 later
          rw [locate, if_neg other, inductionHypothesis once.2 (block + 1) found, Nat.add_assoc,
            Nat.add_comm 1]

theorem locate_find (field : Field) (block : Nat) (fields : List FieldElement) :
    (locate field block fields).map Prod.snd =
      fields.find? fun element => element.field = field := by
  induction fields generalizing block with
  | nil => rfl
  | cons element rest inductionHypothesis =>
      by_cases same : element.field = field
      · rw [locate, if_pos same, List.find?_cons_of_pos (by simpa using same)]
        rfl
      · rw [locate, if_neg same, List.find?_cons_of_neg (by simpa using same)]
        exact inductionHypothesis (block + 1)

/-- A field of an entry is what its own element wrote. -/
theorem fillEntry_read {Value : Type} (unwritten : Nat → CString) (own : Field)
    (read : App → Value) (written : Nat → FieldElement → Value)
    (writes : ∀ block element entry, element.field = own →
      read (setField unwritten block element entry) = written block element)
    (keeps : ∀ block element entry, element.field ≠ own →
      read (setField unwritten block element entry) = read entry)
    {fields : List FieldElement} (once : (fields.map FieldElement.field).Nodup) (block : Nat)
    (entry : App) :
    read (fillEntry unwritten block entry fields) =
      match locate own block fields with
      | none => read entry
      | some (found, element) => written found element := by
  induction fields generalizing block entry with
  | nil => rfl
  | cons element rest inductionHypothesis =>
      rw [List.map_cons, List.nodup_cons] at once
      rw [fillEntry, inductionHypothesis once.2]
      by_cases same : element.field = own
      · have absent : own ∉ rest.map FieldElement.field := by
          rw [← same]
          exact once.1
        rw [locate_absent absent, locate, if_pos same]
        exact writes block element entry same
      · rw [locate, if_neg same]
        cases locate own (block + 1) rest with
        | none => exact keeps block element entry same
        | some found => rfl

/-- The number of an entry that a field stores. -/
def number : Field → App → Int
  | .id, entry => entry.id
  | .hdr, entry => entry.hdr
  | .title, _ => 0

section Entry

variable (unwritten : Nat → CString) (app : AppElement) (block : Nat)

theorem entry_number {field : Field} (numeric : field ≠ .title) :
    number field (fillEntry unwritten block newEntry app.fields) =
      match locate field block app.fields with
      | none => 0
      | some (found, element) =>
          atoi ((writtenText element.chunks).getD (unwritten found)) := by
  have empty : number field newEntry = 0 := by
    cases field with
    | id => rfl
    | hdr => rfl
    | title => rfl
  rw [← empty]
  refine fillEntry_read unwritten field (number field)
    (fun found element => atoi ((writtenText element.chunks).getD (unwritten found)))
    ?_ ?_ app.once block newEntry
  · rintro found ⟨own, atts, chunks⟩ entry rfl
    cases own with
    | id => rfl
    | hdr => rfl
    | title => exact absurd rfl numeric
  · rintro found ⟨own, atts, chunks⟩ entry other
    cases field with
    | title => exact absurd rfl numeric
    | id =>
        cases own with
        | id => exact absurd rfl other
        | title => rfl
        | hdr => rfl
    | hdr =>
        cases own with
        | hdr => exact absurd rfl other
        | title => rfl
        | id => rfl

theorem entry_name :
    (fillEntry unwritten block newEntry app.fields).name =
      (locate .title block app.fields).map Prod.fst := by
  have read := fillEntry_read unwritten .title App.name (fun found _ => some found)
    ?_ ?_ app.once block newEntry
  · rw [AppElement.fields, read]
    cases locate .title block (fieldsOf app.children) with
    | none => rfl
    | some found => rfl
  · rintro found ⟨field, atts, chunks⟩ entry rfl
    rfl
  · rintro found ⟨field, atts, chunks⟩ entry other
    cases field with
    | title => exact absurd rfl other
    | id => rfl
    | hdr => rfl

theorem textOf_locate (field : Field) :
    app.textOf field =
      match locate field block app.fields with
      | none => []
      | some (_, element) => element.text := by
  rw [AppElement.textOf, ← locate_find field block app.fields]
  cases locate field block app.fields with
  | none => rfl
  | some found => rfl

end Entry

/-! ## The apps of a document -/

/-- The entries are described when each is, with the blocks behind those of the apps
before it. -/
theorem entries_described_iff (unwritten : Nat → CString) (blocks : List Block)
    (apps : List AppElement) (block : Nat) :
    List.Forall₂ (Described unwritten blocks) (entriesFrom unwritten block apps) apps ↔
      ∀ front app back, apps = front ++ app :: back →
        Described unwritten blocks
          (fillEntry unwritten (block + (allFields front).length) newEntry app.fields) app := by
  induction apps generalizing block with
  | nil =>
      constructor
      · intro _ front app back split
        cases front <;> cases split
      · intro _
        exact List.Forall₂.nil
  | cons first rest inductionHypothesis =>
      rw [entriesFrom, List.forall₂_cons, inductionHypothesis]
      constructor
      · rintro ⟨head, tail⟩ front app back split
        cases front with
        | nil =>
            cases split
            exact head
        | cons other front =>
            cases split
            have later := tail front app back rfl
            rw [Nat.add_assoc, ← List.length_append] at later
            exact later
      · intro all
        refine ⟨all [] first rest rfl, ?_⟩
        intro front app back split
        have later := all (first :: front) app back (by rw [split]; rfl)
        rw [allFields, List.flatMap_cons, List.length_append, ← Nat.add_assoc] at later
        exact later

theorem allFields_split (front : List AppElement) (app : AppElement) (back : List AppElement) :
    allFields (front ++ app :: back) = allFields front ++ (app.fields ++ allFields back) := by
  rw [allFields, List.flatMap_append, List.flatMap_cons]
  rfl

/-- Every field element of a document is one of an app. -/
theorem allFields_owner {apps : List AppElement} {place : Nat} {element : FieldElement}
    (found : (allFields apps)[place]? = some element) :
    ∃ front app back offset, apps = front ++ app :: back ∧
      app.fields[offset]? = some element ∧ (allFields front).length + offset = place := by
  induction apps generalizing place with
  | nil => cases found
  | cons first rest inductionHypothesis =>
      rw [allFields, List.flatMap_cons] at found
      by_cases inFirst : place < first.fields.length
      · rw [List.getElem?_append_left inFirst] at found
        exact ⟨[], first, rest, place, rfl, found, Nat.zero_add place⟩
      · rw [List.getElem?_append_right (Nat.le_of_not_lt inFirst)] at found
        obtain ⟨front, app, back, offset, split, owned, sum⟩ := inductionHypothesis found
        refine ⟨first :: front, app, back, offset, by rw [split]; rfl, owned, ?_⟩
        rw [allFields, List.flatMap_cons, List.length_append]
        rw [allFields] at sum
        omega

/-- The block of a field element holds its text. -/
theorem block_of_field {front : List AppElement} {app : AppElement} {back : List AppElement}
    {offset : Nat} {element : FieldElement} (found : app.fields[offset]? = some element) :
    ((allFields (front ++ app :: back)).map blockOf)[(allFields front).length + offset]? =
      some (blockOf element) := by
  have inside : offset < app.fields.length := (List.getElem?_eq_some_iff.mp found).1
  rw [allFields_split, List.getElem?_map, List.getElem?_append_right (Nat.le_add_right _ _),
    Nat.add_sub_cancel_left, List.getElem?_append_left inside, found]
  rfl

theorem writtenText_of_ne {chunks : List CString} (written : chunks ≠ []) :
    writtenText chunks = some chunks.flatten := if_neg written

section Complete

variable {parts : Parts}

/-- The text that an app says of a field, when its elements are not empty. -/
theorem number_read (unwritten : Nat → CString) {app : AppElement} (block : Nat) {field : Field}
    (numeric : field ≠ .title) (written : ∀ element ∈ app.fields, element.chunks ≠ []) :
    number field (fillEntry unwritten block newEntry app.fields) = atoi (app.textOf field) := by
  rw [entry_number unwritten app block numeric]
  have text := textOf_locate app block field
  cases located : locate field block app.fields with
  | none =>
      rw [located] at text
      rw [text]
      rfl
  | some found =>
      obtain ⟨place, element⟩ := found
      rw [located] at text
      have member : element ∈ app.fields := by
        have same := locate_find field block app.fields
        rw [located] at same
        exact List.mem_of_find?_eq_some same.symm
      rw [text]
      simp only [writtenText_of_ne (written element member), Option.getD_some]
      rfl

theorem delivered_of_complete (complete : Complete parts) (unwritten : Nat → CString) :
    Delivered unwritten parts (listOf unwritten parts) := by
  have held : memoryBehind 0 none (allFields (apps parts)) = none := by
    rw [memoryBehind_last]
    cases last : (allFields (apps parts)).getLast? with
    | none => rfl
    | some element =>
        rw [Option.bind_some, heldBlock, if_neg]
        exact complete.ended element last
  have blocks : (listOf unwritten parts).blocks = (allFields (apps parts)).map blockOf := by
    simp only [listOf, held]
    rfl
  unfold Delivered
  rw [blocks]
  apply List.forall₂_reverse_iff.mpr
  rw [entries_described_iff]
  intro front app back split
  have inApps : app ∈ apps parts := by
    rw [split]
    exact List.mem_append_right _ List.mem_cons_self
  have written : ∀ element ∈ app.fields, element.chunks ≠ [] := fun element member =>
    complete.written element (List.mem_flatMap.mpr ⟨app, inApps, member⟩)
  rw [Nat.zero_add]
  refine ⟨?_, ?_, ?_⟩
  · exact @number_read unwritten app (allFields front).length .id (by simp) written
  · exact @number_read unwritten app (allFields front).length .hdr (by simp) written
  · obtain ⟨element, member, title⟩ := complete.titled app inApps
    obtain ⟨offset, found⟩ := List.getElem?_of_mem member
    have located := locate_at app.once (allFields front).length found
    rw [title] at located
    refine ⟨(allFields front).length + offset, blockOf element, ?_, ?_, ?_, ?_⟩
    · rw [entry_name, AppElement.fields, located]
      rfl
    · rw [split]
      exact block_of_field found
    · simp [blockOf, title]
    · rw [textOf_locate app (allFields front).length .title, AppElement.fields, located]
      simp only [stringAt, blockOf, writtenText_of_ne (written element member), Option.getD_some]
      rfl

/-- Blocks of `malloc` that hold the text of the number one. -/
def unwrittenOne : Nat → CString := fun _ => ['1']

/-- A described entry whose memory was not cleared has a text for each of its fields, and
a title that has not been freed. -/
theorem described_field {front : List AppElement} {app : AppElement} {back : List AppElement}
    {blocks : List Block} {offset : Nat} {element : FieldElement}
    (texts : ∀ place : Nat, blocks[place]?.map Block.text =
      ((allFields (front ++ app :: back)).map blockOf)[place]?.map Block.text)
    (described : Described unwrittenOne blocks
      (fillEntry unwrittenOne (0 + (allFields front).length) newEntry app.fields) app)
    (found : app.fields[offset]? = some element) :
    element.chunks ≠ [] ∧
      (element.field = .title →
        ∃ cell, blocks[(allFields front).length + offset]? = some cell ∧ cell.freed = false) := by
  rw [Nat.zero_add] at described
  have located := locate_at app.once (allFields front).length found
  have text := textOf_locate app (allFields front).length element.field
  have place := texts ((allFields front).length + offset)
  rw [block_of_field found] at place
  rw [AppElement.fields, located] at text
  have one : atoi ['1'] ≠ atoi [] := by decide
  have numbered (numeric : element.field ≠ .title)
      (same : number element.field (fillEntry unwrittenOne (allFields front).length newEntry
        app.fields) = atoi (app.textOf element.field)) : element.chunks ≠ [] := by
    rw [entry_number unwrittenOne app _ numeric, AppElement.fields, located, text] at same
    intro empty
    simp only [FieldElement.text, writtenText, empty, if_true, Option.getD_none,
      List.flatten_nil] at same
    exact one same
  cases field : element.field with
  | id =>
      rw [field] at numbered
      exact ⟨numbered (by simp) described.id, fun title => by cases title⟩
  | hdr =>
      rw [field] at numbered
      exact ⟨numbered (by simp) described.hdr, fun title => by cases title⟩
  | title =>
      obtain ⟨block, cell, name, kept, live, string⟩ := described.name
      rw [entry_name, AppElement.fields, ← field, located] at name
      have same : (allFields front).length + offset = block := Option.some.inj name
      rw [same] at place
      rw [← field, text] at string
      rw [kept] at place
      have cellText : cell.text = writtenText element.chunks := Option.some.inj place
      refine ⟨?_, fun _ => ⟨cell, by rw [same]; exact kept, live⟩⟩
      intro empty
      simp only [stringAt, cellText, writtenText, empty, if_true, Option.getD_none,
        FieldElement.text, List.flatten_nil, unwrittenOne] at string
      cases string

theorem freeBlock_texts (query : ListQuery App) (place : Nat) :
    (freeBlock query).blocks[place]?.map Block.text = query.blocks[place]?.map Block.text := by
  unfold freeBlock
  split
  · rename_i block _
    rw [List.getElem?_modify]
    split
    · cases query.blocks[place]? with
      | none => rfl
      | some cell => rfl
    · cases query.blocks[place]? with
      | none => rfl
      | some cell => rfl
  · rfl

theorem complete_of_delivered
    (delivered : Delivered unwrittenOne parts (listOf unwrittenOne parts)) :
    Complete parts := by
  have texts : ∀ place : Nat, (listOf unwrittenOne parts).blocks[place]?.map Block.text =
      ((allFields (apps parts)).map blockOf)[place]?.map Block.text :=
    fun place => freeBlock_texts _ place
  have described := List.forall₂_reverse_iff.mp delivered
  rw [entries_described_iff] at described
  have fieldOf {front : List AppElement} {app : AppElement} {back : List AppElement}
      (split : apps parts = front ++ app :: back) {offset : Nat} {element : FieldElement}
      (found : app.fields[offset]? = some element) :=
    described_field (by rw [← split]; exact texts) (described front app back split) found
  refine ⟨?_, ?_, ?_⟩
  · intro app member
    obtain ⟨front, back, split⟩ := List.append_of_mem member
    obtain ⟨block, cell, name, -⟩ := (described front app back split).name
    rw [entry_name, Option.map_eq_some_iff] at name
    obtain ⟨⟨place, element⟩, located, -⟩ := name
    have found := locate_find .title (0 + (allFields front).length) app.fields
    rw [located] at found
    have title := List.find?_some found.symm
    exact ⟨element, List.mem_of_find?_eq_some found.symm, by simpa using title⟩
  · intro element member
    obtain ⟨place, found⟩ := List.getElem?_of_mem member
    obtain ⟨front, app, back, offset, split, owned, -⟩ := allFields_owner found
    exact (fieldOf split owned).1
  · intro element last title
    have lastPlace := last
    rw [Option.mem_def, List.getLast?_eq_getElem?] at lastPlace
    obtain ⟨front, app, back, offset, split, owned, sum⟩ := allFields_owner lastPlace
    obtain ⟨cell, kept, live⟩ := (fieldOf split owned).2 title
    -- the last title is the block that is freed after parsing
    have held : memoryBehind 0 none (allFields (apps parts)) =
        some ((allFields front).length + offset) := by
      rw [memoryBehind_last, last, Option.bind_some, heldBlock, if_pos title, Nat.zero_add, sum]
    have block : ((allFields (apps parts)).map blockOf)[(allFields front).length + offset]? =
        some (blockOf element) := by
      rw [split]
      exact block_of_field owned
    simp only [listOf, freeBlock, held, List.getElem?_modify_eq, block] at kept
    cases Option.some.inj kept
    cases live

end Complete

/-- One app whose title comes last, as `<App><ID>7</ID><AppTitle>Desktop</AppTitle></App>`. -/
def titleLast : Parts :=
  [.app
    { atts := []
      children := [.field ⟨.id, [], ["7".toList]⟩, .field ⟨.title, [], ["Desktop".toList]⟩]
      once := by decide }]

end MoonlightWii.Gamestream.ApplistDocument
