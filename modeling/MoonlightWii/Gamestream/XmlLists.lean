import MoonlightWii.Gamestream.Request

/-!
# Lists in host documents (`xml_modelist` and `xml_applist` in `xml.c`)

The callbacks collect text in blocks of the heap.  A block of `malloc(1)` that no
character data reaches is read all the same; `unwritten` is the text at it then.
-/

set_option autoImplicit false

namespace MoonlightWii.Gamestream.XmlLists

open MoonlightWii.Gamestream.Errors
open MoonlightWii.Gamestream.Request
open MoonlightWii.Gamestream.Xml

structure Block where
  /-- The text that `write_cdata` left, if it was called. -/
  text : Option CString
  freed : Bool

/-- `struct xml_query` over a list, newest item first. -/
structure ListQuery (Item : Type) where
  items : List Item
  blocks : List Block
  memory : Option Nat
  start : Bool

section Query

variable {Item : Type}

def emptyQuery : ListQuery Item := { items := [], blocks := [], memory := none, start := false }

def mallocBlock (query : ListQuery Item) : ListQuery Item :=
  { query with
    blocks := query.blocks ++ [{ text := none, freed := false }]
    memory := some query.blocks.length
    start := true }

def freeBlock (query : ListQuery Item) : ListQuery Item :=
  match query.memory with
  | some block =>
      { query with
        blocks := query.blocks.modify block fun block => { block with freed := true }
        memory := none }
  | none => query

/-- `memory` is only missing where `start` is zero. -/
def writeCdata (query : ListQuery Item) (text : CString) : ListQuery Item :=
  match query.start, query.memory with
  | true, some block =>
      { query with
        blocks := query.blocks.modify block fun block =>
          { block with text := some (block.text.getD [] ++ text) } }
  | _, _ => query

def memoryText (unwritten : Nat → CString) (query : ListQuery Item) : CString :=
  match query.memory with
  | some block => (query.blocks[block]?.bind fun block => block.text).getD (unwritten block)
  | none => []

def listEvent (startElement endElement : CString → ListQuery Item → ListQuery Item)
    (query : ListQuery Item) : XmlEvent → ListQuery Item
  | .startElement name _ => startElement name query
  | .endElement name => endElement name query
  | .characterData text => writeCdata query text

end Query

/-! ## `xml_modelist` -/

/-- The fields of `DISPLAY_MODE` are unsigned. -/
def toUnsigned (value : Int) : Int := value % 4294967296

def startModeElement (name : CString) (query : ListQuery DisplayMode) : ListQuery DisplayMode :=
  if name = "DisplayMode".toList then
    { query with items := { width := 0, height := 0, refresh := 0 } :: query.items }
  else if query.items.isEmpty = false ∧
      (name = "Height".toList ∨ name = "Width".toList ∨ name = "RefreshRate".toList) then
    mallocBlock query
  else
    query

def setMode (name : CString) (value : Int) (mode : DisplayMode) : DisplayMode :=
  if name = "Width".toList then { mode with width := value }
  else if name = "Height".toList then { mode with height := value }
  else if name = "RefreshRate".toList then { mode with refresh := value }
  else mode

def endModeElement (unwritten : Nat → CString) (name : CString) (query : ListQuery DisplayMode) :
    ListQuery DisplayMode :=
  match query.start, query.items with
  | true, mode :: older =>
      { freeBlock query with
        items := setMode name (toUnsigned (atoi (memoryText unwritten query))) mode :: older
        start := false }
  | _, _ => query

def xmlModelist (unwritten : Nat → CString) (document : Document) :
    Reported (Except Int (List DisplayMode)) :=
  let query := document.events.foldl (listEvent startModeElement (endModeElement unwritten))
    emptyQuery
  match document.error with
  | some error => ⟨.error gsInvalid, some (xmlError error)⟩
  | none => ⟨.ok query.items, none⟩

/-! ## `xml_applist` -/

structure App where
  id : Int
  /-- The block at `name`. -/
  name : Option Nat
  hdr : Int

structure AppList where
  apps : List App
  blocks : List Block

def startApplistElement (name : CString) (query : ListQuery App) : ListQuery App :=
  if name = "App".toList then
    { query with items := { id := 0, name := none, hdr := 0 } :: query.items }
  else if name = "ID".toList ∨ name = "AppTitle".toList ∨ name = "IsHdrSupported".toList then
    mallocBlock query
  else
    query

def endApplistElement (unwritten : Nat → CString) (name : CString) (query : ListQuery App) :
    ListQuery App :=
  match query.start, query.items with
  | true, app :: older =>
      let value := atoi (memoryText unwritten query)
      if name = "ID".toList then
        { freeBlock query with items := { app with id := value } :: older, start := false }
      else if name = "AppTitle".toList then
        -- `memory` keeps pointing at the name.
        { query with items := { app with name := query.memory } :: older, start := false }
      else if name = "IsHdrSupported".toList then
        { freeBlock query with items := { app with hdr := value } :: older, start := false }
      else
        { query with start := false }
  | _, _ => query

def xmlApplist (unwritten : Nat → CString) (document : Document) : Reported (Except Int AppList) :=
  let query := document.events.foldl (listEvent startApplistElement (endApplistElement unwritten))
    emptyQuery
  match document.error with
  | some error => ⟨.error gsInvalid, some (xmlError error)⟩
  | none => ⟨.ok { apps := query.items, blocks := (freeBlock query).blocks }, none⟩

/-! ## The newest block -/

theorem modify_newest (blocks : List Block) (cell : Block) (change : Block → Block) :
    (blocks ++ [cell]).modify blocks.length change = blocks ++ [change cell] := by
  induction blocks with
  | nil => rfl
  | cons first rest inductionHypothesis =>
      rw [List.cons_append, List.length_cons, List.modify_succ_cons, inductionHypothesis,
        List.cons_append]

section Newest

variable {Item : Type} (items : List Item) (blocks : List Block) (cell : Block)

theorem memoryText_newest (unwritten : Nat → CString) :
    memoryText unwritten ⟨items, blocks ++ [cell], some blocks.length, true⟩ =
      cell.text.getD (unwritten blocks.length) := by
  have newest : (blocks ++ [cell])[blocks.length]? = some cell := by
    rw [List.getElem?_append_right (Nat.le_refl _), Nat.sub_self]
    rfl
  simp only [memoryText, newest, Option.bind_some]

theorem freeBlock_newest :
    freeBlock ⟨items, blocks ++ [cell], some blocks.length, true⟩ =
      ⟨items, blocks ++ [{ cell with freed := true }], none, true⟩ := by
  simp only [freeBlock, modify_newest]

theorem writeCdata_newest (text : CString) :
    writeCdata ⟨items, blocks ++ [cell], some blocks.length, true⟩ text =
      ⟨items, blocks ++ [{ cell with text := some (cell.text.getD [] ++ text) }],
        some blocks.length, true⟩ := by
  simp only [writeCdata, modify_newest]

end Newest

/-! ## How many items a list has -/

def opens (word : CString) : XmlEvent → Bool
  | .startElement name _ => decide (name = word)
  | .endElement _ => false
  | .characterData _ => false

section Counting

variable {Item : Type}

@[simp] theorem writeCdata_items (query : ListQuery Item) (text : CString) :
    (writeCdata query text).items = query.items := by
  unfold writeCdata
  split
  · rfl
  · rfl

/-- A list grows by one at each start of its element and nowhere else. -/
theorem items_length {word : CString}
    {startElement endElement : CString → ListQuery Item → ListQuery Item}
    (started : ∀ name query, (startElement name query).items.length =
      query.items.length + if name = word then 1 else 0)
    (ended : ∀ name query, (endElement name query).items.length = query.items.length)
    (events : List XmlEvent) (query : ListQuery Item) :
    (events.foldl (listEvent startElement endElement) query).items.length =
      query.items.length + events.countP (opens word) := by
  induction events generalizing query with
  | nil => rfl
  | cons event rest ih =>
      rw [List.foldl_cons, ih, List.countP_cons]
      cases event with
      | startElement name atts =>
          have grown := started name query
          by_cases same : name = word
          · simp only [listEvent, opens, same, decide_true, if_true] at grown ⊢
            omega
          · simp only [listEvent, opens, same, decide_false, if_false, Bool.false_eq_true]
              at grown ⊢
            omega
      | endElement name =>
          simp only [listEvent, opens, ended, if_false, Bool.false_eq_true]
          omega
      | characterData text =>
          simp only [listEvent, opens, writeCdata_items, if_false, Bool.false_eq_true]
          omega

end Counting

theorem startModeElement_length (name : CString) (query : ListQuery DisplayMode) :
    (startModeElement name query).items.length =
      query.items.length + if name = "DisplayMode".toList then 1 else 0 := by
  unfold startModeElement
  split
  · rfl
  · split
    · rfl
    · rfl

theorem endModeElement_length (unwritten : Nat → CString) (name : CString)
    (query : ListQuery DisplayMode) :
    (endModeElement unwritten name query).items.length = query.items.length := by
  unfold endModeElement
  split
  · rename_i known
    simp [known]
  · rfl

theorem xmlModelist_length (unwritten : Nat → CString) (document : Document)
    (modes : List DisplayMode) (read : (xmlModelist unwritten document).result = .ok modes) :
    modes.length = document.events.countP (opens "DisplayMode".toList) := by
  unfold xmlModelist at read
  cases ended : document.error with
  | some error =>
      rw [ended] at read
      cases read
  | none =>
      rw [ended] at read
      cases read
      rw [items_length startModeElement_length (endModeElement_length unwritten)]
      exact Nat.zero_add _

theorem startApplistElement_length (name : CString) (query : ListQuery App) :
    (startApplistElement name query).items.length =
      query.items.length + if name = "App".toList then 1 else 0 := by
  unfold startApplistElement
  split
  · rfl
  · split
    · rfl
    · rfl

theorem endApplistElement_length (unwritten : Nat → CString) (name : CString)
    (query : ListQuery App) :
    (endApplistElement unwritten name query).items.length = query.items.length := by
  unfold endApplistElement
  split
  · rename_i known
    simp only
    split
    · simp [known]
    · split
      · simp [known]
      · split
        · simp [known]
        · rfl
  · rfl

theorem xmlApplist_length (unwritten : Nat → CString) (document : Document) (list : AppList)
    (read : (xmlApplist unwritten document).result = .ok list) :
    list.apps.length = document.events.countP (opens "App".toList) := by
  unfold xmlApplist at read
  cases ended : document.error with
  | some error =>
      rw [ended] at read
      cases read
  | none =>
      rw [ended] at read
      cases read
      rw [items_length startApplistElement_length (endApplistElement_length unwritten)]
      exact Nat.zero_add _

end MoonlightWii.Gamestream.XmlLists
