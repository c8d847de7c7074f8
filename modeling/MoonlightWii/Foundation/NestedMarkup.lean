import Mathlib.Logic.Basic

/-!
# Nested markup as a stream of events

A parser delivers the content of a document as events: the start and the end of every
element, and the text between them in any number of pieces.  A reader that takes two
pieces in a row as it takes them in one does not depend on where the text was cut.
-/

set_option autoImplicit false

namespace Foundation.NestedMarkup

structure Markup (Label Letter Event : Type) where
  start : Label → Event
  stop : Label → Event
  data : List Letter → Event

inductive Content (Label Letter : Type) where
  | nil
  | text (letters : List Letter) (rest : Content Label Letter)
  | element (label : Label) (inner rest : Content Label Letter)

section Reading

variable {Label Letter Event State : Type}

namespace Content

def letters : Content Label Letter → List Letter
  | nil => []
  | text letters rest => letters ++ rest.letters
  | element _ inner rest => inner.letters ++ rest.letters

def textOnly : Content Label Letter → Bool
  | nil => true
  | text _ rest => rest.textOnly
  | element _ _ _ => false

/-- The letters that lie in a marked element; `inside` says that the whole content does. -/
def lettersInside (marked : Label → Bool) : Bool → Content Label Letter → List Letter
  | _, nil => []
  | inside, text letters rest =>
      (if inside then letters else []) ++ lettersInside marked inside rest
  | inside, element label inner rest =>
      lettersInside marked (inside || marked label) inner ++ lettersInside marked inside rest

/-- The contents of the elements with such a label, without those further inside. -/
def children (marked : Label → Bool) : Content Label Letter → List (Content Label Letter)
  | nil => []
  | text _ rest => rest.children marked
  | element label inner rest =>
      if marked label then inner :: rest.children marked else rest.children marked

end Content

variable (markup : Markup Label Letter Event)

/-- There is no event for a text without letters. -/
def dataEvents : List Letter → List Event
  | [] => []
  | first :: rest => [markup.data (first :: rest)]

/-- The events when no text is cut. -/
def Content.events : Content Label Letter → List Event
  | .nil => []
  | .text letters rest => dataEvents markup letters ++ rest.events
  | .element label inner rest =>
      markup.start label :: (inner.events ++ markup.stop label :: rest.events)

/-- The events, with every text cut into pieces, none of them empty. -/
inductive Delivers : Content Label Letter → List Event → Prop where
  | nil : Delivers .nil []
  | text {letters : List Letter} {rest : Content Label Letter} {events : List Event}
      (chunks : List (List Letter)) (whole : chunks.flatten = letters)
      (filled : ∀ chunk ∈ chunks, chunk ≠ []) (after : Delivers rest events) :
      Delivers (.text letters rest) (chunks.map markup.data ++ events)
  | element {label : Label} {inner rest : Content Label Letter} {within after : List Event}
      (opened : Delivers inner within) (closed : Delivers rest after) :
      Delivers (.element label inner rest)
        (markup.start label :: (within ++ markup.stop label :: after))

theorem events_delivered (content : Content Label Letter) :
    Delivers markup content (content.events markup) := by
  induction content with
  | nil => exact .nil
  | text letters rest ih =>
      cases letters with
      | nil => exact .text [] rfl (by simp) ih
      | cons first later => exact .text [first :: later] (List.append_nil _) (by simp) ih
  | element label inner rest ih_inner ih_rest => exact .element ih_inner ih_rest

/-- Two pieces of text in a row are read as one. -/
def Merges (step : State → Event → State) : Prop :=
  ∀ (state : State) (first second : List Letter),
    step (step state (markup.data first)) (markup.data second) =
      step state (markup.data (first ++ second))

variable {markup} {step : State → Event → State}

theorem dataEvents_of_ne {letters : List Letter} (filled : letters ≠ []) :
    dataEvents markup letters = [markup.data letters] := by
  cases letters with
  | nil => exact absurd rfl filled
  | cons first rest => rfl

theorem foldl_dataEvents_append (merges : Merges markup step) (state : State)
    (first second : List Letter) :
    (dataEvents markup first ++ dataEvents markup second).foldl step state =
      (dataEvents markup (first ++ second)).foldl step state := by
  cases first with
  | nil => rfl
  | cons a first =>
      cases second with
      | nil => rw [List.append_nil, dataEvents, List.append_nil]
      | cons b second => exact merges state (a :: first) (b :: second)

theorem foldl_chunks (merges : Merges markup step) (chunks : List (List Letter))
    (filled : ∀ chunk ∈ chunks, chunk ≠ []) (state : State) :
    (chunks.map markup.data).foldl step state =
      (dataEvents markup chunks.flatten).foldl step state := by
  induction chunks generalizing state with
  | nil => rfl
  | cons chunk chunks ih =>
      obtain ⟨first, later⟩ := List.forall_mem_cons.mp filled
      rw [List.map_cons, List.foldl_cons, ih later, List.flatten_cons,
        ← foldl_dataEvents_append merges, dataEvents_of_ne first]
      rfl

/-- It does not matter how the text was cut. -/
theorem foldl_delivers (merges : Merges markup step) {content : Content Label Letter}
    {events : List Event} (delivered : Delivers markup content events) (state : State) :
    events.foldl step state = (content.events markup).foldl step state := by
  induction delivered generalizing state with
  | nil => rfl
  | text chunks whole filled _ ih =>
      rw [Content.events, List.foldl_append, List.foldl_append, ih,
        foldl_chunks merges chunks filled, whole]
  | element _ _ ih_inner ih_rest =>
      rw [Content.events, List.foldl_cons, List.foldl_cons, List.foldl_append, List.foldl_append,
        List.foldl_cons, List.foldl_cons, ih_inner, ih_rest]

/-- Text without an element is read as one piece. -/
theorem foldl_textOnly (merges : Merges markup step) {content : Content Label Letter}
    (plain : content.textOnly = true) (state : State) :
    (content.events markup).foldl step state =
      (dataEvents markup content.letters).foldl step state := by
  induction content generalizing state with
  | nil => rfl
  | text letters rest ih =>
      rw [Content.events, Content.letters, ← foldl_dataEvents_append merges, List.foldl_append,
        List.foldl_append, ih plain]
  | element label inner rest _ _ => cases plain

end Reading

end Foundation.NestedMarkup
