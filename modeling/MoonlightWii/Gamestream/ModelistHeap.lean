import Mathlib.Data.List.Forall2
import MoonlightWii.Gamestream.ModelistDocument

/-!
# Display modes and the heap (`xml_modelist` in `xml.c`)

An empty field of a mode is read from memory that was never written.  What is found there
stays in the list exactly when no later field of the mode replaces it.
-/

set_option autoImplicit false

namespace MoonlightWii.Gamestream.ModelistHeap

open Foundation.NestedMarkup
open MoonlightWii.Gamestream.Errors
open MoonlightWii.Gamestream.ModelistDocument
open MoonlightWii.Gamestream.Request
open MoonlightWii.Gamestream.Xml
open MoonlightWii.Gamestream.XmlLists

/-- The list with an empty text for every field that is empty. -/
def writtenModes (content : XmlContent) : List DisplayMode :=
  ((stretches (marks content)).map Stretch.mode).reverse

/-- The texts for one field, in document order. -/
def fieldTexts (readings : List Reading) (field : Field) : List CString :=
  readings.filterMap (Reading.textFor field)

/-- In each stretch the last field of every name, if there is one, is not empty. -/
def LastWritten (content : XmlContent) : Prop :=
  ∀ stretch ∈ stretches (marks content), ∀ field,
    (fieldTexts stretch.readings field).getLast? ≠ some []

instance (content : XmlContent) : Decidable (LastWritten content) :=
  inferInstanceAs (Decidable (∀ stretch ∈ stretches (marks content), ∀ field,
    (fieldTexts stretch.readings field).getLast? ≠ some []))

section Heap

variable (unwritten : Nat → CString)

/-! ## What is read of a document -/

/-- What is read of a text: the text, or the heap where nothing was written. -/
def HeardText (text heard : CString) : Prop :=
  if text = [] then ∃ block, heard = unwritten block else heard = text

inductive Heard : Mark → Mark → Prop
  | mode (inner : XmlContent) : Heard (.mode inner) (.mode inner)
  | field (field : Field) {text heard : CString} (read : HeardText unwritten text heard) :
      Heard (.field field text) (.field field heard)

/-- The list after the events is that of the marks, as they are read. -/
def Told (query after : ListQuery DisplayMode) (marks : List Mark) : Prop :=
  ∃ heard, List.Forall₂ (Heard unwritten) marks heard ∧
    after.items = heard.foldl applyMark query.items

variable {unwritten}

theorem told_nil {query after : ListQuery DisplayMode} (same : after.items = query.items) :
    Told unwritten query after [] :=
  ⟨[], .nil, same⟩

theorem told_append {query mid after : ListQuery DisplayMode} {first second : List Mark}
    (one : Told unwritten query mid first) (other : Told unwritten mid after second) :
    Told unwritten query after (first ++ second) := by
  obtain ⟨firstHeard, firstRead, midItems⟩ := one
  obtain ⟨secondHeard, secondRead, items⟩ := other
  refine ⟨firstHeard ++ secondHeard, List.rel_append firstRead secondRead, ?_⟩
  rw [List.foldl_append, ← midItems, items]

variable (unwritten)

theorem told_field (query : ListQuery DisplayMode) {label : CString × List (CString × CString)}
    {field : Field} (word : label.1 = field.word) {inner : XmlContent}
    (plain : inner.textOnly = true) :
    Told unwritten query (trace unwritten query
      (xmlMarkup.start label :: (inner.events xmlMarkup ++ [xmlMarkup.stop label]))).query
      [.field field inner.letters] := by
  obtain ⟨items, blocks, memory, start⟩ := query
  have read : HeardText unwritten inner.letters
      ((Reading.mk field inner.letters).written.getD (unwritten blocks.length)) := by
    unfold HeardText Reading.written
    by_cases empty : inner.letters = []
    · rw [if_pos empty]
      exact ⟨blocks.length, by simp only [empty, if_true]; rfl⟩
    · rw [if_neg empty]
      simp only [empty, if_false, Option.getD_some]
  refine ⟨[.field field _], .cons (.field field read) .nil, ?_⟩
  cases items with
  | nil =>
      -- before the first mode a field has no effect
      have ran := ran_field unwritten ⟨[], blocks, memory, start⟩ word plain
      have clean : none ∉ (trace unwritten ⟨[], blocks, memory, start⟩ (xmlMarkup.start label ::
          (inner.events xmlMarkup ++ [xmlMarkup.stop label]))).reads := by
        rw [ran.reads]
        exact List.not_mem_nil
      exact ran.items clean
  | cons mode older =>
      obtain ⟨after, traced, items⟩ :=
        trace_field unwritten word plain mode older blocks memory start
      rw [traced]
      exact items

theorem told_element (query : ListQuery DisplayMode)
    (label : CString × List (CString × CString)) (inner : XmlContent)
    (told_inner : ∀ query, Told unwritten query
      (trace unwritten query (inner.events xmlMarkup)).query (marks inner)) :
    Told unwritten query (trace unwritten query
      (xmlMarkup.start label :: (inner.events xmlMarkup ++ [xmlMarkup.stop label]))).query
      (elementMarks label.1 inner ++ marks inner) := by
  unfold elementMarks
  by_cases mode : label.1 = "DisplayMode".toList
  · have other : fieldOf label.1 = none := by
      rw [mode]
      rfl
    have started : Told unwritten query (trace unwritten query [xmlMarkup.start label]).query
        [.mode inner] :=
      ⟨_, .cons (.mode inner) .nil,
        (ran_start_mode unwritten query mode).items List.not_mem_nil⟩
    rw [if_pos mode, trace_element]
    obtain ⟨heard, read, items⟩ := told_append started (told_inner _)
    exact ⟨heard, read, (end_other unwritten other _).1.trans items⟩
  · rw [if_neg mode]
    have started : Told unwritten query (trace unwritten query [xmlMarkup.start label]).query [] :=
      told_nil ((ran_start_other unwritten query mode).items List.not_mem_nil)
    obtain ⟨heard, read, items⟩ := told_append started (told_inner _)
    cases known : fieldOf label.1 with
    | none =>
        rw [trace_element]
        exact ⟨heard, read, (end_other unwritten known _).1.trans items⟩
    | some field =>
        cases plain : inner.textOnly with
        | true =>
            rw [marks_textOnly plain]
            exact told_field unwritten query (fieldOf_eq_some known) plain
        | false =>
            have settled := (ran_content unwritten inner
              (trace unwritten query [xmlMarkup.start label]).query).2 plain
            rw [trace_element]
            exact ⟨heard, read,
              (congrArg ListQuery.items (end_idle unwritten settled label.1).1).trans items⟩

/-- Whatever the heap holds, the list is that of the marks of the content, as they are read. -/
theorem told_content (content : XmlContent) (query : ListQuery DisplayMode) :
    Told unwritten query (trace unwritten query (content.events xmlMarkup)).query
      (marks content) := by
  induction content generalizing query with
  | nil => exact told_nil rfl
  | text letters rest ih =>
      have written : Told unwritten query
          (trace unwritten query (dataEvents xmlMarkup letters)).query [] := by
        cases letters with
        | nil => exact told_nil rfl
        | cons first later => exact told_nil (writeCdata_items query (first :: later))
      rw [Content.events, trace_append]
      exact told_append written (ih _)
  | element label inner rest ih_inner ih_rest =>
      have split : Content.events xmlMarkup (.element label inner rest) =
          (xmlMarkup.start label :: (inner.events xmlMarkup ++ [xmlMarkup.stop label])) ++
            rest.events xmlMarkup := by
        rw [Content.events, List.cons_append, List.append_assoc]
        rfl
      rw [split, trace_append, marks, ← List.append_assoc]
      exact told_append (told_element unwritten query label inner ih_inner) (ih_rest _)

/-! ## The fields of one mode -/

def HeardReading (reading heard : Reading) : Prop :=
  heard.field = reading.field ∧ HeardText unwritten reading.text heard.text

def HeardStretch (stretch heard : Stretch) : Prop :=
  List.Forall₂ (HeardReading unwritten) stretch.readings heard.readings

variable {unwritten}

theorem heard_leading {marks heard : List Mark}
    (read : List.Forall₂ (Heard unwritten) marks heard) :
    List.Forall₂ (HeardReading unwritten) (leading marks) (leading heard) := by
  induction read with
  | nil => exact .nil
  | cons first rest ih =>
      cases first with
      | mode inner => exact .nil
      | field field text => exact .cons ⟨rfl, text⟩ ih

theorem heard_stretches {marks heard : List Mark}
    (read : List.Forall₂ (Heard unwritten) marks heard) :
    List.Forall₂ (HeardStretch unwritten) (stretches marks) (stretches heard) := by
  induction read with
  | nil => exact .nil
  | cons first rest ih =>
      cases first with
      | mode inner => exact .cons (heard_leading rest) ih
      | field field text => exact ih

theorem heard_texts {readings heard : List Reading}
    (read : List.Forall₂ (HeardReading unwritten) readings heard) (field : Field) :
    List.Forall₂ (HeardText unwritten) (fieldTexts readings field) (fieldTexts heard field) := by
  induction read with
  | nil => exact .nil
  | @cons reading heardReading readings heard first rest ih =>
      obtain ⟨same, text⟩ := first
      unfold fieldTexts
      by_cases wanted : reading.field = field
      · have one : reading.textFor field = some reading.text := if_pos wanted
        have other : heardReading.textFor field = some heardReading.text :=
          if_pos (same.trans wanted)
        rw [List.filterMap_cons_some one, List.filterMap_cons_some other]
        exact .cons text ih
      · have one : reading.textFor field = none := if_neg wanted
        have other : heardReading.textFor field = none := by
          rw [Reading.textFor, same, if_neg wanted]
        rw [List.filterMap_cons_none one, List.filterMap_cons_none other]
        exact ih

/-- The last text is heard as it stands, or from the heap. -/
theorem heard_last {texts heard : List CString}
    (read : List.Forall₂ (HeardText unwritten) texts heard) :
    match texts.getLast? with
    | none => heard.getLast? = none
    | some [] => ∃ block, heard.getLast? = some (unwritten block)
    | some text => heard.getLast? = some text := by
  have backwards := List.forall₂_reverse_iff.mpr read
  rw [List.getLast?_eq_head?_reverse, List.getLast?_eq_head?_reverse]
  generalize texts.reverse = newest at backwards ⊢
  generalize heard.reverse = newestHeard at backwards ⊢
  cases backwards with
  | nil => rfl
  | @cons text heardText _ _ first rest =>
      cases text with
      | nil =>
          obtain ⟨block, rfl⟩ := first
          exact ⟨block, rfl⟩
      | cons letter letters => exact congrArg some first

theorem heard_value_kept {stretch heard : Stretch} (read : HeardStretch unwritten stretch heard)
    {field : Field} (written : (fieldTexts stretch.readings field).getLast? ≠ some []) :
    field.value heard.mode = field.value stretch.mode := by
  have last := heard_last (heard_texts read field)
  have same : (fieldTexts heard.readings field).getLast? =
      (fieldTexts stretch.readings field).getLast? := by
    cases ended : (fieldTexts stretch.readings field).getLast? with
    | none =>
        rw [ended] at last
        exact last
    | some text =>
        rw [ended] at last written
        cases text with
        | nil => exact absurd rfl written
        | cons letter letters => exact last
  rw [stretch_value, stretch_value]
  exact congrArg (fun last => number (last.getD [])) same

theorem heard_value_heap {stretch heard : Stretch} (read : HeardStretch unwritten stretch heard)
    {field : Field} (empty : (fieldTexts stretch.readings field).getLast? = some []) :
    field.value stretch.mode = 0 ∧ ∃ block, field.value heard.mode = number (unwritten block) := by
  have last := heard_last (heard_texts read field)
  rw [empty] at last
  obtain ⟨block, heard_from⟩ := last
  rw [stretch_value, stretch_value]
  exact ⟨congrArg (fun last => number (last.getD [])) empty, block,
    congrArg (fun last => number (last.getD [])) heard_from⟩

theorem mode_ext {first second : DisplayMode}
    (same : ∀ field : Field, field.value first = field.value second) : first = second := by
  obtain ⟨width, height, refresh⟩ := Field.forall_iff.mp same
  cases first
  cases second
  cases width
  cases height
  cases refresh
  rfl

end Heap

/-! ## The list of a document -/

section Document

variable {content : XmlContent} {events : List XmlEvent}

theorem heard_modelist (delivered : Delivers xmlMarkup content events)
    (unwritten : Nat → CString) :
    ∃ heard, List.Forall₂ (HeardStretch unwritten) (stretches (marks content)) heard ∧
      (xmlModelist unwritten ⟨events, none⟩).result = .ok (heard.map Stretch.mode).reverse := by
  have canonical : trace unwritten emptyQuery events =
      trace unwritten emptyQuery (content.events xmlMarkup) :=
    foldl_delivers (tracedEvent_merges unwritten) delivered ⟨emptyQuery, []⟩
  obtain ⟨heard, read, items⟩ := told_content unwritten content emptyQuery
  refine ⟨stretches heard, heard_stretches read, ?_⟩
  rw [xmlModelist_items, canonical, items]
  exact congrArg Except.ok (foldl_marks heard)

theorem map_of_forall₂ {α β : Type} {related : α → α → Prop} {value : α → β} {first second : List α}
    (all : List.Forall₂ related first second)
    (same : ∀ a ∈ first, ∀ b, related a b → value b = value a) :
    second.map value = first.map value := by
  induction all with
  | nil => rfl
  | cons here rest ih =>
      rw [List.map_cons, List.map_cons, same _ List.mem_cons_self _ here,
        ih fun a member => same a (List.mem_cons_of_mem _ member)]

theorem forall₂_of_map {α β : Type} {related : α → α → Prop} {value : α → β} {first second : List α}
    (all : List.Forall₂ related first second) (same : second.map value = first.map value)
    {a : α} (member : a ∈ first) : ∃ b, related a b ∧ value b = value a := by
  induction all with
  | nil => exact absurd member List.not_mem_nil
  | @cons here there _ _ now _ ih =>
      obtain ⟨head, tail⟩ := List.cons.inj same
      cases member with
      | head => exact ⟨there, now, head⟩
      | tail _ later => exact ih tail later

/-- The list does not depend on the heap exactly when the last field of each name in every
mode was written. -/
theorem modelist_written_iff (delivered : Delivers xmlMarkup content events) :
    (∀ unwritten, (xmlModelist unwritten ⟨events, none⟩).result = .ok (writtenModes content)) ↔
      LastWritten content := by
  constructor
  · intro same stretch stretched field empty
    -- a heap that holds a one everywhere
    obtain ⟨heard, read, result⟩ := heard_modelist delivered fun _ => "1".toList
    rw [same, Except.ok.injEq, writtenModes, List.reverse_inj] at result
    obtain ⟨mode, heardMode, equal⟩ := forall₂_of_map read result.symm stretched
    obtain ⟨zero, block, one⟩ := heard_value_heap heardMode empty
    rw [equal, zero] at one
    exact absurd one (by decide)
  · intro written unwritten
    obtain ⟨heard, read, result⟩ := heard_modelist delivered unwritten
    rw [result, writtenModes]
    refine congrArg (fun modes => Except.ok (List.reverse modes)) (map_of_forall₂ read ?_)
    intro stretch stretched heardStretch heardHere
    exact mode_ext fun field => heard_value_kept heardHere (written stretch stretched field)

end Document

end MoonlightWii.Gamestream.ModelistHeap
