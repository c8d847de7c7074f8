import MoonlightWii.Foundation.NestedMarkup
import MoonlightWii.Gamestream.Errors

/-!
# Reading host documents (`xml.c`)

Expat is external: a document is the sequence of events that it delivers, and the
error that stopped it, if one did.  Memory allocation succeeds.
-/

set_option autoImplicit false

namespace MoonlightWii.Gamestream.Xml

open Foundation.NestedMarkup
open MoonlightWii.Gamestream.Errors

inductive XmlEvent where
  | startElement (name : CString) (atts : List (CString × CString))
  | endElement (name : CString)
  | characterData (text : CString)

/-- The label of an element is its name and its attributes. -/
abbrev XmlContent := Content (CString × List (CString × CString)) Char

def xmlMarkup : Markup (CString × List (CString × CString)) Char XmlEvent where
  start label := .startElement label.1 label.2
  stop label := .endElement label.1
  data text := .characterData text

structure ParseError where
  code : Int
  text : CString

structure Document where
  events : List XmlEvent
  error : Option ParseError

/-- A result, and the error that was recorded on the way to it. -/
structure Reported (α : Type) where
  result : α
  recorded : Option GsError

def xmlError (error : ParseError) : GsError :=
  gsSetError gsInvalid
    ("XML error ".toList ++ decimal error.code ++ ": ".toList ++ error.text)

/-! ## `xml_status` -/

def statusOk : Int := 200

def statusAttribute (status : Reported Int) (att : CString × CString) : Reported Int :=
  if att.1 = "status_code".toList then
    { status with result := atoi att.2 }
  else if status.result ≠ statusOk ∧ att.1 = "status_message".toList then
    { status with
      recorded := some (gsSetError gsFailed
        ("Bad status ".toList ++ decimal status.result ++ ": ".toList ++ att.2)) }
  else
    status

def statusEvent (status : Reported Int) : XmlEvent → Reported Int
  | .startElement name atts =>
      if name = "root".toList then atts.foldl statusAttribute status else status
  | .endElement _ => status
  | .characterData _ => status

def statusCode (document : Document) : Int :=
  (document.events.foldl statusEvent ⟨0, none⟩).result

def xmlStatus (document : Document) : Reported Int :=
  let status := document.events.foldl statusEvent ⟨0, none⟩
  match document.error with
  | some error => ⟨gsInvalid, some (xmlError error)⟩
  | none => { status with result := if status.result = statusOk then gsOk else gsError }

/-! ## `xml_search` -/

/-- `struct xml_query`, with `size` the length of `memory`. -/
structure XmlQuery where
  memory : Option CString
  start : Int

def searchEvent (node : CString) (search : XmlQuery) : XmlEvent → XmlQuery
  | .startElement name _ =>
      if name = node then { search with start := search.start + 1 } else search
  | .endElement name =>
      if name = node then { search with start := search.start - 1 } else search
  | .characterData text =>
      if search.start ≤ 0 then search
      else { search with memory := some (search.memory.getD [] ++ text) }

def xmlSearchEx (document : Document) (node : CString) (required : Bool) :
    Reported (Except Int CString) :=
  let search := document.events.foldl (searchEvent node)
    ⟨if required then none else some [], 0⟩
  match document.error with
  | some error => ⟨.error gsInvalid, some (xmlError error)⟩
  | none =>
      match search.memory with
      | some value => ⟨.ok value, none⟩
      | none =>
          ⟨.error gsInvalid, some (gsSetError gsInvalid
            ("Cant find value for `".toList ++ node ++ "`".toList))⟩

def xmlSearch (document : Document) (node : CString) : Reported (Except Int CString) :=
  xmlSearchEx document node false

/-! ## The codes that the parsers return -/

theorem xmlStatus_cases (document : Document) :
    (xmlStatus document).result = gsOk ∨ (xmlStatus document).result = gsError ∨
      (xmlStatus document).result = gsInvalid := by
  unfold xmlStatus
  cases document.error with
  | some error => exact .inr (.inr rfl)
  | none =>
      simp only
      split
      · exact .inl rfl
      · exact .inr (.inl rfl)

theorem xmlStatus_ok_iff (document : Document) :
    (xmlStatus document).result = gsOk ↔
      document.error = none ∧ statusCode document = statusOk := by
  unfold xmlStatus statusCode
  cases document.error with
  | some error => simp [gsInvalid, gsOk]
  | none =>
      simp only [true_and]
      split
      · rename_i accepted
        simp [accepted]
      · rename_i refused
        simp [refused, gsError, gsOk]

/-- A failed search returns `GS_INVALID`. -/
theorem xmlSearchEx_error (document : Document) (node : CString) (required : Bool) (code : Int)
    (failed : (xmlSearchEx document node required).result = .error code) : code = gsInvalid := by
  unfold xmlSearchEx at failed
  cases ended : document.error with
  | some error =>
      simp only [ended, Except.error.injEq] at failed
      exact failed.symm
  | none =>
      simp only [ended] at failed
      cases memory : (document.events.foldl (searchEvent node)
          ⟨if required then none else some [], 0⟩).memory with
      | some value => simp [memory] at failed
      | none =>
          simp only [memory, Except.error.injEq] at failed
          exact failed.symm

end MoonlightWii.Gamestream.Xml
