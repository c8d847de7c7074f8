import MoonlightWii.Gamestream.Xml

/-!
# What a search finds in a document (`xml_search_ex` in `xml.c`)

`start` is the number of open elements with the name that is searched for, and
`write_cdata` collects the text while there is one.
-/

set_option autoImplicit false

namespace MoonlightWii.Gamestream.SearchedText

open Foundation.NestedMarkup
open MoonlightWii.Gamestream.Errors
open MoonlightWii.Gamestream.Xml

/-- All text inside the elements of this name, in document order. -/
def searchedText (node : CString) (content : XmlContent) : CString :=
  content.lettersInside (fun label => decide (label.1 = node)) false

/-- What the search returns for a document with this text inside such elements. -/
def searchResult (node : CString) (required : Bool) (text : CString) :
    Reported (Except Int CString) :=
  if required = true ∧ text = [] then
    ⟨.error gsInvalid, some (gsSetError gsInvalid
      ("Cant find value for `".toList ++ node ++ "`".toList))⟩
  else
    ⟨.ok text, none⟩

section Search

variable {node : CString}

theorem searchEvent_merges : Merges xmlMarkup (searchEvent node) := by
  intro search first second
  change searchEvent node (searchEvent node search (.characterData first))
    (.characterData second) = searchEvent node search (.characterData (first ++ second))
  by_cases outside : search.start ≤ 0
  · simp only [searchEvent, if_pos outside]
  · simp only [searchEvent, if_neg outside, Option.getD_some, List.append_assoc]

/-- `memory` after text was written, if there was any. -/
def extended (memory : Option CString) : CString → Option CString
  | [] => memory
  | first :: rest => some (memory.getD [] ++ first :: rest)

theorem extended_append (memory : Option CString) (first second : CString) :
    extended (extended memory first) second = extended memory (first ++ second) := by
  cases first with
  | nil => rfl
  | cons a first =>
      cases second with
      | nil => rw [List.append_nil]; rfl
      | cons b second => simp only [extended, Option.getD_some, List.append_assoc, List.cons_append]

theorem foldl_text (memory : Option CString) (start : Int) (text : CString) :
    (dataEvents xmlMarkup text).foldl (searchEvent node) ⟨memory, start⟩ =
      ⟨extended memory (if 0 < start then text else []), start⟩ := by
  cases text with
  | nil => rw [ite_self]; rfl
  | cons first rest =>
      change searchEvent node ⟨memory, start⟩ (.characterData (first :: rest)) = _
      by_cases inside : 0 < start
      · rw [if_pos inside]
        exact if_neg (Int.not_le.mpr inside)
      · rw [if_neg inside]
        exact if_pos (Int.not_lt.mp inside)

/-- A whole content leaves the number of open elements as it was. -/
theorem foldl_content (content : XmlContent) (memory : Option CString) (start : Int)
    (counted : 0 ≤ start) :
    (content.events xmlMarkup).foldl (searchEvent node) ⟨memory, start⟩ =
      ⟨extended memory (content.lettersInside (fun label => decide (label.1 = node))
        (decide (0 < start))), start⟩ := by
  induction content generalizing memory start with
  | nil => rfl
  | text letters rest ih =>
      rw [Content.events, List.foldl_append, foldl_text, ih _ start counted, extended_append]
      simp only [Content.lettersInside, decide_eq_true_eq]
  | element label inner rest ih_inner ih_rest =>
      rw [Content.events, List.foldl_cons, List.foldl_append, List.foldl_cons]
      by_cases searched : label.1 = node
      · have entered : searchEvent node ⟨memory, start⟩ (xmlMarkup.start label) =
            ⟨memory, start + 1⟩ := if_pos searched
        have left (found : Option CString) : searchEvent node ⟨found, start + 1⟩
            (xmlMarkup.stop label) = ⟨found, start⟩ := by
          have back : start + 1 - 1 = start := by omega
          change (if label.1 = node then XmlQuery.mk found (start + 1 - 1) else _) = _
          rw [if_pos searched, back]
        have inside : 0 < start + 1 := by omega
        rw [entered, ih_inner memory (start + 1) (by omega), left, ih_rest _ start counted,
          extended_append]
        simp only [Content.lettersInside, searched, inside, decide_true, Bool.or_true]
      · have entered : searchEvent node ⟨memory, start⟩ (xmlMarkup.start label) =
            ⟨memory, start⟩ := if_neg searched
        have left (found : Option CString) : searchEvent node ⟨found, start⟩
            (xmlMarkup.stop label) = ⟨found, start⟩ := if_neg searched
        rw [entered, ih_inner memory start counted, left, ih_rest _ start counted,
          extended_append]
        simp only [Content.lettersInside, searched, decide_false, Bool.or_false]

theorem xmlSearchEx_result {content : XmlContent} {events : List XmlEvent}
    (delivered : Delivers xmlMarkup content events) (required : Bool) :
    xmlSearchEx ⟨events, none⟩ node required =
      searchResult node required (searchedText node content) := by
  have found : events.foldl (searchEvent node) ⟨if required then none else some [], 0⟩ =
      ⟨extended (if required then none else some []) (searchedText node content), 0⟩ := by
    rw [foldl_delivers searchEvent_merges delivered]
    exact foldl_content content _ 0 (Int.le_refl 0)
  unfold xmlSearchEx searchResult
  simp only [found]
  cases required with
  | false =>
      rw [if_neg (by simp)]
      cases searchedText node content with
      | nil => rfl
      | cons first rest => rfl
  | true =>
      cases searchedText node content with
      | nil => rfl
      | cons first rest => rfl

end Search

/-- A search returns the text inside the elements of the name, however it was cut. -/
theorem searches_return_text (content : XmlContent) (events : List XmlEvent)
    (delivered : Delivers xmlMarkup content events) (node : CString) :
    (∀ required, xmlSearchEx ⟨events, none⟩ node required =
        searchResult node required (searchedText node content)) ∧
      xmlSearch ⟨events, none⟩ node = ⟨.ok (searchedText node content), none⟩ := by
  constructor
  · exact fun required => xmlSearchEx_result delivered required
  · exact xmlSearchEx_result delivered false

/-- `<root>no<a>1<a>23</a></a></root>` -/
def nestedContent : XmlContent :=
  .element ("root".toList, [])
    (.text "no".toList
      (.element ("a".toList, [])
        (.text "1".toList (.element ("a".toList, []) (.text "23".toList .nil) .nil)) .nil))
    .nil

def nestedEvents : List XmlEvent :=
  [.startElement "root".toList [], .characterData "n".toList, .characterData "o".toList,
    .startElement "a".toList [], .characterData "1".toList, .startElement "a".toList [],
    .characterData "2".toList, .characterData "3".toList, .endElement "a".toList,
    .endElement "a".toList, .endElement "root".toList]

theorem nested_delivered : Delivers xmlMarkup nestedContent nestedEvents :=
  .element
    (.text ["n".toList, "o".toList] rfl (by simp)
      (.element
        (.text ["1".toList] rfl (by simp)
          (.element (.text ["2".toList, "3".toList] rfl (by simp) .nil) .nil)) .nil)) .nil

theorem nested_search_returns_text :
    xmlSearchEx ⟨nestedEvents, none⟩ "a".toList true = ⟨.ok "123".toList, none⟩ :=
  (searches_return_text nestedContent nestedEvents nested_delivered "a".toList).1 true

end MoonlightWii.Gamestream.SearchedText
