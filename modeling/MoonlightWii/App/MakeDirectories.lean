import MoonlightWii.Foundation.DirectoryTree
import MoonlightWii.Gamestream.Errors

/-!
# Making a directory with its parents (`config.c`, `conf.c`)

`wii_mkdirs` and `mkdirtree` walk over a copy of the path and call `mkdir` on its
beginnings.  `wii_mkdirs` cuts the path before every separator, also before one at the
front; `mkdirtree` steps over a character before it looks for the next separator.
-/

set_option autoImplicit false

namespace MoonlightWii.App.MakeDirectories

open Foundation.DirectoryTree
open MoonlightWii.Gamestream.Errors

abbrev Disk := FileSystem CString

/-! ## `mkdir` -/

def stepOf (word : CString) : Step CString :=
  if word = ".".toList then .here
  else if word = "..".toList then .up
  else .down word

/-- Two separators in a row have nothing between them. -/
def stepsOf (word : CString) : List (Step CString) := if word = [] then [] else [stepOf word]

def elementsFrom : CString → CString → List (Step CString)
  | word, [] => stepsOf word
  | word, c :: rest =>
      if c = '/' then stepsOf word ++ elementsFrom [] rest else elementsFrom (word ++ [c]) rest

/-- The steps of a path. -/
def elements (path : CString) : List (Step CString) := elementsFrom [] path

def isAbsolute (path : CString) : Bool := path.head? == some '/'

def pathStart (fs : Disk) (path : CString) : List CString := fs.start (isAbsolute path)

def mkdir (fs : Disk) (name : CString) : Except Errno Disk :=
  if name = [] then .error .enoent else mkdirAt fs (pathStart fs name) (elements name)

/-! ## The two functions -/

/-- The loop of `wii_mkdirs` and the call behind it; the path is cut at `p`. -/
def wiiMkdirsLoop : CString → CString → Disk → Int × Disk
  | done, [], fs =>
      match passOver fs (mkdir fs done) with
      | none => (-1, fs)
      | some made => (0, made)
  | done, c :: rest, fs =>
      if c = '/' then
        match passOver fs (mkdir fs done) with
        | none => (-1, fs)
        | some made => wiiMkdirsLoop (done ++ [c]) rest made
      else wiiMkdirsLoop (done ++ [c]) rest fs

def wiiMkdirs (pathMax : Nat) (path : CString) (fs : Disk) : Int × Disk :=
  wiiMkdirsLoop [] (path.take (pathMax - 1)) fs

/-- The loop of `mkdirtree`: one turn ends at the next separator behind the first character. -/
def mkdirtreeLoop (done rest : CString) (fs : Disk) : Int × Disk :=
  match rest with
  | [] => (0, fs)
  | c :: rest =>
      let buffer := done ++ c :: rest.takeWhile (· ≠ '/')
      match passOver fs (mkdir fs buffer) with
      | none => (-1, fs)
      | some made => mkdirtreeLoop buffer (rest.dropWhile (· ≠ '/')) made
termination_by rest.length
decreasing_by
  exact Nat.lt_succ_of_le (List.dropWhile_sublist _).length_le

def mkdirtree (pathMax : Nat) (directory : CString) (fs : Disk) : Int × Disk :=
  mkdirtreeLoop [] (directory.take (pathMax - 1)) fs

/-! ## The names that are made -/

/-- The beginnings of the path before each separator, and the path. -/
def cutNames : CString → CString → List CString
  | done, [] => [done]
  | done, c :: rest =>
      if c = '/' then done :: cutNames (done ++ [c]) rest else cutNames (done ++ [c]) rest

def makeNames : List CString → Disk → Int × Disk
  | [], fs => (0, fs)
  | name :: names, fs =>
      match passOver fs (mkdir fs name) with
      | none => (-1, fs)
      | some made => makeNames names made

theorem wiiMkdirsLoop_names (done rest : CString) (fs : Disk) :
    wiiMkdirsLoop done rest fs = makeNames (cutNames done rest) fs := by
  induction rest generalizing done fs with
  | nil =>
      simp only [wiiMkdirsLoop, cutNames, makeNames]
  | cons c rest ih =>
      by_cases separator : c = '/'
      · simp only [wiiMkdirsLoop, cutNames, makeNames, if_pos separator]
        cases passOver fs (mkdir fs done) with
        | none => rfl
        | some made => exact ih _ made
      · simp only [wiiMkdirsLoop, cutNames, if_neg separator]
        exact ih _ fs

/-- Characters before a separator only lengthen the first name. -/
theorem cutNames_word (done word rest : CString) (plain : ∀ char ∈ word, char ≠ '/') :
    cutNames done (word ++ rest) = cutNames (done ++ word) rest := by
  induction word generalizing done with
  | nil => rw [List.nil_append, List.append_nil]
  | cons c word ih =>
      rw [List.cons_append, cutNames, if_neg (plain c List.mem_cons_self),
        ih _ fun char member => plain char (List.mem_cons_of_mem c member), List.append_assoc]
      rfl

theorem mkdirtreeLoop_nil (done : CString) (fs : Disk) : mkdirtreeLoop done [] fs = (0, fs) := by
  rw [mkdirtreeLoop.eq_def]

theorem mkdirtreeLoop_names (done rest : CString) (c : Char) (fs : Disk) :
    mkdirtreeLoop done (c :: rest) fs = makeNames (cutNames (done ++ [c]) rest) fs := by
  induction rest using (measure List.length).wf.induction generalizing done c fs with
  | _ rest ih =>
  have plain : ∀ char ∈ rest.takeWhile (· ≠ '/'), char ≠ '/' :=
    fun char member => of_decide_eq_true (List.all_eq_true.mp List.all_takeWhile char member)
  have split : cutNames (done ++ [c]) rest =
      cutNames (done ++ c :: rest.takeWhile (· ≠ '/')) (rest.dropWhile (· ≠ '/')) := by
    have cut := cutNames_word (done ++ [c]) (rest.takeWhile (· ≠ '/')) (rest.dropWhile (· ≠ '/'))
      plain
    rw [List.takeWhile_append_dropWhile, List.append_assoc] at cut
    exact cut
  have shorter : (rest.dropWhile (· ≠ '/')).length ≤ rest.length :=
    (List.dropWhile_sublist _).length_le
  rw [mkdirtreeLoop, split]
  cases behind : rest.dropWhile (· ≠ '/') with
  | nil =>
      simp only [cutNames, makeNames]
      cases passOver fs (mkdir fs (done ++ c :: rest.takeWhile (· ≠ '/'))) with
      | none => rfl
      | some made => exact mkdirtreeLoop_nil _ made
  | cons separator later =>
      have slash : separator = '/' := by
        have stopped := @List.head_dropWhile_not _ (fun char : Char => decide (char ≠ '/')) rest
          (by rw [behind]; exact List.cons_ne_nil _ _)
        simp only [behind, List.head_cons, decide_eq_false_iff_not, not_not] at stopped
        exact stopped
      simp only [cutNames, makeNames, if_pos slash]
      cases passOver fs (mkdir fs (done ++ c :: rest.takeWhile (· ≠ '/'))) with
      | none => rfl
      | some made =>
          refine ih later ?_ _ separator made
          rw [behind] at shorter
          exact shorter

/-! ## The steps of the names -/

theorem elementsFrom_append (word first second : CString) :
    elementsFrom word (first ++ '/' :: second) = elementsFrom word first ++ elements second := by
  induction first generalizing word with
  | nil => simp only [List.nil_append, elementsFrom, if_true, elements]
  | cons c first ih =>
      by_cases separator : c = '/'
      · simp only [List.cons_append, elementsFrom, if_pos separator, ih, List.append_assoc]
      · simp only [List.cons_append, elementsFrom, if_neg separator, ih]

theorem elementsFrom_word (word more : CString) (plain : ∀ char ∈ more, char ≠ '/') :
    elementsFrom word more = stepsOf (word ++ more) := by
  induction more generalizing word with
  | nil => rw [elementsFrom, List.append_nil]
  | cons c more ih =>
      rw [elementsFrom, if_neg (plain c List.mem_cons_self),
        ih _ fun char member => plain char (List.mem_cons_of_mem c member), List.append_assoc]
      rfl

/-- A part of a path in front of an element: nothing, or a text that ends in a separator. -/
def Ended (done : CString) : Prop := done = [] ∨ ∃ before, done = before ++ ['/']

theorem elements_word {done word : CString} (ended : Ended done)
    (plain : ∀ char ∈ word, char ≠ '/') :
    elements (done ++ word) = elements done ++ stepsOf word := by
  rcases ended with rfl | ⟨before, rfl⟩
  · exact elementsFrom_word [] word plain
  · have one : elements (before ++ '/' :: word) = elements before ++ stepsOf word := by
      rw [elements, elementsFrom_append, elements, elements, elementsFrom_word [] word plain]
      rfl
    have none : elements (before ++ ['/']) = elements before := by
      rw [elements, elementsFrom_append]
      exact List.append_nil _
    rw [none, ← one, List.append_assoc]
    rfl

theorem grows_word (steps : List (Step CString)) (word : CString) :
    Grows steps (steps ++ stepsOf word) := by
  rw [stepsOf]
  split
  · exact .inl (List.append_nil _)
  · exact .inr ⟨_, rfl⟩

/-- Each name is as long as the one before it or one step longer, up to the whole path. -/
theorem cutNames_chain (done word rest : CString) (ended : Ended done)
    (plain : ∀ char ∈ word, char ≠ '/') :
    List.IsChain Grows (elements done :: (cutNames (done ++ word) rest).map elements) ∧
      (elements done :: (cutNames (done ++ word) rest).map elements).getLast
          (List.cons_ne_nil _ _) = elements (done ++ word ++ rest) := by
  induction rest generalizing done word with
  | nil =>
      rw [cutNames, List.map_singleton, elements_word ended plain, List.append_nil]
      refine ⟨List.isChain_cons_cons.mpr ⟨grows_word _ word, List.isChain_singleton _⟩, ?_⟩
      rw [elements_word ended plain]
      rfl
  | cons c rest ih =>
      by_cases separator : c = '/'
      · subst separator
        have next : Ended (done ++ word ++ ['/']) := .inr ⟨done ++ word, rfl⟩
        have later := ih (done ++ word ++ ['/']) [] next fun char absent => by cases absent
        have same : elements (done ++ word ++ ['/']) = elements (done ++ word) := by
          rw [elements, elementsFrom_append]
          exact List.append_nil _
        rw [List.append_nil, same] at later
        rw [cutNames, if_pos rfl, List.map_cons]
        refine ⟨List.isChain_cons_cons.mpr ⟨?_, later.1⟩, ?_⟩
        · rw [elements_word ended plain]
          exact grows_word _ word
        · rw [List.getLast_cons (List.cons_ne_nil _ _), later.2, List.append_assoc, List.append_assoc]
          simp
      · have longer : ∀ char ∈ word ++ [c], char ≠ '/' := by
          intro char member
          rcases List.mem_append.mp member with inside | last
          · exact plain char inside
          · rw [List.mem_singleton.mp last]
            exact separator
        have later := ih done (word ++ [c]) ended longer
        rw [← List.append_assoc] at later
        rw [cutNames, if_neg separator]
        refine ⟨later.1, later.2.trans ?_⟩
        simp

theorem cutNames_begin (done rest : CString) : ∀ name ∈ cutNames done rest, done <+: name := by
  induction rest generalizing done with
  | nil =>
      intro name member
      rw [List.mem_singleton.mp member]
  | cons c rest ih =>
      intro name member
      rw [cutNames] at member
      split at member
      · rcases List.mem_cons.mp member with same | later
        · rw [same]
        · exact (List.prefix_append done [c]).trans (ih _ name later)
      · exact (List.prefix_append done [c]).trans (ih _ name member)

/-- The names of one path are made from one start. -/
theorem makeNames_all {names : List CString} {absolute : Bool}
    (from_start : ∀ name ∈ names, name ≠ [] ∧ isAbsolute name = absolute) (fs : Disk) :
    makeNames names fs =
      (if (makeAll absolute (names.map elements) fs).1 then 0 else -1,
        (makeAll absolute (names.map elements) fs).2) := by
  induction names generalizing fs with
  | nil => rfl
  | cons name names ih =>
      obtain ⟨filled, start⟩ := from_start name List.mem_cons_self
      have made : mkdir fs name = mkdirAt fs (fs.start absolute) (elements name) := by
        rw [mkdir, if_neg filled, pathStart, start]
      rw [makeNames, made, List.map_cons, makeAll]
      cases passOver fs (mkdirAt fs (fs.start absolute) (elements name)) with
      | none => rfl
      | some later =>
          exact ih (fun other member => from_start other (List.mem_cons_of_mem name member)) later

/-! ## What they should do -/

/-- Both return the same, leave every beginning of the path a directory when they return 0,
and do so when no beginning is a regular file. -/
structure MakesParents (pathMax : Nat) (fs : Disk) (path : CString) : Prop where
  same : (wiiMkdirs pathMax path fs).1 = (mkdirtree pathMax path fs).1
  wiiMade : (wiiMkdirs pathMax path fs).1 = 0 →
    Reached (wiiMkdirs pathMax path fs).2 (pathStart fs path) (elements path)
  treeMade : (mkdirtree pathMax path fs).1 = 0 →
    Reached (mkdirtree pathMax path fs).2 (pathStart fs path) (elements path)
  clear : (∀ taken, taken <+: elements path → ¬ EndsInFile fs (pathStart fs path) taken) →
    (wiiMkdirs pathMax path fs).1 = 0 ∧ (mkdirtree pathMax path fs).1 = 0

section Whole

variable {pathMax : Nat} {fs : Disk}

theorem take_whole {path : CString} (short : path.length < pathMax) :
    path.take (pathMax - 1) = path := List.take_of_length_le (by omega)

/-- `mkdirtree` makes the beginnings of a path that is not empty. -/
theorem mkdirtree_run {c : Char} {rest : CString} (short : (c :: rest).length < pathMax) :
    ((mkdirtree pathMax (c :: rest) fs).1 = 0 ↔
        ¬ Blocked fs (pathStart fs (c :: rest)) (elements (c :: rest))) ∧
      ((mkdirtree pathMax (c :: rest) fs).1 = 0 →
        (Reached (mkdirtree pathMax (c :: rest) fs).2 (pathStart fs (c :: rest))
            (elements (c :: rest)) ↔
          ¬ EndsInFile fs (pathStart fs (c :: rest)) (elements (c :: rest)))) := by
  have from_start : ∀ name ∈ cutNames [c] rest,
      name ≠ [] ∧ isAbsolute name = isAbsolute (c :: rest) := by
    intro name member
    obtain ⟨more, known⟩ := cutNames_begin [c] rest name member
    rw [← known]
    exact ⟨List.cons_ne_nil _ _, rfl⟩
  have chain : List.IsChain Grows ([] :: (cutNames [c] rest).map elements) ∧
      ([] :: (cutNames [c] rest).map elements).getLast (List.cons_ne_nil _ _) =
        elements (c :: rest) := by
    by_cases separator : c = '/'
    · subst separator
      exact cutNames_chain ['/'] [] rest (.inr ⟨[], rfl⟩) fun char absent => by cases absent
    · refine cutNames_chain [] [c] rest (.inl rfl) fun char member => ?_
      rw [List.mem_singleton.mp member]
      exact separator
  have path := makeAll_path (isAbsolute (c :: rest)) fs _ _ chain.1 chain.2
  rw [mkdirtree, take_whole short, mkdirtreeLoop_names, List.nil_append,
    makeNames_all from_start]
  have zero (done : Bool) : (if done then (0 : Int) else -1) = 0 ↔ done = true := by
    cases done <;> decide
  rw [zero]
  exact path

theorem makeNames_code (names : List CString) (fs : Disk) :
    (makeNames names fs).1 = 0 ∨ (makeNames names fs).1 = -1 := by
  induction names generalizing fs with
  | nil => exact .inl rfl
  | cons name names ih =>
      rw [makeNames]
      cases passOver fs (mkdir fs name) with
      | none => exact .inr rfl
      | some made => exact ih made

/-- On a path that does not begin with a separator they do the same. -/
theorem wiiMkdirs_relative {c : Char} {rest : CString} (short : (c :: rest).length < pathMax)
    (relative : c ≠ '/') :
    wiiMkdirs pathMax (c :: rest) fs = mkdirtree pathMax (c :: rest) fs := by
  rw [wiiMkdirs, mkdirtree, take_whole short, wiiMkdirsLoop_names, mkdirtreeLoop_names, cutNames,
    if_neg relative]

/-- A separator at the front leaves an empty name, which cannot be made. -/
theorem wiiMkdirs_absolute {rest : CString} (short : ('/' :: rest).length < pathMax) :
    wiiMkdirs pathMax ('/' :: rest) fs = (-1, fs) := by
  rw [wiiMkdirs, take_whole short]
  rfl

theorem wiiMkdirs_empty : wiiMkdirs pathMax [] fs = (-1, fs) := by
  rw [wiiMkdirs, List.take_nil]
  rfl

theorem mkdirtree_empty : mkdirtree pathMax [] fs = (0, fs) := by
  rw [mkdirtree, List.take_nil, mkdirtreeLoop_nil]

end Whole

theorem not_blocked_nil (fs : Disk) (start : List CString) : ¬ Blocked fs start [] := by
  rintro ⟨taken, beginning, part, -⟩
  exact part (List.prefix_nil.mp beginning)

theorem clear_of_whole {fs : Disk} {start : List CString} {steps : List (Step CString)}
    (clear : ∀ taken, taken <+: steps → ¬ EndsInFile fs start taken) :
    ¬ Blocked fs start steps := by
  rintro ⟨taken, beginning, -, file⟩
  exact clear taken beginning file

/-- An absolute path fails in both only if a file is in the way. -/
theorem makesParents_of_absolute {pathMax : Nat} {fs : Disk} {rest : CString}
    (short : ('/' :: rest).length < pathMax) :
    MakesParents pathMax fs ('/' :: rest) ↔
      Blocked fs (pathStart fs ('/' :: rest)) (elements ('/' :: rest)) := by
  obtain ⟨succeeds, -⟩ := @mkdirtree_run pathMax fs '/' rest short
  have fails := @wiiMkdirs_absolute pathMax fs rest short
  constructor
  · intro makes
    by_contra open_path
    have same := makes.same
    rw [fails, succeeds.mpr open_path] at same
    exact absurd same (show (-1 : Int) ≠ 0 by decide)
  · intro blocked
    have stopped : (mkdirtree pathMax ('/' :: rest) fs).1 ≠ 0 :=
      fun zero => succeeds.mp zero blocked
    have code := makeNames_code (cutNames ['/'] rest) fs
    have run : mkdirtree pathMax ('/' :: rest) fs = makeNames (cutNames ['/'] rest) fs := by
      rw [mkdirtree, take_whole short, mkdirtreeLoop_names]
      rfl
    rw [← run] at code
    refine ⟨?_, ?_, fun zero => absurd zero stopped,
      fun clear => absurd blocked (clear_of_whole clear)⟩
    · rw [fails, code.resolve_left stopped]
    · rw [fails]
      exact fun zero => absurd zero (show (-1 : Int) ≠ 0 by decide)

/-- A relative path is made unless a file is in the way or at its end. -/
theorem makesParents_of_relative {pathMax : Nat} {fs : Disk} {c : Char} {rest : CString}
    (short : (c :: rest).length < pathMax) (relative : c ≠ '/') :
    MakesParents pathMax fs (c :: rest) ↔
      Blocked fs (pathStart fs (c :: rest)) (elements (c :: rest)) ∨
        ¬ EndsInFile fs (pathStart fs (c :: rest)) (elements (c :: rest)) := by
  obtain ⟨succeeds, made⟩ := @mkdirtree_run pathMax fs c rest short
  have both := @wiiMkdirs_relative pathMax fs c rest short relative
  constructor
  · intro makes
    by_cases blocked : Blocked fs (pathStart fs (c :: rest)) (elements (c :: rest))
    · exact .inl blocked
    · have zero := succeeds.mpr blocked
      exact .inr ((made zero).mp (makes.treeMade zero))
  · intro condition
    have treeMade : (mkdirtree pathMax (c :: rest) fs).1 = 0 →
        Reached (mkdirtree pathMax (c :: rest) fs).2 (pathStart fs (c :: rest))
          (elements (c :: rest)) := by
      intro zero
      exact (made zero).mpr (condition.resolve_left (succeeds.mp zero))
    refine ⟨congrArg Prod.fst both, ?_, treeMade, fun clear => ?_⟩
    · rw [both]
      exact treeMade
    · rw [both]
      have zero := succeeds.mpr (clear_of_whole clear)
      exact ⟨zero, zero⟩

/-- They agree and make the parents exactly when a file is in the way, so that both fail, or
when the path has a first character other than a separator and does not name a file. -/
theorem makesParents_iff (pathMax : Nat) (fs : Disk) (path : CString)
    (short : path.length < pathMax) :
    MakesParents pathMax fs path ↔
      Blocked fs (pathStart fs path) (elements path) ∨
        path ≠ [] ∧ isAbsolute path = false ∧
          ¬ EndsInFile fs (pathStart fs path) (elements path) := by
  cases path with
  | nil =>
      refine iff_of_false (fun makes => ?_) ?_
      · have same := makes.same
        rw [wiiMkdirs_empty, mkdirtree_empty] at same
        exact absurd same (show (-1 : Int) ≠ 0 by decide)
      · rintro (blocked | ⟨filled, -⟩)
        · exact not_blocked_nil fs _ blocked
        · exact filled rfl
  | cons c rest =>
      by_cases separator : c = '/'
      · subst separator
        have absolute : isAbsolute ('/' :: rest) ≠ false := Bool.noConfusion
        rw [makesParents_of_absolute short]
        exact (or_iff_left fun reachable => absolute reachable.2.1).symm
      · have relative : isAbsolute (c :: rest) = false := by
          simp [isAbsolute, separator]
        rw [makesParents_of_relative short separator]
        simp only [relative, true_and, ne_eq, reduceCtorEq, not_false_eq_true]

/-- The disk that holds nothing but its root. -/
def emptyDisk : Disk where
  kind place := if place = [] then some .directory else none
  root := rfl
  closed place name filled := by
    rw [if_neg (by simp)] at filled
    exact absurd rfl filled
  cwd := []
  cwd_directory := rfl

theorem makesParents_relative :
    MakesParents 1024 emptyDisk "hosts/old".toList ↔
      Blocked emptyDisk (pathStart emptyDisk "hosts/old".toList) (elements "hosts/old".toList) ∨
        "hosts/old".toList ≠ [] ∧ isAbsolute "hosts/old".toList = false ∧
          ¬ EndsInFile emptyDisk (pathStart emptyDisk "hosts/old".toList)
            (elements "hosts/old".toList) :=
  makesParents_iff 1024 emptyDisk "hosts/old".toList (by decide)

/-- The directory that the program makes at its start: only `mkdirtree` can make it. -/
theorem moonlight_keys_refused :
    (wiiMkdirs 1024 "/moonlight/keys".toList emptyDisk).1 = -1 ∧
      (mkdirtree 1024 "/moonlight/keys".toList emptyDisk).1 = 0 ∧
      ¬ MakesParents 1024 emptyDisk "/moonlight/keys".toList := by
  have refused : (wiiMkdirs 1024 "/moonlight/keys".toList emptyDisk).1 = -1 := by decide
  have made : (mkdirtree 1024 "/moonlight/keys".toList emptyDisk).1 = 0 := by
    rw [mkdirtree, take_whole (by decide)]
    change (mkdirtreeLoop [] ('/' :: "moonlight/keys".toList) emptyDisk).1 = 0
    rw [mkdirtreeLoop_names]
    decide
  refine ⟨refused, made, fun makes => ?_⟩
  have same := makes.same
  rw [refused, made] at same
  exact absurd same (by decide)

end MoonlightWii.App.MakeDirectories
