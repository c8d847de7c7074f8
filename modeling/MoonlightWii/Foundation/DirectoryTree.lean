import Mathlib.Data.List.Chain
import Mathlib.Data.List.Infix

/-!
# Directories, regular files and `mkdir`

A file system gives the places of a tree a kind; what is inside a place needs the place
to be a directory.  A path is followed step by step from the root or the current
directory.  Making the beginnings of a path one after the other, with those that exist
already passed over, makes all of them, unless one of them is a regular file.
-/

set_option autoImplicit false

namespace Foundation.DirectoryTree

universe u

inductive Kind where
  | directory
  | file
  deriving DecidableEq

inductive Errno where
  | enoent
  | eexist
  | enotdir
  deriving DecidableEq

inductive Step (Name : Type u) where
  | here
  | up
  | down (name : Name)

structure FileSystem (Name : Type u) where
  kind : List Name → Option Kind
  root : kind [] = some .directory
  closed : ∀ place name, kind (place ++ [name]) ≠ none → kind place = some .directory
  cwd : List Name
  cwd_directory : kind cwd = some .directory

section Places

variable {Name : Type u}

def Step.place (place : List Name) : Step Name → List Name
  | .here => place
  | .up => place.dropLast
  | .down name => place ++ [name]

/-- The place that a path names, whether it is there or not. -/
def follow (start : List Name) (steps : List (Step Name)) : List Name :=
  steps.foldl Step.place start

theorem follow_snoc (start : List Name) (steps : List (Step Name)) (step : Step Name) :
    follow start (steps ++ [step]) = step.place (follow start steps) := by
  rw [follow, List.foldl_append]
  rfl

variable (fs : FileSystem Name)

/-- The root for an absolute path, the current directory for another one. -/
def FileSystem.start (absolute : Bool) : List Name := if absolute then [] else fs.cwd

theorem start_directory (absolute : Bool) : fs.kind (fs.start absolute) = some .directory := by
  cases absolute with
  | false => exact fs.cwd_directory
  | true => exact fs.root

theorem parent_directory {place : List Name} (directory : fs.kind place = some .directory) :
    fs.kind place.dropLast = some .directory := by
  rcases List.eq_nil_or_concat place with empty | ⟨parent, name, known⟩
  · rw [empty]
    exact fs.root
  · rw [List.concat_eq_append] at known
    rw [known, List.dropLast_concat]
    refine fs.closed parent name ?_
    rw [← known, directory]
    exact Option.some_ne_none _

/-- One step of a walk: only a directory can be entered. -/
def enter (place : List Name) : Step Name → Except Errno (List Name)
  | .here => .ok place
  | .up => .ok place.dropLast
  | .down name =>
      match fs.kind (place ++ [name]) with
      | some .directory => .ok (place ++ [name])
      | some .file => .error .enotdir
      | none => .error .enoent

def walk : List Name → List (Step Name) → Except Errno (List Name)
  | place, [] => .ok place
  | place, step :: rest =>
      match enter fs place step with
      | .ok next => walk next rest
      | .error errno => .error errno

/-- Every beginning of the path is a directory. -/
def Reached (start : List Name) (steps : List (Step Name)) : Prop :=
  ∀ taken, taken <+: steps → fs.kind (follow start taken) = some .directory

/-- The path ends in a regular file. -/
def EndsInFile (start : List Name) (steps : List (Step Name)) : Prop :=
  fs.kind (follow start steps) = some .file

/-- The path goes through a regular file. -/
def Blocked (start : List Name) (steps : List (Step Name)) : Prop :=
  ∃ taken, taken <+: steps ∧ taken ≠ steps ∧ EndsInFile fs start taken

theorem enter_directory {place : List Name} {step : Step Name}
    (directory : fs.kind (step.place place) = some .directory) :
    enter fs place step = .ok (step.place place) := by
  cases step with
  | here => rfl
  | up => rfl
  | down name =>
      have found : fs.kind (place ++ [name]) = some .directory := directory
      simp only [enter, found, Step.place]

theorem walk_reached {start : List Name} {steps : List (Step Name)}
    (reached : Reached fs start steps) : walk fs start steps = .ok (follow start steps) := by
  induction steps generalizing start with
  | nil => rfl
  | cons step rest ih =>
      have next := reached [step] (List.prefix_append [step] rest)
      have later : Reached fs (step.place start) rest := by
        intro taken beginning
        exact reached (step :: taken) (List.cons_prefix_cons.mpr ⟨rfl, beginning⟩)
      simp only [walk, enter_directory fs next]
      exact ih later

theorem walk_append (start : List Name) (first second : List (Step Name)) :
    walk fs start (first ++ second) =
      match walk fs start first with
      | .ok place => walk fs place second
      | .error errno => .error errno := by
  induction first generalizing start with
  | nil => rfl
  | cons step first ih =>
      simp only [List.cons_append, walk]
      cases enter fs start step with
      | error errno => rfl
      | ok next => exact ih next

theorem reached_nil (absolute : Bool) : Reached fs (fs.start absolute) [] := by
  intro taken beginning
  rw [List.prefix_nil.mp beginning]
  exact start_directory fs absolute

theorem reached_snoc {start : List Name} {steps : List (Step Name)} {step : Step Name} :
    Reached fs start (steps ++ [step]) ↔
      Reached fs start steps ∧ fs.kind (follow start (steps ++ [step])) = some .directory := by
  constructor
  · intro reached
    exact ⟨fun taken beginning => reached taken (beginning.trans (List.prefix_append _ _)),
      reached _ (List.prefix_refl _)⟩
  · rintro ⟨before, last⟩ taken beginning
    rcases List.prefix_concat_iff.mp beginning with whole | part
    · rw [whole]
      exact last
    · exact before taken part

end Places

section Growing

variable {Name : Type u}

/-- Nothing has changed but that directories have come into being. -/
structure Extends (fs made : FileSystem Name) : Prop where
  kept : ∀ place kind, fs.kind place = some kind → made.kind place = some kind
  files : ∀ place, made.kind place = some .file → fs.kind place = some .file
  cwd : made.cwd = fs.cwd

theorem extends_refl (fs : FileSystem Name) : Extends fs fs :=
  ⟨fun _ _ same => same, fun _ same => same, rfl⟩

theorem extends_trans {first second third : FileSystem Name} (one : Extends first second)
    (other : Extends second third) : Extends first third :=
  ⟨fun place kind known => other.kept place kind (one.kept place kind known),
    fun place file => one.files place (other.files place file), other.cwd.trans one.cwd⟩

theorem start_extends {fs made : FileSystem Name} (extended : Extends fs made) (absolute : Bool) :
    made.start absolute = fs.start absolute := by
  cases absolute with
  | false => exact extended.cwd
  | true => rfl

theorem reached_extends {fs made : FileSystem Name} (extended : Extends fs made)
    {start : List Name} {steps : List (Step Name)} (reached : Reached fs start steps) :
    Reached made start steps :=
  fun taken beginning => extended.kept _ _ (reached taken beginning)

theorem endsInFile_extends {fs made : FileSystem Name} (extended : Extends fs made)
    {start : List Name} {steps : List (Step Name)} (file : EndsInFile made start steps) :
    EndsInFile fs start steps := extended.files _ file

/-- A path that is the same, or one step longer. -/
def Grows (before after : List (Step Name)) : Prop :=
  after = before ∨ ∃ step, after = before ++ [step]

theorem grows_longer {before after : List (Step Name)} (grows : Grows before after) :
    before <+: after := by
  rcases grows with same | ⟨step, longer⟩
  · rw [same]
  · rw [longer]
    exact List.prefix_append _ _

theorem chain_ascends {first : List (Step Name)} {rest : List (List (Step Name))}
    (chain : List.IsChain Grows (first :: rest)) :
    first <+: (first :: rest).getLast (List.cons_ne_nil _ _) := by
  induction rest generalizing first with
  | nil => exact List.prefix_refl _
  | cons next rest ih =>
      obtain ⟨grows, later⟩ := List.isChain_cons_cons.mp chain
      rw [List.getLast_cons (List.cons_ne_nil _ _)]
      exact (grows_longer grows).trans (ih later)

end Growing

section Making

variable {Name : Type u} [DecidableEq Name]

def addDirectory (fs : FileSystem Name) (place : List Name) (name : Name)
    (parent : fs.kind place = some .directory) (absent : fs.kind (place ++ [name]) = none) :
    FileSystem Name where
  kind other := if other = place ++ [name] then some .directory else fs.kind other
  root := by
    rw [if_neg (by simp)]
    exact fs.root
  closed other inner filled := by
    have inside : fs.kind other = some .directory := by
      by_cases made : other ++ [inner] = place ++ [name]
      · rw [(List.append_inj' made rfl).1]
        exact parent
      · rw [if_neg made] at filled
        exact fs.closed other inner filled
    have older : other ≠ place ++ [name] := by
      intro same
      rw [same, absent] at inside
      cases inside
    rw [if_neg older]
    exact inside
  cwd := fs.cwd
  cwd_directory := by
    have older : fs.cwd ≠ place ++ [name] := by
      intro same
      have directory := fs.cwd_directory
      rw [same, absent] at directory
      cases directory
    rw [if_neg older]
    exact fs.cwd_directory

theorem addDirectory_kind (fs : FileSystem Name) (place : List Name) (name : Name)
    (parent : fs.kind place = some .directory) (absent : fs.kind (place ++ [name]) = none)
    (other : List Name) :
    (addDirectory fs place name parent absent).kind other =
      if other = place ++ [name] then some .directory else fs.kind other := rfl

/-- Makes the last step of a path inside a place that has been walked to. -/
def make (fs : FileSystem Name) (place : List Name) : Step Name → Except Errno (FileSystem Name)
  | .here => .error .eexist
  | .up => .error .eexist
  | .down name =>
      if parent : fs.kind place = some .directory then
        if absent : fs.kind (place ++ [name]) = none then
          .ok (addDirectory fs place name parent absent)
        else .error .eexist
      else .error .enotdir

def mkdirAt (fs : FileSystem Name) (start : List Name) (steps : List (Step Name)) :
    Except Errno (FileSystem Name) :=
  match steps.getLast? with
  | none => .error .eexist
  | some last =>
      match walk fs start steps.dropLast with
      | .error errno => .error errno
      | .ok place => make fs place last

/-- An existing name counts as made. -/
def passOver (fs : FileSystem Name) : Except Errno (FileSystem Name) → Option (FileSystem Name)
  | .ok made => some made
  | .error .eexist => some fs
  | .error _ => none

/-- Makes the paths one after the other, up to one that cannot be made. -/
def makeAll (absolute : Bool) :
    List (List (Step Name)) → FileSystem Name → Bool × FileSystem Name
  | [], fs => (true, fs)
  | steps :: rest, fs =>
      match passOver fs (mkdirAt fs (fs.start absolute) steps) with
      | none => (false, fs)
      | some made => makeAll absolute rest made

theorem addDirectory_extends (fs : FileSystem Name) (place : List Name) (name : Name)
    (parent : fs.kind place = some .directory) (absent : fs.kind (place ++ [name]) = none) :
    Extends fs (addDirectory fs place name parent absent) := by
  refine ⟨?_, ?_, rfl⟩
  · intro other kind known
    have older : other ≠ place ++ [name] := by
      rintro rfl
      rw [absent] at known
      cases known
    exact (if_neg older).trans known
  · intro other file
    by_cases made : other = place ++ [name]
    · rw [addDirectory_kind, if_pos made] at file
      cases file
    · rw [addDirectory_kind, if_neg made] at file
      exact file

/-- Where the making of a path has come: to a directory, or to a file in its place. -/
inductive Standing (fs : FileSystem Name) (start : List Name) : List (Step Name) → Prop where
  | directory {steps : List (Step Name)} (reached : Reached fs start steps) :
      Standing fs start steps
  | file {steps : List (Step Name)} {name : Name} (reached : Reached fs start steps)
      (file : EndsInFile fs start (steps ++ [.down name])) :
      Standing fs start (steps ++ [.down name])

theorem mkdirAt_snoc {fs : FileSystem Name} {start : List Name} {steps : List (Step Name)}
    (reached : Reached fs start steps) (step : Step Name) :
    mkdirAt fs start (steps ++ [step]) = make fs (follow start steps) step := by
  simp only [mkdirAt, List.getLast?_concat, List.dropLast_concat, walk_reached fs reached]

/-- What is there is passed over. -/
theorem make_present {fs : FileSystem Name} {place : List Name} {step : Step Name} {kind : Kind}
    (directory : fs.kind place = some .directory) (present : fs.kind (step.place place) = some kind) :
    make fs place step = .error .eexist := by
  cases step with
  | here => rfl
  | up => rfl
  | down name =>
      have filled : ¬ fs.kind (place ++ [name]) = none := by
        intro absent
        have known : fs.kind (place ++ [name]) = some kind := present
        rw [absent] at known
        cases known
      rw [make, dif_pos directory, dif_neg filled]

theorem again_passes {fs : FileSystem Name} {start : List Name} {steps : List (Step Name)}
    (standing : Standing fs start steps) :
    passOver fs (mkdirAt fs start steps) = some fs := by
  cases standing with
  | directory reached =>
      rcases List.eq_nil_or_concat steps with empty | ⟨before, last, known⟩
      · rw [empty]
        rfl
      · rw [List.concat_eq_append] at known
        subst known
        obtain ⟨earlier, directory⟩ := (reached_snoc fs).mp reached
        rw [follow_snoc] at directory
        rw [mkdirAt_snoc earlier,
          make_present (earlier before (List.prefix_refl _)) directory]
        rfl
  | @file before name reached file =>
      rw [EndsInFile, follow_snoc] at file
      rw [mkdirAt_snoc reached, make_present (reached before (List.prefix_refl _)) file]
      rfl

/-- One more step from a directory makes it, or comes to a file. -/
theorem next_stands {fs : FileSystem Name} {start : List Name} {steps : List (Step Name)}
    (reached : Reached fs start steps) (step : Step Name) :
    ∃ made, passOver fs (mkdirAt fs start (steps ++ [step])) = some made ∧ Extends fs made ∧
      Standing made start (steps ++ [step]) := by
  have place := reached steps (List.prefix_refl _)
  rw [mkdirAt_snoc reached]
  have stays {step : Step Name}
      (directory : fs.kind (step.place (follow start steps)) = some .directory) :
      ∃ made, passOver fs (make fs (follow start steps) step) = some made ∧ Extends fs made ∧
        Standing made start (steps ++ [step]) := by
    refine ⟨fs, ?_, extends_refl fs, .directory ((reached_snoc fs).mpr ⟨reached, ?_⟩)⟩
    · rw [make_present place directory]
      rfl
    · rw [follow_snoc]
      exact directory
  cases step with
  | here => exact stays place
  | up => exact stays (parent_directory fs place)
  | down name =>
      cases known : fs.kind (follow start steps ++ [name]) with
      | none =>
          have extended := addDirectory_extends fs (follow start steps) name place known
          refine ⟨_, ?_, extended, .directory
            ((reached_snoc _).mpr ⟨reached_extends extended reached, ?_⟩)⟩
          · rw [make, dif_pos place, dif_pos known]
            rfl
          · rw [follow_snoc]
            exact if_pos rfl
      | some kind =>
          cases kind with
          | directory => exact stays known
          | file =>
              have present : fs.kind ((Step.down name).place (follow start steps)) = some .file :=
                known
              refine ⟨fs, ?_, extends_refl fs, .file reached ?_⟩
              · rw [make_present place present]
                rfl
              · rw [EndsInFile, follow_snoc]
                exact known

/-- Nothing can be made inside a file. -/
theorem file_refuses {fs : FileSystem Name} {start : List Name} {steps : List (Step Name)}
    {name : Name} (reached : Reached fs start steps)
    (file : EndsInFile fs start (steps ++ [.down name])) (step : Step Name) :
    passOver fs (mkdirAt fs start (steps ++ [.down name] ++ [step])) = none := by
  rw [EndsInFile, follow_snoc] at file
  have stopped : walk fs start (steps ++ [.down name]) = .error .enotdir := by
    rw [walk_append, walk_reached fs reached]
    simp only [walk, enter, Step.place] at file ⊢
    rw [file]
  simp only [mkdirAt, List.getLast?_concat, List.dropLast_concat, stopped]
  rfl

/-- The run over a growing path: it stands at the end of the path, or has stopped at a file. -/
theorem makeAll_chain (absolute : Bool) {fs : FileSystem Name} {first : List (Step Name)}
    {rest : List (List (Step Name))} (standing : Standing fs (fs.start absolute) first)
    (chain : List.IsChain Grows (first :: rest)) :
    Extends fs (makeAll absolute rest fs).2 ∧
      ((makeAll absolute rest fs).1 = true ∧
          Standing (makeAll absolute rest fs).2 (fs.start absolute)
            ((first :: rest).getLast (List.cons_ne_nil _ _)) ∨
        (makeAll absolute rest fs).1 = false ∧
          Blocked fs (fs.start absolute) ((first :: rest).getLast (List.cons_ne_nil _ _))) := by
  induction rest generalizing fs first with
  | nil => exact ⟨extends_refl fs, .inl ⟨rfl, standing⟩⟩
  | cons next rest ih =>
      obtain ⟨grows, later⟩ := List.isChain_cons_cons.mp chain
      rw [List.getLast_cons (List.cons_ne_nil _ _)]
      -- what one more path does, and the run from there
      have goes {made : FileSystem Name}
          (passed : passOver fs (mkdirAt fs (fs.start absolute) next) = some made)
          (extended : Extends fs made) (stands : Standing made (fs.start absolute) next) :
          Extends fs (makeAll absolute (next :: rest) fs).2 ∧
            ((makeAll absolute (next :: rest) fs).1 = true ∧
                Standing (makeAll absolute (next :: rest) fs).2 (fs.start absolute)
                  ((next :: rest).getLast (List.cons_ne_nil _ _)) ∨
              (makeAll absolute (next :: rest) fs).1 = false ∧
                Blocked fs (fs.start absolute)
                  ((next :: rest).getLast (List.cons_ne_nil _ _))) := by
        have start := start_extends extended absolute
        rw [← start] at stands
        have run := ih stands later
        rw [start] at run
        simp only [makeAll, passed]
        refine ⟨extends_trans extended run.1, ?_⟩
        rcases run.2 with done | ⟨stopped, taken, beginning, part, file⟩
        · exact .inl done
        · exact .inr ⟨stopped, taken, beginning, part, endsInFile_extends extended file⟩
      rcases grows with same | ⟨step, longer⟩
      · rw [← same] at standing
        exact goes (again_passes standing) (extends_refl fs) standing
      · cases standing with
        | directory reached =>
            rw [longer] at goes ⊢
            obtain ⟨made, passed, extended, stands⟩ := next_stands reached step
            exact goes passed extended stands
        | @file before name reached file =>
            have refused := file_refuses reached file step
            rw [← longer] at refused
            simp only [makeAll, refused]
            refine ⟨extends_refl fs, .inr ⟨trivial, _, ?_, ?_, file⟩⟩
            · exact (grows_longer (.inr ⟨step, longer⟩)).trans (chain_ascends later)
            · intro whole
              have short := (chain_ascends later).length_le
              rw [← whole, longer] at short
              simp at short

/-- Making all beginnings of a path succeeds exactly if no file is in its way; it then ends
with every beginning a directory, unless the path itself is a regular file. -/
theorem makeAll_path (absolute : Bool) (fs : FileSystem Name) (rest : List (List (Step Name)))
    (steps : List (Step Name)) (chain : List.IsChain Grows ([] :: rest))
    (last : ([] :: rest).getLast (List.cons_ne_nil _ _) = steps) :
    ((makeAll absolute rest fs).1 = true ↔ ¬ Blocked fs (fs.start absolute) steps) ∧
      ((makeAll absolute rest fs).1 = true →
        (Reached (makeAll absolute rest fs).2 (fs.start absolute) steps ↔
          ¬ EndsInFile fs (fs.start absolute) steps)) := by
  have run := makeAll_chain absolute (.directory (reached_nil fs absolute)) chain
  rw [last] at run
  obtain ⟨extended, ends⟩ := run
  have unblocked (standing : Standing (makeAll absolute rest fs).2 (fs.start absolute) steps) :
      ¬ Blocked fs (fs.start absolute) steps := by
    rintro ⟨taken, beginning, part, file⟩
    have kept := extended.kept _ _ file
    cases standing with
    | directory reached =>
        rw [reached taken beginning] at kept
        cases kept
    | @file before name reached =>
        rcases List.prefix_concat_iff.mp beginning with whole | inside
        · exact part whole
        · rw [reached taken inside] at kept
          cases kept
  rcases ends with ⟨done, standing⟩ | ⟨stopped, blocked⟩
  · refine ⟨iff_of_true done (unblocked standing), fun _ => ?_⟩
    cases standing with
    | directory reached =>
        refine iff_of_true reached fun file => ?_
        have kept := extended.kept _ _ file
        rw [reached steps (List.prefix_refl _)] at kept
        cases kept
    | @file before name reached file =>
        refine iff_of_false (fun all => ?_) (not_not.mpr (endsInFile_extends extended file))
        have directory := all _ (List.prefix_refl _)
        rw [EndsInFile, directory] at file
        cases file
  · rw [stopped]
    exact ⟨iff_of_false Bool.false_ne_true (not_not.mpr blocked),
      fun absurdity => absurd absurdity Bool.false_ne_true⟩

end Making

end Foundation.DirectoryTree
