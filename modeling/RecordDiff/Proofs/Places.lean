import Mathlib.Data.List.Induction
import Mathlib.Data.List.TakeWhile
import RecordDiff.Storage.Disk

/-!
Where paths lead. On a disk of directories and files a path leads where its parts say, whatever is
there: each part that is a name goes one place down and each pair of dots goes back up. What is on
the disk decides only whether the path can be followed at all. Main statements:

- `parent?_of_components`: the path above a path has all of its steps but the last;
- `steps_of_fileName?`, `steps_temporaryPath?`: a file and the temporary file beside it are one step
  away from the same place;
- `Disk.follow_eq_ok_iff`: parts can be followed exactly if there are directories at all places that
  they enter;
- `Disk.locate_of_directories`: a path that can be followed still can where more directories are.
-/

namespace RecordDiff.Storage

open Text (splitOn joinWith splitOn_append_cons splitOn_joinWith not_mem_of_mem_splitOn)

/-! ### Steps -/

/-- Whether a part of a path leads anywhere: empty parts and single dots stay where they are. -/
def leadsOn (part : List Char) : Bool :=
  !(part.isEmpty || part == dot)

/-- The parts of a path that lead anywhere. -/
def steps (path : List Char) : List (List Char) :=
  (pathParts path).filter leadsOn

/-- Where steps lead from a place, going by their names alone. -/
def goal (here : Location) : List (List Char) → Location
  | [] => here
  | step :: rest =>
    if step == dotDot then goal (Disk.above here) rest else goal (here ++ [step]) rest

/-- The places that steps enter by name on their way from a place, the last one included. -/
def entered (here : Location) : List (List Char) → List Location
  | [] => []
  | step :: rest =>
    if step == dotDot then entered (Disk.above here) rest
    else (here ++ [step]) :: entered (here ++ [step]) rest

/-- The place that a path leads to, going by names alone. -/
def Disk.placeOf (disk : Disk) (path : List Char) : Location :=
  goal (disk.startOf path) (steps path)

/-- The places that are entered on the way along the path above a path. -/
def Disk.placesAbove (disk : Disk) (path : List Char) : List Location :=
  match parent? path with
  | none => []
  | some parent => entered (disk.startOf parent) (steps parent)

section Steps

variable {here : Location} {step : List Char} {front back : List (List Char)}

theorem goal_append (here : Location) (front back : List (List Char)) :
    goal here (front ++ back) = goal (goal here front) back := by
  induction front generalizing here with
  | nil => rfl
  | cons step rest ih =>
    rw [List.cons_append, goal, goal]
    split
    · exact ih _
    · exact ih _

theorem goal_name (noDots : step ≠ dotDot) (here : Location) (front : List (List Char)) :
    goal here (front ++ [step]) = goal here front ++ [step] := by
  rw [goal_append]
  simp [goal, noDots]

theorem entered_append (here : Location) (front back : List (List Char)) :
    entered here (front ++ back) = entered here front ++ entered (goal here front) back := by
  induction front generalizing here with
  | nil => rfl
  | cons step rest ih =>
    rw [List.cons_append, entered, entered, goal]
    split
    · exact ih _
    · rw [ih]
      rfl

theorem goal_mem_entered (noDots : step ≠ dotDot) (here : Location) (front : List (List Char)) :
    goal here front ++ [step] ∈ entered here (front ++ [step]) := by
  rw [entered_append]
  simp [entered, noDots]

end Steps

/-! ### Paths and their parts -/

section Parts

variable {separator : Char} {text path part name : List Char} {parts : List (List Char)}

theorem isAbsolute_iff :
    isAbsolute path = true ↔ ∃ second rest, pathParts path = [] :: second :: rest := by
  cases path with
  | nil => simp [isAbsolute, pathParts, splitOn]
  | cons c rest =>
    obtain ⟨part, more, found⟩ := List.exists_cons_of_ne_nil (Text.splitOn_ne_nil '/' rest)
    by_cases slash : c = '/'
    · simp [isAbsolute, pathParts, splitOn, slash, found]
    · simp [isAbsolute, pathParts, splitOn, slash, found]

/-! ### Components -/

theorem dropTrailing_suffix (parts : List (List Char)) : dropTrailing parts <:+ parts := by
  fun_induction dropTrailing parts with
  | case1 => exact List.suffix_refl _
  | case2 => exact List.nil_suffix
  | case3 => exact List.suffix_refl _
  | case4 part before rest skipped ih => exact ih.trans (List.suffix_cons _ _)
  | case5 => exact List.suffix_refl _

theorem filter_dropTrailing (parts : List (List Char)) :
    (dropTrailing parts).filter leadsOn = parts.filter leadsOn := by
  fun_induction dropTrailing parts with
  | case1 => rfl
  | case2 part empty => simp [leadsOn, empty]
  | case3 => rfl
  | case4 part before rest skipped ih =>
    have stays : leadsOn part = false := by simp [leadsOn, skipped]
    rw [ih, List.filter_cons_of_neg (a := part) (by simp [stays])]
  | case5 => rfl

theorem dropTrailing_cons {last : List Char} {before : List (List Char)}
    (dropped : dropTrailing parts = last :: before) : last ≠ [] := by
  fun_induction dropTrailing parts with
  | case1 => cases dropped
  | case2 => cases dropped
  | case3 part inked =>
    cases dropped
    rintro rfl
    exact inked rfl
  | case4 part before rest skipped ih => exact ih dropped
  | case5 part before rest kept =>
    cases dropped
    rintro rfl
    exact kept rfl

theorem steps_eq_components (path : List Char) :
    steps path = ((components path).filter leadsOn).reverse := by
  rw [components, filter_dropTrailing, List.filter_reverse, List.reverse_reverse, steps]

/-- Joining a front of the parts of a path starts at the root exactly if the path does, unless the
front is nothing but an empty part. -/
theorem isAbsolute_joinWith {front : List (List Char)} (ahead : front <+: pathParts path)
    (some? : front ≠ []) (inked : front ≠ [[]]) :
    isAbsolute (joinWith ['/'] front) = isAbsolute path := by
  have clean : ∀ part ∈ front, '/' ∉ part := by
    intro part member
    exact not_mem_of_mem_splitOn (ahead.subset member)
  have found : pathParts (joinWith ['/'] front) = front := splitOn_joinWith some? clean
  rw [Bool.eq_iff_iff, isAbsolute_iff, isAbsolute_iff, found]
  obtain ⟨back, whole⟩ := ahead
  rw [← whole]
  constructor
  · rintro ⟨second, rest, rfl⟩
    exact ⟨second, rest ++ back, rfl⟩
  · rintro ⟨second, rest, same⟩
    cases front with
    | nil => exact absurd rfl some?
    | cons first more =>
      obtain ⟨rfl, -⟩ := List.cons.inj same
      cases more with
      | nil => exact absurd rfl inked
      | cons next more => exact ⟨next, more, rfl⟩

/-- The path above a path has all of its steps but the last, and starts where it does. -/
theorem parent?_of_components {last : List Char} {before : List (List Char)}
    (cut : components path = last :: before) :
    ∃ parent, parent? path = some parent ∧ steps path = steps parent ++ [last].filter leadsOn ∧
      isAbsolute parent = isAbsolute path := by
  have whole : steps path = (before.filter leadsOn).reverse ++ [last].filter leadsOn := by
    rw [steps_eq_components, cut, ← List.singleton_append, List.filter_append, List.reverse_append]
    congr 1
    cases leads : leadsOn last <;> simp [leads]
  have inside : dropTrailing before <:+ (pathParts path).reverse := by
    have below : before <:+ components path := cut ▸ List.suffix_cons last before
    exact (dropTrailing_suffix before).trans (below.trans (dropTrailing_suffix _))
  rw [← filter_dropTrailing before] at whole
  cases rest : dropTrailing before with
  | nil =>
    rw [rest] at whole
    cases absolute : isAbsolute path with
    | true => exact ⟨['/'], by simp [parent?, cut, rest, absolute], whole, rfl⟩
    | false => exact ⟨[], by simp [parent?, cut, rest, absolute], whole, rfl⟩
  | cons next more =>
    rw [rest] at whole inside
    have ahead : (next :: more).reverse <+: pathParts path := by
      rwa [← List.reverse_suffix, List.reverse_reverse]
    have some? : (next :: more).reverse ≠ [] := by simp
    have inked : (next :: more).reverse ≠ [[]] := by
      intro alone
      have single : next :: more = [[]] := by simpa using congrArg List.reverse alone
      exact dropTrailing_cons (rest.trans single) rfl
    refine ⟨joinWith ['/'] (next :: more).reverse, by simp [parent?, cut, rest], ?_,
      isAbsolute_joinWith ahead some? inked⟩
    have clean : ∀ part ∈ (next :: more).reverse, '/' ∉ part := by
      intro part member
      exact not_mem_of_mem_splitOn (ahead.subset member)
    have found : pathParts (joinWith ['/'] (next :: more).reverse) = (next :: more).reverse :=
      splitOn_joinWith some? clean
    rw [whole, steps, found, List.filter_reverse]

/-- A path above another has a front of its steps, and starts where it does. -/
theorem exists_steps_of_parent? {parent : List Char} (found : parent? path = some parent) :
    ∃ back, steps path = steps parent ++ back ∧ isAbsolute parent = isAbsolute path := by
  cases cut : components path with
  | nil => simp [parent?, cut] at found
  | cons last before =>
    obtain ⟨other, foundToo, whole, start⟩ := parent?_of_components cut
    obtain rfl : parent = other := Option.some.inj (found.symm.trans foundToo)
    exact ⟨_, whole, start⟩

/-! ### Files and what stands beside them -/

/-- A name that a step can go down by. -/
structure IsName (name : List Char) : Prop where
  leads : leadsOn name = true
  noDots : name ≠ dotDot
  noSlash : '/' ∉ name

theorem steps_of_fileName? (named : fileName? path = some name) :
    IsName name ∧ ∃ parent, parent? path = some parent ∧ steps path = steps parent ++ [name] ∧
      isAbsolute parent = isAbsolute path := by
  unfold fileName? at named
  cases cut : components path with
  | nil => simp [cut] at named
  | cons last before =>
    rw [cut] at named
    dsimp only at named
    split at named
    · cases named
    · rename_i noDots
      obtain rfl := Option.some.inj named
      rw [not_or] at noDots
      have leads : leadsOn last = true := by
        have inked : last ≠ [] := dropTrailing_cons cut
        simp [leadsOn, noDots.1, inked]
      have noSlash : '/' ∉ last := by
        have member : last ∈ (pathParts path).reverse := by
          have inside : components path <:+ (pathParts path).reverse := dropTrailing_suffix _
          rw [cut] at inside
          exact inside.subset List.mem_cons_self
        exact not_mem_of_mem_splitOn (List.mem_reverse.1 member)
      obtain ⟨parent, found, whole, start⟩ := parent?_of_components cut
      refine ⟨⟨leads, noDots.2, noSlash⟩, parent, found, ?_, start⟩
      simpa [leads] using whole

/-- Steps of two paths with a slash between them follow one another. -/
theorem steps_append_slash (front back : List Char) :
    steps (front ++ '/' :: back) = steps front ++ steps back := by
  have cut : pathParts (front ++ '/' :: back) = pathParts front ++ pathParts back :=
    splitOn_append_cons '/' front back
  rw [steps, cut, List.filter_append, steps, steps]

theorem steps_child {directory : List Char} (isName : IsName name) :
    steps (child directory name) = steps directory ++ [name] := by
  have alone : steps name = [name] := by
    have whole : pathParts name = [name] := Text.splitOn_of_not_mem isName.noSlash
    rw [steps, whole, List.filter_cons_of_pos isName.leads, List.filter_nil]
  cases directory using List.reverseRecOn with
  | nil => exact alone
  | append_singleton front c =>
    by_cases slash : c = '/'
    · subst slash
      have joined : child (front ++ ['/']) name = front ++ '/' :: name := by simp [child]
      have noStep : steps (front ++ ['/']) = steps front ++ [] := steps_append_slash front []
      rw [joined, steps_append_slash, noStep, alone, List.append_nil]
    · have joined : child (front ++ [c]) name = (front ++ [c]) ++ '/' :: name := by
        simp [child, slash]
      rw [joined, steps_append_slash, alone]

theorem isAbsolute_child {directory : List Char} (relative : isAbsolute name = false) :
    isAbsolute (child directory name) = isAbsolute directory := by
  cases directory with
  | nil => exact relative
  | cons c rest =>
    rw [child, List.getLast?_eq_some_getLast (List.cons_ne_nil c rest)]
    dsimp only
    split
    · rfl
    · rfl

theorem IsName.temporaryName (isName : IsName name) : IsName (temporaryName name) where
  leads := by simp [leadsOn, Storage.temporaryName, dot]
  noDots := by
    intro same
    have shorter := congrArg List.length same
    simp [Storage.temporaryName, dotDot] at shorter
  noSlash := by
    have noSlash := isName.noSlash
    simp [Storage.temporaryName, noSlash]

theorem temporaryName_ne (name : List Char) : temporaryName name ≠ name := by
  intro same
  have longer := congrArg List.length same
  simp only [temporaryName, List.length_cons, List.length_append] at longer
  omega

/-- A file and the temporary file beside it are one step away from the same place. -/
theorem steps_temporaryPath? {temporary : List Char} (found : temporaryPath? path = some temporary) :
    ∃ name front, IsName name ∧ steps path = front ++ [name] ∧
      steps temporary = front ++ [temporaryName name] ∧ isAbsolute temporary = isAbsolute path := by
  obtain ⟨name, named, rfl⟩ := Option.map_eq_some_iff.1 found
  obtain ⟨isName, parent, above, whole, start⟩ := steps_of_fileName? named
  refine ⟨name, steps parent, isName, whole, ?_, ?_⟩
  · rw [above, Option.getD_some, steps_child isName.temporaryName]
  · rw [above, Option.getD_some, isAbsolute_child rfl, start]

/-! ### Routes -/

/-- Where a route ends in a name, that name is the last step. -/
theorem steps_of_isNamed (named : (Route.ofPath path).isNamed = true) :
    steps path =
      (Route.ofPath path).before.filter leadsOn ++ [(Route.ofPath path).last] ∧
    IsName (Route.ofPath path).last := by
  have split := List.takeWhile_append_dropWhile (p := List.isEmpty) (l := (pathParts path).reverse)
  unfold Route.ofPath at named ⊢
  cases found : (pathParts path).reverse.dropWhile List.isEmpty with
  | nil =>
    rw [found] at named
    cases named
  | cons last before =>
    rw [found] at named split
    simp only [Route.isNamed, Bool.and_eq_true, bne_iff_ne] at named
    have inked : last.isEmpty = false := by
      have head := List.head_dropWhile_not List.isEmpty (l := (pathParts path).reverse)
      simpa [found] using head
    have leads : leadsOn last = true := by simp [leadsOn, inked, named.1]
    have noSlash : '/' ∉ last := by
      have member : last ∈ (pathParts path).reverse := by
        rw [← split]
        exact List.mem_append_right _ List.mem_cons_self
      exact not_mem_of_mem_splitOn (List.mem_reverse.1 member)
    refine ⟨?_, leads, named.2, noSlash⟩
    have stays : ((pathParts path).reverse.takeWhile List.isEmpty).filter leadsOn = [] := by
      rw [List.filter_eq_nil_iff]
      intro part member
      have empty := List.mem_takeWhile_imp member
      simp [leadsOn, empty]
    have turned : ((pathParts path).reverse).filter leadsOn = last :: before.filter leadsOn := by
      rw [← split, List.filter_append, stays, List.nil_append, List.filter_cons_of_pos leads]
    rw [steps, ← List.reverse_reverse (pathParts path), List.filter_reverse, turned]
    simp

end Parts

/-! ### Following parts -/

namespace Disk

section Following

variable {disk other : Disk} {here there place : Location} {parts : List (List Char)}
  {path : List Char} {route : Route}

theorem startOf_congr {beside : List Char} (start : isAbsolute beside = isAbsolute path)
    (disk : Disk) : disk.startOf beside = disk.startOf path := by
  rw [startOf, startOf, start]

/-- Parts can be followed exactly if none of them is too long and there is a directory at every
place that they enter, and then they lead where their names say. -/
theorem follow_eq_ok_iff :
    disk.follow here parts = .ok there ↔
      goal here (parts.filter leadsOn) = there ∧
        (∀ place ∈ entered here (parts.filter leadsOn), disk.item? place = some .directory) ∧
        ∀ part ∈ parts, isLongName part = false := by
  induction parts generalizing here with
  | nil => simp [follow, goal, entered]
  | cons part rest ih =>
    by_cases stays : (part.isEmpty || part == dot) = true
    · have short : isLongName part = false := by
        rcases Bool.or_eq_true_iff.1 stays with empty | single
        · rw [List.isEmpty_iff.1 empty]
          decide
        · rw [eq_of_beq single]
          decide
      simp [follow, stays, leadsOn, ih, short]
    · have leads : leadsOn part = true := by simp [leadsOn, stays]
      by_cases up : part = dotDot
      · have short : isLongName part = false := by
          rw [up]
          decide
        rw [follow, if_neg stays, if_pos (by simp [up]), ih, List.filter_cons_of_pos leads]
        rw [up] at short ⊢
        simp [goal, entered, short]
      · rw [follow, if_neg stays, if_neg (by simp [up]), List.filter_cons_of_pos leads]
        by_cases long : isLongName part = true
        · simp [long]
        · rw [if_neg long]
          simp only [goal, entered, beq_iff_eq, up, if_false, List.forall_mem_cons]
          cases item : disk.item? (here ++ [part]) with
          | none => simp
          | some found =>
            cases found with
            | file content => simp
            | directory => simp [ih, long]

theorem route_of_locate (located : disk.locate path = .ok (here, route)) :
    route = Route.ofPath path ∧
      disk.follow (disk.startOf path) (Route.ofPath path).before = .ok here := by
  unfold locate at located
  split at located
  · cases located
  · split at located
    · cases located
    · split at located
      · cases located
      · cases followed : disk.follow (disk.startOf path) (Route.ofPath path).before with
        | error cause =>
          rw [followed] at located
          cases located
        | ok found =>
          rw [followed] at located
          cases located
          exact ⟨rfl, rfl⟩

/-- A path that can be followed still can where more directories are. -/
theorem locate_of_directories (working : other.working = disk.working)
    (directories : ∀ place, disk.item? place = some .directory → other.item? place = some .directory)
    (located : disk.locate path = .ok (here, route)) : other.locate path = .ok (here, route) := by
  obtain ⟨rfl, followed⟩ := route_of_locate located
  have start : other.startOf path = disk.startOf path := by simp [startOf, working]
  have followedToo : other.follow (disk.startOf path) (Route.ofPath path).before = .ok here := by
    rw [follow_eq_ok_iff] at followed ⊢
    exact ⟨followed.1, fun place member => directories place (followed.2.1 place member),
      followed.2.2⟩
  unfold locate at located ⊢
  rw [start, followedToo]
  rw [followed] at located
  exact located

/-- A path that can be followed up to its last name, which is one step away from where its other
steps lead. -/
theorem steps_of_locate (located : disk.locate path = .ok (here, route))
    (named : route.isNamed = true) :
    ∃ front, steps path = front ++ [route.last] ∧ IsName route.last ∧
      goal (disk.startOf path) front = here ∧
      ∀ place ∈ entered (disk.startOf path) front, disk.item? place = some .directory := by
  obtain ⟨rfl, followed⟩ := route_of_locate located
  obtain ⟨whole, isName⟩ := steps_of_isNamed named
  obtain ⟨leads, directories, -⟩ := follow_eq_ok_iff.1 followed
  exact ⟨_, whole, isName, leads, directories⟩

end Following

end Disk

end RecordDiff.Storage
