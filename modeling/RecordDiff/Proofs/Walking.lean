import RecordDiff.Comparison.Walk
import RecordDiff.Proofs.Sizing

/-!
Walks over layouts. Looking up names, counting levels and sizing nested structs once more are all
settled by the size of the root: what is left of a walk is one pass over the layout of the root,
which is the form that the laws of comparison are proved in. Main statements:

- `walkWithin_eq_walkLayout`: the walk over a name that has a size is the walk over its layout;
- `compareLabeled_of_sized`: so is the comparison of records under such a name.
-/

namespace RecordDiff.Comparison

open RecordDiff.Schema

/-- A walk, and then another from where the first one stopped. -/
def followedBy {ε : Type} (first : Except ε Walked) (next : Nat → Except ε Walked) :
    Except ε Walked :=
  match first with
  | .error fault => .error fault
  | .ok (rows, behind) =>
    match next behind with
    | .error fault => .error fault
    | .ok (more, last) => .ok (rows ++ more, last)

/-- The outcome of a walk with its rows changed and its cursor kept. -/
def changeRows {ε : Type} (change : List Row → List Row) (outcome : Except ε Walked) :
    Except ε Walked :=
  outcome.map fun walked => (change walked.1, walked.2)

/-- Walks over a layout. Elements of no width are passed over. -/
def walkLayout (sides : Sides) (filter : Filter) : Layout → Nat → Except Fault Walked
  | .done, cursor => .ok ([], cursor)
  | .value field rest, cursor =>
    followedBy (walkScalar sides filter field cursor) (walkLayout sides filter rest)
  | .element field index inside rest, cursor =>
    if inside.width = 0 then walkLayout sides filter rest cursor
    else
      followedBy
        (changeRows (sectionRows filter field index) (walkLayout sides filter inside cursor))
        (walkLayout sides filter rest)

/-- Whether a record is there to be compared. -/
def Sides.Present (sides : Sides) : Prop :=
  sides.left.isSome ∨ sides.right.isSome

/-! ### Walks one after the other -/

section Sequence

variable {first outcome : Except Fault Walked} {next later : Nat → Except Fault Walked}
  {change other : List Row → List Row}

theorem followedBy_nil (cursor : Nat) : followedBy (.ok ([], cursor)) next = next cursor := by
  simp only [followedBy]
  cases next cursor with
  | error fault => rfl
  | ok walked => rfl

theorem followedBy_eq_ok {rows : List Row} {last : Nat}
    (walked : followedBy first next = .ok (rows, last)) :
    ∃ front behind back, first = .ok (front, behind) ∧ next behind = .ok (back, last) ∧
      rows = front ++ back := by
  cases first with
  | error fault => cases walked
  | ok found =>
    obtain ⟨front, behind⟩ := found
    simp only [followedBy] at walked
    cases second : next behind with
    | error fault => rw [second] at walked; cases walked
    | ok found =>
      obtain ⟨back, stop⟩ := found
      rw [second] at walked
      cases walked
      exact ⟨front, behind, back, rfl, second, rfl⟩

theorem changeRows_eq_ok {rows : List Row} {last : Nat}
    (walked : changeRows change outcome = .ok (rows, last)) :
    ∃ inside, outcome = .ok (inside, last) ∧ rows = change inside := by
  cases outcome with
  | error fault => cases walked
  | ok found =>
    cases walked
    exact ⟨found.1, rfl, rfl⟩

theorem followedBy_assoc :
    followedBy (followedBy first next) later =
      followedBy first fun cursor => followedBy (next cursor) later := by
  cases first with
  | error fault => rfl
  | ok walked =>
    obtain ⟨rows, behind⟩ := walked
    simp only [followedBy]
    cases next behind with
    | error fault => rfl
    | ok walked =>
      obtain ⟨more, last⟩ := walked
      simp only
      cases later last with
      | error fault => rfl
      | ok walked => simp [List.append_assoc]

theorem changeRows_changeRows :
    changeRows change (changeRows other outcome) = changeRows (change ∘ other) outcome := by
  cases outcome <;> rfl

theorem changeRows_followedBy
    (append : ∀ front back, change (front ++ back) = change front ++ change back) :
    changeRows change (followedBy first next) =
      followedBy (changeRows change first) fun cursor => changeRows change (next cursor) := by
  cases first with
  | error fault => rfl
  | ok walked =>
    obtain ⟨rows, behind⟩ := walked
    simp only [followedBy, changeRows, Except.map]
    cases next behind with
    | error fault => rfl
    | ok walked => simp [append]

theorem walkFields_cons (walk : Field → Nat → Except Fault Walked) (field : Field)
    (rest : List Field) (cursor : Nat) :
    walkFields walk (field :: rest) cursor =
      followedBy (walk field cursor) (walkFields walk rest) := by
  rw [walkFields]
  unfold followedBy
  cases walk field cursor with
  | error fault => rfl
  | ok walked =>
    obtain ⟨rows, behind⟩ := walked
    simp only
    cases walkFields walk rest behind <;> rfl

theorem walkElements_succ (filter : Filter) (field : Field) (walk : Nat → Except Fault Walked)
    (remaining index cursor : Nat) :
    walkElements filter field walk (remaining + 1) index cursor =
      followedBy (changeRows (sectionRows filter field index) (walk cursor))
        (walkElements filter field walk remaining (index + 1)) := by
  rw [walkElements]
  unfold followedBy
  cases walk cursor with
  | error fault => rfl
  | ok walked =>
    obtain ⟨children, behind⟩ := walked
    simp only [changeRows, Except.map]
    cases walkElements filter field walk remaining (index + 1) behind <;> rfl

end Sequence

/-! ### From names to layouts -/

section Layouts

variable {registry : Registry} {sides : Sides} {filter : Filter} {field : Field}
  {inside rest layout : Layout} {name : String} {levels size : Nat}

theorem walkLayout_elements (wide : inside.width ≠ 0) (count index cursor : Nat) :
    walkLayout sides filter (.elements field inside rest count index) cursor =
      followedBy (walkElements filter field (walkLayout sides filter inside) count index cursor)
        (walkLayout sides filter rest) := by
  induction count generalizing index cursor with
  | zero => rw [walkElements, followedBy_nil, Layout.elements]
  | succ count ih =>
    rw [Layout.elements, walkLayout, if_neg wide, walkElements_succ, followedBy_assoc]
    congr 1
    funext behind
    exact ih (index + 1) behind

theorem walkLayout_elements_of_narrow (narrow : inside.width = 0) (count index cursor : Nat) :
    walkLayout sides filter (.elements field inside rest count index) cursor =
      walkLayout sides filter rest cursor := by
  induction count generalizing index with
  | zero => rfl
  | succ count ih => rw [Layout.elements, walkLayout, if_pos narrow, ih]

theorem walkField_of_primitive {walk : String → Nat → Except Fault Walked}
    (primitive : ∀ name, field.kind ≠ .nested name) (cursor : Nat) :
    walkField registry sides filter walk field cursor = walkScalar sides filter field cursor := by
  unfold walkField
  cases kind : field.kind with
  | nested name => exact absurd kind (primitive name)
  | byte => rfl
  | word => rfl
  | text => rfl

theorem walkField_of_nested {walk : String → Nat → Except Fault Walked}
    (kind : field.kind = .nested name) (sized : registry.byteSize name = .ok size) (cursor : Nat) :
    walkField registry sides filter walk field cursor =
      if size = 0 then .ok ([], cursor)
      else walkElements filter field (walk name) field.count 0 cursor := by
  simp only [walkField, kind, sized]
  cases size with
  | zero => rfl
  | succ size => rfl

/-- If every struct that sizing follows is walked over like its layout, then so are fields. -/
theorem walkFields_eq_walkLayout {sizeOf : String → Except Fault Nat} {struct : String}
    {walk : String → Nat → Except Fault Walked} {fields : List Field} {total sum : Nat}
    (sizes : ∀ name size, sizeOf name = .ok size → registry.byteSize name = .ok size)
    (walks : ∀ name size inside, sizeOf name = .ok size → registry.HasLayout name inside →
      walk name = walkLayout sides filter inside)
    (laid : LaidOut registry fields layout)
    (sized : sizeFields sizeOf struct total fields = .ok sum) (cursor : Nat) :
    walkFields (walkField registry sides filter walk) fields cursor =
      walkLayout sides filter layout cursor := by
  induction laid generalizing total cursor with
  | nil => rfl
  | value primitive behind ih =>
    obtain ⟨size, -, sizedRest⟩ := sizeFields_cons_eq_ok sized
    rw [walkFields_cons, walkField_of_primitive primitive, walkLayout]
    congr 1
    funext cursor
    exact ih sizedRest cursor
  | @nested field rest name struct inside layout kind found within behind ihWithin ihBehind =>
    obtain ⟨size, sizedField, sizedRest⟩ := sizeFields_cons_eq_ok sized
    obtain ⟨inner, sizedInner, -⟩ := Field.size_nested_eq_ok kind sizedField
    have laidInner : registry.HasLayout name inside := ⟨struct, found, within⟩
    -- the walk sizes the struct afresh, but that is the size already counted
    have byteSized : registry.byteSize name = .ok inner := sizes name inner sizedInner
    have width : inside.width = inner := laidInner.width_eq byteSized
    have behindEq : walkFields (walkField registry sides filter walk) rest =
        walkLayout sides filter layout := funext fun cursor => ihBehind sizedRest cursor
    rw [walkFields_cons, walkField_of_nested kind byteSized, behindEq]
    by_cases narrow : inner = 0
    · rw [if_pos narrow, followedBy_nil, walkLayout_elements_of_narrow (width.trans narrow)]
    · rw [if_neg narrow, walks name inner inside sizedInner laidInner,
        walkLayout_elements (width ▸ narrow)]

/-- The walk over a name that has a size is the walk over its layout. -/
theorem walkWithin_eq_walkLayout (enough : levels ≤ Registry.levelLimit)
    (sized : registry.sizeWithin levels name = .ok size) (laid : registry.HasLayout name layout) :
    walkWithin registry sides filter levels name = walkLayout sides filter layout := by
  induction levels generalizing name size layout with
  | zero => cases sized
  | succ levels ih =>
    have fewer : levels ≤ Registry.levelLimit := Nat.le_of_succ_le enough
    obtain ⟨struct, found, laidFields⟩ := laid
    simp only [Registry.sizeWithin, found] at sized
    funext cursor
    simp only [walkWithin, found]
    exact walkFields_eq_walkLayout
      (fun name size inner => Registry.byteSize_of_sizeWithin fewer inner)
      (fun name size inside inner laidInner => ih fewer inner laidInner) laidFields sized cursor

/-! ### Comparisons -/

theorem Sides.Present.not_absent (present : sides.Present) :
    (sides.left.isNone && sides.right.isNone) = false := by
  rcases present with left | right
  · rw [Option.isNone_eq_false_iff.2 left, Bool.false_and]
  · rw [Option.isNone_eq_false_iff.2 right, Bool.and_false]

/-- What a walk from the start of the records comes to, under a root row. -/
def rootTree (label : String) (outcome : Except Fault Walked) : Except Fault Tree :=
  outcome.map fun walked => ⟨.branch label walked.1, walked.2⟩

/-- A comparison under a root that has a size is the walk over the layout of that root. -/
theorem compareLabeled_of_sized (present : sides.Present)
    (sized : registry.byteSize name = .ok size) (laid : registry.HasLayout name layout)
    (label : String) :
    compareLabeled registry sides filter name label =
      rootTree label (walkLayout sides (filter.against sides.right.isSome) layout 0) := by
  simp only [compareLabeled, present.not_absent, sized, Bool.false_eq_true, if_false]
  rw [walkWithin_eq_walkLayout (Nat.le_refl _) sized laid]
  cases walkLayout sides (filter.against sides.right.isSome) layout 0 with
  | error fault => rfl
  | ok walked => rfl

end Layouts

end RecordDiff.Comparison
