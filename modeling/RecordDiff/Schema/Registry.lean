import RecordDiff.Schema.Field

/-!
The structs of a schema in ascending order of their qualified names, and the rule by which a name
finds its struct: the struct of exactly that name, else the one named like the part behind the last
separator, else the first nested one with that part as its last. Main statements:

- `unqualified_unqualified`: the last part of a name has no separator left in it;
- `Registry.get?_insert_self`, `Registry.get?_insert_of_ne`: inserting a struct sets what its own
  name finds and leaves every other name alone;
- `Registry.name_of_get?`: what a name finds directly bears that name;
- `Registry.unqualified_of_resolve`: what a name finds ends in the same part as the name.
-/

namespace RecordDiff.Schema

/-- What stands between the name of an enclosing struct and that of a nested one. -/
def separator : String := "::"

/-- The characters behind the last separator, if there is one. -/
def lastPart? : List Char → Option (List Char)
  | [] => none
  | c :: rest =>
    match lastPart? rest with
    | some part => some part
    | none =>
      match c, rest with
      | ':', ':' :: part => some part
      | _, _ => none

/-- The part of a name behind its last separator, or the whole name. -/
def unqualified (name : String) : String :=
  match lastPart? name.toList with
  | some part => String.ofList part
  | none => name

/-- Whether a name has a separator in it. -/
def isQualified (name : String) : Bool :=
  (lastPart? name.toList).isSome

/-- No separator is left in the last part. -/
theorem lastPart?_lastPart? {name part : List Char} (last : lastPart? name = some part) :
    lastPart? part = none := by
  induction name with
  | nil => cases last
  | cons c rest ih =>
    simp only [lastPart?] at last
    split at last
    · exact ih (by simp_all)
    · rename_i noneLater
      split at last
      · simp only [Option.some.injEq] at last
        subst last
        cases later : lastPart? _ with
        | none => rfl
        | some deeper => simp [lastPart?, later] at noneLater
      · cases last

theorem unqualified_unqualified (name : String) :
    unqualified (unqualified name) = unqualified name := by
  cases last : lastPart? name.toList with
  | none => simp [unqualified, last]
  | some part => simp [unqualified, last, lastPart?_lastPart? last]

/-- Puts a struct into its place by name, in place of one of the same name. -/
def insertByName (struct : Struct) : List Struct → List Struct
  | [] => [struct]
  | other :: rest =>
    if struct.name < other.name then struct :: other :: rest
    else if struct.name = other.name then struct :: rest
    else other :: insertByName struct rest

theorem mem_insertByName {struct other : Struct} {structs : List Struct}
    (member : other ∈ insertByName struct structs) : other = struct ∨ other ∈ structs := by
  induction structs with
  | nil => simpa [insertByName] using member
  | cons first rest ih =>
    simp only [insertByName] at member
    split at member
    · simpa using member
    · split at member
      · rcases List.mem_cons.1 member with same | later
        · exact .inl same
        · exact .inr (List.mem_cons_of_mem _ later)
      · rcases List.mem_cons.1 member with same | later
        · exact .inr (same ▸ List.mem_cons_self)
        · exact (ih later).imp id (List.mem_cons_of_mem _)

/-- Ascending by name, and so without two structs of one name. -/
def Ascending (structs : List Struct) : Prop :=
  structs.Pairwise fun struct other => struct.name < other.name

theorem Ascending.insertByName {structs : List Struct} (ascending : Ascending structs)
    (struct : Struct) : Ascending (insertByName struct structs) := by
  induction structs with
  | nil => simp [Schema.insertByName, Ascending]
  | cons first rest ih =>
    obtain ⟨least, tail⟩ := List.pairwise_cons.1 ascending
    simp only [Schema.insertByName]
    split
    · rename_i before
      refine List.pairwise_cons.2 ⟨fun other member => ?_, ascending⟩
      rcases List.mem_cons.1 member with rfl | later
      · exact before
      · exact String.lt_trans before (least other later)
    · split
      · rename_i same
        exact List.pairwise_cons.2 ⟨fun other member => same ▸ least other member, tail⟩
      · rename_i notBefore notSame
        have after : first.name < struct.name :=
          Std.lt_of_le_of_ne (String.not_lt.1 notBefore) (Ne.symm notSame)
        refine List.pairwise_cons.2 ⟨fun other member => ?_, ih tail⟩
        rcases mem_insertByName member with rfl | later
        · exact after
        · exact least other later

/-- The structs of a schema, ascending by qualified name. -/
structure Registry where
  /-- The structs in order. -/
  structs : List Struct
  /-- No name stands before a smaller one, and none twice. -/
  ascending : Ascending structs

namespace Registry

instance : DecidableEq Registry := fun left right =>
  if same : left.structs = right.structs then
    .isTrue (by cases left; cases right; simp_all)
  else .isFalse fun equal => same (congrArg Registry.structs equal)

/-- The registry without structs. -/
def empty : Registry :=
  ⟨[], List.Pairwise.nil⟩

/-- The registry with a struct added, in place of one of the same name. -/
def insert (registry : Registry) (struct : Struct) : Registry :=
  ⟨insertByName struct registry.structs, registry.ascending.insertByName struct⟩

/-- The number of structs. -/
def size (registry : Registry) : Nat :=
  registry.structs.length

/-- Whether there is no struct. -/
def isEmpty (registry : Registry) : Bool :=
  registry.structs.isEmpty

/-- The qualified names in order. -/
def names (registry : Registry) : List String :=
  registry.structs.map Struct.name

/-- The struct of exactly this name. -/
def get? (registry : Registry) (name : String) : Option Struct :=
  registry.structs.find? fun struct => struct.name == name

/-- The struct for the last part of a name: the one of just that name, else the first in order
whose own name ends in that part. -/
def getUnqualified? (registry : Registry) (name : String) : Option Struct :=
  (registry.get? (unqualified name)).or
    (registry.structs.find? fun struct => unqualified struct.name == unqualified name)

/-- The struct that answers to a name. -/
def find? (registry : Registry) (name : String) : Option Struct :=
  (registry.get? name).or (registry.getUnqualified? name)

/-- The struct that answers to a name, or the fault that there is none. -/
def resolve (registry : Registry) (name : String) : Except Fault Struct :=
  match registry.find? name with
  | some struct => .ok struct
  | none => .error (.unknownStruct name)

/-! ### Direct look-up -/

theorem name_of_get? {registry : Registry} {name : String} {struct : Struct}
    (found : registry.get? name = some struct) : struct.name = name := by
  simpa using List.find?_some found

theorem get?_empty (name : String) : empty.get? name = none := rfl

theorem find?_insertByName (struct : Struct) (name : String) (structs : List Struct) :
    (insertByName struct structs).find? (fun other => other.name == name) =
      if struct.name = name then some struct
      else structs.find? fun other => other.name == name := by
  induction structs with
  | nil =>
    by_cases same : struct.name = name <;> simp [insertByName, same]
  | cons first rest ih =>
    simp only [insertByName]
    by_cases same : struct.name = name
    · split
      · simp [same]
      · split
        · simp [same]
        · rename_i other
          have differs : first.name ≠ name := fun equal => other (same.trans equal.symm)
          simp [differs, ih, same]
    · split
      · simp [same]
      · split
        · rename_i equal
          have differs : first.name ≠ name := fun h => same (equal.trans h)
          simp [same, differs]
        · simp [List.find?_cons, ih, same]

theorem get?_insert_self (registry : Registry) (struct : Struct) :
    (registry.insert struct).get? struct.name = some struct := by
  simp [get?, insert, find?_insertByName]

theorem get?_insert_of_ne (registry : Registry) {struct : Struct} {name : String}
    (other : struct.name ≠ name) : (registry.insert struct).get? name = registry.get? name := by
  simp [get?, insert, find?_insertByName, other]

/-! ### Resolution -/

theorem unqualified_of_resolve {registry : Registry} {name : String} {struct : Struct}
    (found : registry.resolve name = .ok struct) :
    unqualified struct.name = unqualified name := by
  simp only [resolve] at found
  split at found
  · rename_i answer hit
    cases found
    simp only [find?, getUnqualified?, Option.or_eq_some_iff] at hit
    rcases hit with direct | ⟨_, bare | ⟨_, search⟩⟩
    · rw [name_of_get? direct]
    · rw [name_of_get? bare, unqualified_unqualified]
    · simpa using List.find?_some search
  · cases found

end Registry

end RecordDiff.Schema
