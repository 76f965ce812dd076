import RecordDiff.Proofs.OnePass
import RecordDiff.Proofs.Resolution

/-!
Structs that are declared inside others. The braces of a text give it the shape of a tree, and every
struct in it has a place: the names of the structs around it. A registry keeps no more of that place
than the name of the struct directly around, so it is the registered names that have to differ for
every declaration to be kept. Main statements:

- `readBody_bodies`: reading a body registers the structs that it declares, from the inside out;
- `Registry.eq_enter_of_ofString`: a schema is the registration of the structs that it declares;
- `Registry.size_foldl_insert_eq_iff`: registering structs keeps all of them exactly if their names
  differ;
- `nested_structs_kept`: which schemas keep all declarations, and that a field of a type declared
  beside it gets the layout of that declaration;
- `nested_structs_replaced`: places alone do not tell registered names apart.
-/

namespace RecordDiff.Schema

/-- A field as the body of a struct declares it, before its type is qualified. -/
structure Member where
  /-- The type token. -/
  token : String
  /-- The name. -/
  name : String
  /-- The number of elements. -/
  count : Nat
  /-- The comment that goes with the declaration. -/
  comment : String
  deriving DecidableEq, Repr

/-- The field that a member becomes in the struct of the given bare name. -/
def Member.fieldIn (enclosing : String) (member : Member) : Field :=
  ⟨member.name, qualify enclosing member.token, member.count, member.comment⟩

/-- What a body declares, in order. -/
inductive Body where
  /-- Nothing more. -/
  | done
  /-- A field, and what comes behind it. -/
  | member (member : Member) (rest : Body)
  /-- A struct of a bare name with what is inside it, and what comes behind it. -/
  | inner (bare : String) (inside rest : Body)
  deriving DecidableEq, Repr

/-- A struct as a text declares it: its bare name, the bare names of the structs around it with the
innermost first, and its body. -/
structure DeclaredStruct where
  bare : String
  around : List String
  body : Body
  deriving DecidableEq, Repr

namespace Body

/-- What one body declares and then another. -/
def append : Body → Body → Body
  | done, other => other
  | member field rest, other => member field (rest.append other)
  | inner bare inside rest, other => inner bare inside (rest.append other)

/-- The fields that a body declares itself. -/
def members : Body → List Member
  | done => []
  | member field rest => field :: rest.members
  | inner _ _ rest => rest.members

/-- The structs that a body declares itself, with the names of the structs around them. -/
def structs (around : List String) : Body → List DeclaredStruct
  | done => []
  | member _ rest => rest.structs around
  | inner bare inside rest => ⟨bare, around, inside⟩ :: rest.structs around

/-- All structs declared in a body, at any depth, in the order in which they end. -/
def allStructs (around : List String) : Body → List DeclaredStruct
  | done => []
  | member _ rest => rest.allStructs around
  | inner bare inside rest =>
    inside.allStructs (bare :: around) ++ ⟨bare, around, inside⟩ :: rest.allStructs around

/-- The fields of a body in the struct of the given bare name. -/
def fields (enclosing : String) (body : Body) : List Field :=
  body.members.map (Member.fieldIn enclosing)

end Body

namespace DeclaredStruct

/-- The place of a struct: the bare names from its own outwards. -/
def path (declared : DeclaredStruct) : List String :=
  declared.bare :: declared.around

/-- The name a struct is registered under: its own behind that of the struct directly around it. -/
def name (declared : DeclaredStruct) : String :=
  match declared.around with
  | [] => declared.bare
  | enclosing :: _ => enclosing ++ separator ++ declared.bare

/-- The struct with the fields that its own body declares. -/
def struct (declared : DeclaredStruct) : Struct :=
  ⟨declared.name, declared.body.fields declared.bare⟩

/-- The structs declared directly inside. -/
def inner (declared : DeclaredStruct) : List DeclaredStruct :=
  declared.body.structs declared.path

end DeclaredStruct

/-! ### The tree of a text -/

/-- Bodies, the innermost first, with a field declared in front of the first. -/
def declareIn (member : Member) (bodies : List Body) : List Body :=
  .member member (bodies.headD .done) :: bodies.tail

/-- Bodies, the innermost first, where the first is that of a struct declared in the second. -/
def encloseIn (bare : String) (bodies : List Body) : List Body :=
  .inner bare (bodies.headD .done) (bodies.tail.headD .done) :: bodies.tail.tail

/-- What lines declare from where they start: in the body that they start in, behind its end in the
body around it, and so on outwards. Bodies that are not ended declare nothing beyond the lines. -/
def bodies : List LogicalLine → List Body
  | [] => []
  | line :: rest =>
    match line.piece with
    | .opening => bodies rest
    | .closing => .done :: bodies rest
    | .declaration text comment =>
      match structName? text with
      | some bare => encloseIn (String.ofList bare) (bodies rest)
      | none =>
        match readDeclaration line.number text with
        | .error _ => bodies rest
        | .ok (token, name, count) => declareIn ⟨token, name, count, comment⟩ (bodies rest)

/-- What lines declare outside of every struct, where a closing brace ends nothing. -/
def outermost (lines : List LogicalLine) : Body :=
  (bodies lines).foldr Body.append .done

/-- All structs that a schema declares, at any depth, in the order in which they end. -/
def declaredStructs (source : String) : List DeclaredStruct :=
  (outermost (LogicalLine.ofText source.toList)).allStructs []

/-- The registry with declared structs entered one after the other. -/
def Registry.enter (registry : Registry) (declared : List DeclaredStruct) : Registry :=
  (declared.map DeclaredStruct.struct).foldl Registry.insert registry

/-- The struct of a bare name with the fields that a body declares behind those found before. -/
def Struct.complete (struct : Struct) (bare : String) (body : Body) : Struct :=
  ⟨struct.name, struct.fields ++ body.fields bare⟩

/-- `LastOfName all declared`: of the structs in order, none of the same registered name comes
behind the declared one. -/
def LastOfName (all : List DeclaredStruct) (declared : DeclaredStruct) : Prop :=
  ∃ front back, all = front ++ declared :: back ∧ ∀ other ∈ back, other.name ≠ declared.name

/-- `registry.Resolves field declared`: the field holds structs, and they have just the fields that
the declared struct has. -/
def Registry.Resolves (registry : Registry) (field : Field) (declared : DeclaredStruct) : Prop :=
  ∃ name struct, field.kind = .nested name ∧ registry.resolve name = .ok struct ∧
    struct.fields = declared.struct.fields

/-! ### Reading registers what is declared -/

section Reading

variable {lines : List LogicalLine} {bare : String} {struct : Struct} {registry result : Registry}

theorem Registry.enter_append (registry : Registry) (front back : List DeclaredStruct) :
    registry.enter (front ++ back) = (registry.enter front).enter back := by
  rw [enter, enter, enter, List.map_append, List.foldl_append]

theorem Registry.enter_cons (registry : Registry) (declared : DeclaredStruct)
    (rest : List DeclaredStruct) :
    registry.enter (declared :: rest) = (registry.insert declared.struct).enter rest := rfl

theorem Struct.complete_push (struct : Struct) (bare : String) (member : Member) (body : Body) :
    (struct.push (member.fieldIn bare)).complete bare body =
      struct.complete bare (.member member body) := by
  simp [complete, push, Body.fields, Body.members]

/-- Reading a body registers the structs that it declares, from the inside out, and goes on where
the body ends. -/
theorem readBody_bodies {reading : Reading lines} (around : List String)
    (read : readBody bare struct registry lines = .ok reading) :
    reading.registry =
        (registry.enter (((bodies lines).headD .done).allStructs (bare :: around))).insert
          (struct.complete bare ((bodies lines).headD .done)) ∧
      bodies reading.rest = (bodies lines).tail := by
  fun_induction readBody bare struct registry lines generalizing around with
  | case1 bare struct registry =>
    cases read
    simp [bodies, Body.allStructs, Registry.enter, Struct.complete, Body.fields, Body.members]
  | case2 bare struct registry line rest opening ih =>
    obtain ⟨inner, found, rfl⟩ := Reading.map_behind_eq_ok read
    simp only [bodies, opening]
    exact ih around found
  | case3 bare struct registry line rest closing =>
    cases read
    simp [bodies, closing, Body.allStructs, Registry.enter, Struct.complete, Body.fields,
      Body.members]
  | case4 => cases read
  | case5 => cases read
  | case6 bare struct registry line rest text comment piece nested opens inner foundInner outer
      foundOuter ihInner ihOuter =>
    cases read
    obtain ⟨entered, behind⟩ := ihInner (bare :: around) foundInner
    obtain ⟨enteredOuter, behindOuter⟩ := ihOuter around foundOuter
    simp only [bodies, piece, opens, encloseIn, List.headD_cons, List.tail_cons, Body.allStructs]
    rw [← behind, Registry.enter_append, Registry.enter_cons]
    refine ⟨enteredOuter.trans ?_, behindOuter⟩
    rw [entered]
    rfl
  | case7 => cases read
  | case8 bare struct registry line rest text comment piece opensNone token name count declaration
      ih =>
    obtain ⟨inner, found, rfl⟩ := Reading.map_behind_eq_ok read
    simp only [bodies, piece, opensNone, declaration, declareIn, List.headD_cons, List.tail_cons,
      Body.allStructs]
    rw [← Struct.complete_push]
    exact ih around found

theorem foldr_append_eq (levels : List Body) :
    (levels.headD .done).append (levels.tail.foldr Body.append .done) =
      levels.foldr Body.append .done := by
  cases levels <;> rfl

/-- Reading lines outside of every struct registers the structs that they declare. -/
theorem readLines_outermost (read : readLines registry lines = .ok result) :
    result = registry.enter ((outermost lines).allStructs []) := by
  fun_induction readLines registry lines with
  | case1 registry =>
    cases read
    rfl
  | case2 => cases read
  | case3 registry line rest text comment piece nested opens reading found ih =>
    obtain ⟨entered, behind⟩ := readBody_bodies [] found
    rw [ih read, entered]
    simp only [outermost, bodies, piece, opens, encloseIn, List.foldr_cons, Body.append,
      Body.allStructs, ← behind]
    rw [foldr_append_eq, Registry.enter_append, Registry.enter_cons]
    rfl
  | case4 registry line rest text comment piece opensNone ih =>
    rw [ih read]
    simp only [outermost, bodies, piece, opensNone]
    cases readDeclaration line.number text with
    | error fault => rfl
    | ok declaration =>
      simp only [declareIn, List.foldr_cons, Body.append, Body.allStructs]
      rw [foldr_append_eq]
  | case5 registry line rest brace ih =>
    rw [ih read]
    cases piece : line.piece with
    | opening => simp only [outermost, bodies, piece]
    | closing => simp only [outermost, bodies, piece, List.foldr_cons, Body.append]
    | declaration text comment => exact absurd piece (brace text comment)

/-- A schema is the registration of the structs that it declares. -/
theorem Registry.eq_enter_of_ofString {source : String}
    (read : Registry.ofString source = .ok registry) :
    registry = Registry.empty.enter (declaredStructs source) :=
  readLines_outermost (readLines_of_ofString read)

end Reading

/-! ### Registering structs -/

section Registering

variable {registry : Registry} {structs : List Struct} {struct : Struct} {name : String}

theorem length_insertByName (ascending : Ascending structs) :
    (insertByName struct structs).length =
      if struct.name ∈ structs.map Struct.name then structs.length else structs.length + 1 := by
  induction structs with
  | nil => rfl
  | cons first rest ih =>
    obtain ⟨least, tail⟩ := List.pairwise_cons.1 ascending
    rw [insertByName]
    split
    · rename_i before
      -- all names from here on are greater
      have absent : struct.name ∉ (first :: rest).map Struct.name := by
        intro member
        obtain ⟨other, at?, same⟩ := List.mem_map.1 member
        rcases List.mem_cons.1 at? with rfl | later
        · exact absurd (same ▸ before) (String.lt_irrefl _)
        · exact absurd (String.lt_trans before (least other later)) (same ▸ String.lt_irrefl _)
      rw [if_neg absent, List.length_cons]
    · split
      · rename_i same
        rw [if_pos (by rw [same]; exact List.mem_cons_self), List.length_cons, List.length_cons]
      · rename_i other
        rw [List.length_cons, ih tail, List.map_cons, List.length_cons]
        by_cases later : struct.name ∈ rest.map Struct.name
        · rw [if_pos later, if_pos (List.mem_cons_of_mem _ later)]
        · rw [if_neg later, if_neg (by simp [other, later])]

namespace Registry

theorem mem_names_iff : name ∈ registry.names ↔ ∃ struct, registry.get? name = some struct := by
  simp [names, get?_eq_some_iff]

theorem mem_names_insert :
    name ∈ (registry.insert struct).names ↔ struct.name = name ∨ name ∈ registry.names := by
  rw [mem_names_iff, mem_names_iff]
  by_cases same : struct.name = name
  · subst same
    simp [get?_insert_self]
  · simp [get?_insert_of_ne registry same, same]

theorem size_insert :
    (registry.insert struct).size =
      if struct.name ∈ registry.names then registry.size else registry.size + 1 :=
  length_insertByName registry.ascending

theorem size_foldl_insert_le (registry : Registry) (structs : List Struct) :
    (structs.foldl Registry.insert registry).size ≤ registry.size + structs.length := by
  induction structs generalizing registry with
  | nil => exact Nat.le_refl _
  | cons first rest ih =>
    have grown := ih (registry.insert first)
    rw [size_insert] at grown
    rw [List.foldl_cons, List.length_cons]
    split at grown <;> omega

/-- Registering structs keeps all of them exactly if their names differ from each other and from
those registered before. -/
theorem size_foldl_insert_eq_iff :
    (structs.foldl Registry.insert registry).size = registry.size + structs.length ↔
      (structs.map Struct.name).Nodup ∧ ∀ struct ∈ structs, struct.name ∉ registry.names := by
  induction structs generalizing registry with
  | nil => simp
  | cons first rest ih =>
    have bound := size_foldl_insert_le (registry.insert first) rest
    rw [List.foldl_cons, List.length_cons, List.map_cons, List.nodup_cons, List.forall_mem_cons]
    by_cases known : first.name ∈ registry.names
    · rw [size_insert, if_pos known] at bound
      constructor
      · intro kept
        omega
      · rintro ⟨-, fresh, -⟩
        exact absurd known fresh
    · have grown : (registry.insert first).size = registry.size + 1 := by
        rw [size_insert, if_neg known]
      have total : registry.size + (rest.length + 1) =
          (registry.insert first).size + rest.length := by omega
      rw [total, ih]
      simp only [mem_names_insert, not_or, List.mem_map, not_exists, not_and]
      constructor
      · rintro ⟨distinct, fresh⟩
        exact ⟨⟨fun other member same => (fresh other member).1 same.symm, distinct⟩, known,
          fun other member => (fresh other member).2⟩
      · rintro ⟨⟨apart, distinct⟩, -, fresh⟩
        exact ⟨distinct, fun other member => ⟨fun same => apart other member same.symm,
          fresh other member⟩⟩

theorem get?_foldl_insert_of_ne (others : ∀ struct ∈ structs, struct.name ≠ name) :
    (structs.foldl Registry.insert registry).get? name = registry.get? name := by
  induction structs generalizing registry with
  | nil => rfl
  | cons first rest ih =>
    obtain ⟨other, later⟩ := List.forall_mem_cons.1 others
    rw [List.foldl_cons, ih later, get?_insert_of_ne registry other]

/-- Under each name is found the struct that was registered last under it. -/
theorem get?_foldl_insert_append {front back : List Struct}
    (last : ∀ other ∈ back, other.name ≠ struct.name) :
    ((front ++ struct :: back).foldl Registry.insert registry).get? struct.name = some struct := by
  rw [List.foldl_append, List.foldl_cons, get?_foldl_insert_of_ne last, get?_insert_self]

end Registry

end Registering

/-! ### Structs inside others -/

section Nested

variable {registry : Registry} {source : String} {declared inner : DeclaredStruct}
  {around : List String}

theorem Body.mem_allStructs_of_mem_structs {body : Body} (member : inner ∈ body.structs around) :
    inner ∈ body.allStructs around := by
  induction body with
  | done => cases member
  | member field rest ih => exact ih member
  | inner bare inside rest ihInside ihRest =>
    rw [allStructs]
    refine List.mem_append_right _ ?_
    rcases List.mem_cons.1 member with rfl | later
    · exact List.mem_cons_self
    · exact List.mem_cons_of_mem _ (ihRest later)

theorem Body.around_of_mem_structs {body : Body} (member : inner ∈ body.structs around) :
    inner.around = around := by
  induction body with
  | done => cases member
  | member field rest ih => exact ih member
  | inner bare inside rest ihInside ihRest =>
    rcases List.mem_cons.1 member with rfl | later
    · rfl
    · exact ihRest later

/-- A struct directly inside one that a body declares is declared by that body as well. -/
theorem Body.inner_mem_allStructs {body : Body} (member : declared ∈ body.allStructs around)
    (inside : inner ∈ declared.inner) : inner ∈ body.allStructs around := by
  induction body generalizing around with
  | done => cases member
  | member field rest ih => exact ih member
  | inner bare within rest ihWithin ihRest =>
    rw [allStructs, List.mem_append] at member ⊢
    rcases member with deeper | here
    · exact .inl (ihWithin deeper)
    · rcases List.mem_cons.1 here with rfl | later
      · exact .inl (mem_allStructs_of_mem_structs inside)
      · exact .inr (List.mem_cons_of_mem _ (ihRest later))

theorem DeclaredStruct.name_of_mem_inner (inside : inner ∈ declared.inner) :
    inner.name = declared.bare ++ separator ++ inner.bare := by
  rw [name, Body.around_of_mem_structs inside]
  rfl

theorem Member.kind_fieldIn {member : Member} {enclosing : String}
    (noPrimitive : Kind.ofToken? member.token = none)
    (unparted : ¬separator.toList <:+: member.token.toList) :
    (member.fieldIn enclosing).kind = .nested (enclosing ++ separator ++ member.token) := by
  have unqualified : isQualified member.token = false := by
    rw [← Bool.not_eq_true, isQualified_iff]
    exact unparted
  simp [fieldIn, qualify, noPrimitive, unqualified]

/-- A declared struct is found under its registered name, unless another of that name ends behind
it. -/
theorem LastOfName.get?_name (read : Registry.ofString source = .ok registry)
    (last : LastOfName (declaredStructs source) declared) :
    registry.get? declared.name = some declared.struct := by
  obtain ⟨front, back, all, others⟩ := last
  rw [Registry.eq_enter_of_ofString read, all, Registry.enter, List.map_append, List.map_cons]
  refine Registry.get?_foldl_insert_append fun other member => ?_
  obtain ⟨behind, at?, rfl⟩ := List.mem_map.1 member
  exact others behind at?

theorem lastOfName_of_nodup {all : List DeclaredStruct}
    (distinct : (all.map DeclaredStruct.name).Nodup) (member : declared ∈ all) :
    LastOfName all declared := by
  obtain ⟨front, back, rfl⟩ := List.append_of_mem member
  refine ⟨front, back, rfl, fun other behind same => ?_⟩
  rw [List.map_append, List.map_cons] at distinct
  have apart := (List.nodup_cons.1 (List.nodup_append.1 distinct).2.1).1
  exact apart (List.mem_map.2 ⟨other, behind, same⟩)

/-- Entering structs keeps all of them exactly if their registered names differ. -/
theorem Registry.size_enter_eq_iff {all : List DeclaredStruct} :
    (Registry.empty.enter all).size = all.length ↔ (all.map DeclaredStruct.name).Nodup := by
  have names : (all.map DeclaredStruct.struct).map Struct.name = all.map DeclaredStruct.name :=
    List.map_map
  have kept := @Registry.size_foldl_insert_eq_iff .empty (all.map DeclaredStruct.struct)
  rw [names, List.length_map] at kept
  simpa [Registry.enter, Registry.empty, Registry.size, Registry.names] using kept

end Nested

/-! ### Which declarations are kept -/

section Kept

variable {source : String} {registry : Registry}

/-- Which structs of a schema are kept, however deep they are declared. As many are registered as
are declared exactly if their registered names differ. A declared struct is found with its own
fields under its registered name if it is the last to end of that name, and then every field of that
type in the struct directly around it gets just these fields, where the type is one that is looked
up there at all: no primitive token, and none with a separator in it. -/
theorem nested_structs_kept (read : Registry.ofString source = .ok registry) :
    (registry.size = (declaredStructs source).length ↔
        ((declaredStructs source).map DeclaredStruct.name).Nodup) ∧
      (((declaredStructs source).map DeclaredStruct.name).Nodup →
        ∀ declared ∈ declaredStructs source,
          LastOfName (declaredStructs source) declared ∧
            ∀ inner ∈ declared.inner, LastOfName (declaredStructs source) inner) ∧
      (∀ declared, LastOfName (declaredStructs source) declared →
        registry.get? declared.name = some declared.struct) ∧
      ∀ declared ∈ declaredStructs source, ∀ inner ∈ declared.inner,
        LastOfName (declaredStructs source) inner →
          ∀ member ∈ declared.body.members, member.token = inner.bare →
            Kind.ofToken? member.token = none → ¬separator.toList <:+: member.token.toList →
            registry.Resolves (member.fieldIn declared.bare) inner := by
  refine ⟨?_, fun distinct declared member => ⟨lastOfName_of_nodup distinct member, ?_⟩,
    fun declared last => last.get?_name read, ?_⟩
  · rw [Registry.eq_enter_of_ofString read]
    exact Registry.size_enter_eq_iff
  · intro inner inside
    exact lastOfName_of_nodup distinct (Body.inner_mem_allStructs member inside)
  · intro declared _ inner inside last member _ same noPrimitive unparted
    have answer : registry.resolve inner.name = .ok inner.struct := by
      obtain ⟨registered, named⟩ := Registry.get?_eq_some_iff.1 (last.get?_name read)
      exact Registry.resolve_eq_ok_iff_answers.2 (.exact registered named)
    rw [DeclaredStruct.name_of_mem_inner inside, ← same] at answer
    exact ⟨_, _, Member.kind_fieldIn noPrimitive unparted, answer, rfl⟩

/-- Three structs, one inside the other, and a field of the innermost. -/
def threeDeep : String :=
  "struct A { struct B { C c; struct C { uint8_t x; } } }"

theorem nested_structs_kept_of_threeDeep :
    ∃ registry, Registry.ofString threeDeep = .ok registry ∧ registry.size = 3 ∧
      registry.Resolves ⟨"c", .nested "B::C", 1, ""⟩
        ⟨"C", ["B", "A"], .member ⟨"uint8_t", "x", 1, ""⟩ .done⟩ := by
  obtain ⟨inked, distinct, outer⟩ : Text.isAllBlank threeDeep.toList = false ∧
      ((declaredStructs threeDeep).map DeclaredStruct.name).Nodup ∧
      ⟨"B", ["A"], .member ⟨"C", "c", 1, ""⟩
        (.inner "C" (.member ⟨"uint8_t", "x", 1, ""⟩ .done) .done)⟩ ∈
          declaredStructs threeDeep := by decide +kernel
  have read : Registry.ofString threeDeep =
      .ok (((Registry.empty.insert ⟨"B::C", [⟨"x", .byte, 1, ""⟩]⟩).insert
        ⟨"A::B", [⟨"c", .nested "B::C", 1, ""⟩]⟩).insert ⟨"A", []⟩) :=
    ofString_of_run inked rfl rfl
  obtain ⟨-, last, -, fields⟩ := nested_structs_kept read
  refine ⟨_, read, rfl, ?_⟩
  exact fields _ outer _ List.mem_cons_self ((last distinct _ outer).2 _ List.mem_cons_self)
    ⟨"C", "c", 1, ""⟩ List.mem_cons_self rfl rfl (by decide)

/-! ### Which are not -/

/-- Every field of a type that is declared beside it gets the fields of that declaration. -/
def Registry.KeepsInner (registry : Registry) (source : String) : Prop :=
  ∀ declared ∈ declaredStructs source, ∀ inner ∈ declared.inner,
    ∀ member ∈ declared.body.members, member.token = inner.bare →
      registry.Resolves (member.fieldIn declared.bare) inner

/-- Two structs of one name, each inside a struct of one name, in different structs. -/
def twoScopes : String :=
  "struct A { struct B { C c; struct C { uint8_t x; } } }
   struct D { struct B { struct C { uint16le y; } } }"

/-- A struct that bears the name of a primitive type. -/
def primitiveName : String :=
  "struct S { char c; struct char { uint16le x; } }"

/-- A struct with a separator in the name it is declared with. -/
def separatorName : String :=
  "struct Y { uint8_t x; } struct S { X::Y y; struct X::Y { uint16le z; } }"

/-- Structs at different places can be registered under one name, and then only the last of them is
kept. Where a type token is primitive or has a separator in it, a struct of that name beside the
field is not even looked for. -/
theorem nested_structs_replaced :
    (∃ registry, Registry.ofString twoScopes = .ok registry ∧
        ((declaredStructs twoScopes).map DeclaredStruct.path).Nodup ∧
        registry.size < (declaredStructs twoScopes).length ∧ ¬registry.KeepsInner twoScopes) ∧
      (∃ registry, Registry.ofString primitiveName = .ok registry ∧
        ((declaredStructs primitiveName).map DeclaredStruct.path).Nodup ∧
        ¬registry.KeepsInner primitiveName) ∧
      ∃ registry, Registry.ofString separatorName = .ok registry ∧
        ((declaredStructs separatorName).map DeclaredStruct.path).Nodup ∧
        ¬registry.KeepsInner separatorName := by
  refine ⟨?_, ?_, ?_⟩
  · obtain ⟨inked, paths, outer⟩ : Text.isAllBlank twoScopes.toList = false ∧
        (declaredStructs twoScopes).map DeclaredStruct.path =
          [["C", "B", "A"], ["B", "A"], ["A"], ["C", "B", "D"], ["B", "D"], ["D"]] ∧
        ⟨"B", ["A"], .member ⟨"C", "c", 1, ""⟩
          (.inner "C" (.member ⟨"uint8_t", "x", 1, ""⟩ .done) .done)⟩ ∈
            declaredStructs twoScopes := by decide +kernel
    have read : Registry.ofString twoScopes = .ok (((((Registry.empty.insert
        ⟨"A::B", [⟨"c", .nested "B::C", 1, ""⟩]⟩).insert ⟨"A", []⟩).insert
        ⟨"B::C", [⟨"y", .word, 1, ""⟩]⟩).insert ⟨"D::B", []⟩).insert ⟨"D", []⟩) :=
      ofString_of_run inked rfl rfl
    have declared : (declaredStructs twoScopes).length = 6 := by
      rw [← List.length_map, paths]
      rfl
    refine ⟨_, read, by rw [paths]; decide, by rw [declared]; decide, fun keeps => ?_⟩
    obtain ⟨name, struct, kind, found, fields⟩ := keeps _ outer _ List.mem_cons_self
      ⟨"C", "c", 1, ""⟩ List.mem_cons_self rfl
    cases kind
    cases found
    exact absurd fields (by decide)
  · obtain ⟨inked, distinct, outer⟩ : Text.isAllBlank primitiveName.toList = false ∧
        ((declaredStructs primitiveName).map DeclaredStruct.path).Nodup ∧
        ⟨"S", [], .member ⟨"char", "c", 1, ""⟩
          (.inner "char" (.member ⟨"uint16le", "x", 1, ""⟩ .done) .done)⟩ ∈
            declaredStructs primitiveName := by decide +kernel
    have read : Registry.ofString primitiveName = .ok ((Registry.empty.insert
        ⟨"S::char", [⟨"x", .word, 1, ""⟩]⟩).insert ⟨"S", [⟨"c", .text, 1, ""⟩]⟩) :=
      ofString_of_run inked rfl rfl
    refine ⟨_, read, distinct, fun keeps => ?_⟩
    obtain ⟨name, struct, kind, -⟩ := keeps _ outer _ List.mem_cons_self
      ⟨"char", "c", 1, ""⟩ List.mem_cons_self rfl
    cases kind
  · obtain ⟨inked, distinct, outer⟩ : Text.isAllBlank separatorName.toList = false ∧
        ((declaredStructs separatorName).map DeclaredStruct.path).Nodup ∧
        ⟨"S", [], .member ⟨"X::Y", "y", 1, ""⟩
          (.inner "X::Y" (.member ⟨"uint16le", "z", 1, ""⟩ .done) .done)⟩ ∈
            declaredStructs separatorName := by decide +kernel
    have read : Registry.ofString separatorName = .ok (((Registry.empty.insert
        ⟨"Y", [⟨"x", .byte, 1, ""⟩]⟩).insert ⟨"S::X::Y", [⟨"z", .word, 1, ""⟩]⟩).insert
        ⟨"S", [⟨"y", .nested "X::Y", 1, ""⟩]⟩) :=
      ofString_of_run inked rfl rfl
    refine ⟨_, read, distinct, fun keeps => ?_⟩
    obtain ⟨name, struct, kind, found, fields⟩ := keeps _ outer _ List.mem_cons_self
      ⟨"X::Y", "y", 1, ""⟩ List.mem_cons_self rfl
    cases kind
    cases found
    exact absurd fields (by decide)

end Kept

end RecordDiff.Schema
