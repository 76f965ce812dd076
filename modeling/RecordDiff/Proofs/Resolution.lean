import RecordDiff.Comparison.Walk
import RecordDiff.Proofs.OctetOrder

/-!
Which struct answers to a name. Names are told apart by what stands behind their last separator; of
the structs that end like a name the one of exactly that name has precedence, then the one of the
bare last part, then the first in the order of octets. Sizes and comparisons depend on the struct
that is found, and not on the name that found it. Main statements:

- `endsIn_iff`: the last part of a name is the text behind the last separator;
- `find?_eq_some_iff_first`: a search among ascending structs finds the one of the least name;
- `Registry.resolve_eq_ok_iff_answers`: resolution follows the rule of precedence, and nothing else;
- `Registry.resolve_prioritised`: which names are resolved and how, and that the name of the struct
  that is found may stand for the name it was found by.
-/

namespace RecordDiff.Schema

/-- `EndsIn name part`: the part is all of a name without separator, or else what stands behind the
last separator of the name. That separator is the last one if no other starts in its second half or
behind it. -/
def EndsIn (name part : String) : Prop :=
  (¬separator.toList <:+: name.toList ∧ part = name) ∨
    ∃ front, name.toList = front ++ separator.toList ++ part.toList ∧
      ¬separator.toList <:+: ':' :: part.toList

/-- `registry.Answers name struct`: the struct has precedence among those that end like the name. -/
inductive Registry.Answers (registry : Registry) (name : String) : Struct → Prop where
  /-- The struct of exactly that name. -/
  | exact {struct : Struct} (member : struct ∈ registry.structs) (same : struct.name = name) :
      Answers registry name struct
  /-- The struct of the bare last part, if none has exactly the name. -/
  | bare {struct : Struct} (noExact : ∀ other ∈ registry.structs, other.name ≠ name)
      (member : struct ∈ registry.structs) (same : struct.name = unqualified name) :
      Answers registry name struct
  /-- The first struct by its octets that ends in the last part, if there is neither. -/
  | first {struct : Struct} (noExact : ∀ other ∈ registry.structs, other.name ≠ name)
      (noBare : ∀ other ∈ registry.structs, other.name ≠ unqualified name)
      (member : struct ∈ registry.structs) (ends : unqualified struct.name = unqualified name)
      (least : ∀ other ∈ registry.structs, unqualified other.name = unqualified name →
        other = struct ∨ Text.Utf8.Before struct.name other.name) :
      Answers registry name struct

/-! ### Last parts -/

section Parts

variable {text part : List Char} {name : String}

theorem lastPart?_cons (c : Char) (rest : List Char) :
    lastPart? (c :: rest) =
      (lastPart? rest).or
        (if separator.toList <+: c :: rest then some (rest.drop 1) else none) := by
  have colons : separator.toList = [':', ':'] := rfl
  rw [colons]
  conv => lhs; unfold lastPart?
  cases lastPart? rest with
  | some part => rfl
  | none =>
    rw [Option.none_or]
    dsimp only
    split
    · rename_i part
      exact (if_pos ⟨part, rfl⟩).symm
    · rename_i other
      refine (if_neg fun starts => ?_).symm
      obtain ⟨back, whole⟩ := starts
      obtain ⟨rfl, rfl⟩ := List.cons.inj whole
      exact other back rfl rfl

/-- A text has no last part exactly if it has no separator. -/
theorem lastPart?_eq_none_iff : lastPart? text = none ↔ ¬separator.toList <:+: text := by
  induction text with
  | nil => simp [lastPart?, separator]
  | cons c rest ih =>
    rw [lastPart?_cons, Option.or_eq_none_iff, ih, List.infix_cons_iff]
    by_cases starts : separator.toList <+: c :: rest <;> simp [starts]

/-- The last part of a text is what stands behind the last separator. -/
theorem lastPart?_eq_some_iff :
    lastPart? text = some part ↔
      ∃ front, text = front ++ separator.toList ++ part ∧ ¬separator.toList <:+: ':' :: part := by
  constructor
  · intro last
    induction text with
    | nil => cases last
    | cons c rest ih =>
      rw [lastPart?_cons, Option.or_eq_some_iff] at last
      rcases last with later | ⟨noLater, here⟩
      · obtain ⟨front, rfl, final⟩ := ih later
        exact ⟨c :: front, rfl, final⟩
      · split at here
        · rename_i starts
          obtain ⟨back, whole⟩ := starts
          obtain ⟨rfl, rfl⟩ := List.cons.inj whole
          cases here
          exact ⟨[], rfl, lastPart?_eq_none_iff.1 noLater⟩
        · cases here
  · rintro ⟨front, rfl, final⟩
    induction front with
    | nil =>
      have noLater : lastPart? (':' :: part) = none := lastPart?_eq_none_iff.2 final
      have starts : separator.toList <+: ':' :: ':' :: part := ⟨part, rfl⟩
      rw [List.nil_append]
      exact (lastPart?_cons ':' (':' :: part)).trans (by rw [noLater, if_pos starts]; rfl)
    | cons c front ih =>
      rw [List.cons_append, List.cons_append, lastPart?_cons, ih]
      rfl

theorem isQualified_iff : isQualified name = true ↔ separator.toList <:+: name.toList := by
  rw [isQualified, Option.isSome_iff_ne_none, ne_eq, lastPart?_eq_none_iff, Classical.not_not]

/-- The last part of a name is the text behind the last separator. -/
theorem endsIn_iff {part : String} : EndsIn name part ↔ unqualified name = part := by
  cases last : lastPart? name.toList with
  | none =>
    have unparted : ¬separator.toList <:+: name.toList := lastPart?_eq_none_iff.1 last
    have noneBehind : ¬∃ front, name.toList = front ++ separator.toList ++ part.toList ∧
        ¬separator.toList <:+: ':' :: part.toList :=
      fun ⟨front, whole, _⟩ => unparted ⟨front, part.toList, whole.symm⟩
    rw [EndsIn, unqualified, last, or_iff_left noneBehind, and_iff_right unparted, eq_comm]
  | some found =>
    obtain ⟨front, whole, final⟩ := lastPart?_eq_some_iff.1 last
    have parted : separator.toList <:+: name.toList := ⟨front, found, whole.symm⟩
    have behind : EndsIn name part ↔ lastPart? name.toList = some part.toList := by
      rw [lastPart?_eq_some_iff, EndsIn]
      simp [parted]
    rw [behind, last, unqualified, last]
    simp only [Option.some.injEq]
    rw [← String.ofList_inj, String.ofList_toList]

end Parts

/-! ### Searching -/

section Searching

variable {structs : List Struct} {registry : Registry} {struct : Struct} {name : String}

/-- A search among ascending structs finds the one of the least name. -/
theorem find?_eq_some_iff_first (ascending : Ascending structs) {asked : Struct → Bool} :
    structs.find? asked = some struct ↔
      struct ∈ structs ∧ asked struct = true ∧
        ∀ other ∈ structs, asked other = true → other = struct ∨ struct.name < other.name := by
  induction structs with
  | nil => simp
  | cons front rest ih =>
    obtain ⟨least, tail⟩ := List.pairwise_cons.1 ascending
    by_cases hit : asked front = true
    · rw [List.find?_cons_of_pos hit, Option.some.injEq]
      constructor
      · rintro rfl
        refine ⟨List.mem_cons_self, hit, fun other member _ => ?_⟩
        exact (List.mem_cons.1 member).imp id (least other)
      · rintro ⟨member, -, before⟩
        rcases List.mem_cons.1 member with rfl | later
        · rfl
        · rcases before front List.mem_cons_self hit with same | less
          · exact same
          · exact absurd (least struct later) (String.lt_asymm less)
    · rw [List.find?_cons_of_neg hit, ih tail]
      constructor
      · rintro ⟨member, holds, before⟩
        refine ⟨List.mem_cons_of_mem _ member, holds, fun other at? asks => ?_⟩
        rcases List.mem_cons.1 at? with rfl | later
        · exact absurd asks hit
        · exact before other later asks
      · rintro ⟨member, holds, before⟩
        rcases List.mem_cons.1 member with rfl | later
        · exact absurd holds hit
        · exact ⟨later, holds, fun other inRest => before other (List.mem_cons_of_mem _ inRest)⟩

namespace Registry

theorem get?_eq_none_iff :
    registry.get? name = none ↔ ∀ other ∈ registry.structs, other.name ≠ name := by
  simp [get?]

theorem get?_eq_some_iff :
    registry.get? name = some struct ↔ struct ∈ registry.structs ∧ struct.name = name := by
  constructor
  · intro found
    exact ⟨List.mem_of_find?_eq_some found, name_of_get? found⟩
  · rintro ⟨member, same⟩
    cases found : registry.get? name with
    | none => exact absurd same (get?_eq_none_iff.1 found struct member)
    | some other =>
      obtain ⟨-, -, before⟩ := (find?_eq_some_iff_first registry.ascending).1 found
      rcases before struct member (beq_iff_eq.2 same) with rfl | less
      · rfl
      · rw [name_of_get? found, same] at less
        exact absurd less (String.lt_irrefl name)

theorem resolve_eq_ok_iff_find? :
    registry.resolve name = .ok struct ↔ registry.find? name = some struct := by
  unfold resolve
  cases registry.find? name with
  | none => simp
  | some found => simp

/-- Resolution follows the rule of precedence, and nothing else. -/
theorem resolve_eq_ok_iff_answers :
    registry.resolve name = .ok struct ↔ registry.Answers name struct := by
  rw [resolve_eq_ok_iff_find?, find?, getUnqualified?]
  simp only [Option.or_eq_some_iff, get?_eq_none_iff, get?_eq_some_iff,
    find?_eq_some_iff_first registry.ascending, beq_iff_eq]
  constructor
  · rintro (⟨member, same⟩ | ⟨noExact, ⟨member, same⟩ | ⟨noBare, member, ends, least⟩⟩)
    · exact .exact member same
    · exact .bare noExact member same
    · refine .first noExact noBare member ends fun other at? endsToo => ?_
      exact (least other at? endsToo).imp id Text.Utf8.lt_iff_before.1
  · intro answers
    cases answers with
    | exact member same => exact .inl ⟨member, same⟩
    | bare noExact member same => exact .inr ⟨noExact, .inl ⟨member, same⟩⟩
    | first noExact noBare member ends least =>
      refine .inr ⟨noExact, .inr ⟨noBare, member, ends, fun other at? endsToo => ?_⟩⟩
      exact (least other at? endsToo).imp id Text.Utf8.lt_iff_before.2

theorem Answers.mem (answers : registry.Answers name struct) : struct ∈ registry.structs := by
  cases answers <;> assumption

/-- Some struct answers to a name exactly if one ends like the name. -/
theorem exists_resolve_iff :
    (∃ struct, registry.resolve name = .ok struct) ↔
      ∃ struct ∈ registry.structs, unqualified struct.name = unqualified name := by
  constructor
  · rintro ⟨struct, found⟩
    exact ⟨struct, (resolve_eq_ok_iff_answers.1 found).mem, unqualified_of_resolve found⟩
  · rintro ⟨struct, member, ends⟩
    cases found : registry.find? name with
    | some other => exact ⟨other, resolve_eq_ok_iff_find?.2 found⟩
    | none =>
      simp only [find?, getUnqualified?, Option.or_eq_none_iff] at found
      exact absurd (beq_iff_eq.2 ends) (List.find?_eq_none.1 found.2.2 struct member)

/-- A struct that is found answers to its own name. -/
theorem resolve_name (found : registry.resolve name = .ok struct) :
    registry.resolve struct.name = .ok struct :=
  resolve_eq_ok_iff_answers.2 (.exact (resolve_eq_ok_iff_answers.1 found).mem rfl)

/-! ### Names of one struct -/

theorem byteSize_congr {other : String} (same : registry.resolve name = registry.resolve other) :
    registry.byteSize name = registry.byteSize other := by
  rw [byteSize, byteSize, levelLimit, sizeWithin, sizeWithin, same]

theorem compareLabeled_congr {other : String}
    (same : registry.resolve name = registry.resolve other) (sides : Comparison.Sides)
    (filter : Comparison.Filter) (label : String) :
    Comparison.compareLabeled registry sides filter name label =
      Comparison.compareLabeled registry sides filter other label := by
  rw [Comparison.compareLabeled, Comparison.compareLabeled, byteSize_congr same, levelLimit,
    Comparison.walkWithin, Comparison.walkWithin, same]

end Registry

end Searching

/-! ### The rule of names -/

/-- Which struct answers to a name, in any registry. A name is resolved exactly if some struct ends
like it, and then to the struct that has precedence among these. The name of that struct is resolved
to the same struct, and gives the same size and the same comparisons as the name it was found by,
faults included. -/
theorem Registry.resolve_prioritised (registry : Registry) (name : String) :
    (∀ text part, EndsIn text part ↔ unqualified text = part) ∧
      ((∃ struct, registry.resolve name = .ok struct) ↔
        ∃ struct ∈ registry.structs, unqualified struct.name = unqualified name) ∧
      (∀ struct, registry.resolve name = .ok struct ↔ registry.Answers name struct) ∧
      ∀ struct, registry.resolve name = .ok struct →
        unqualified struct.name = unqualified name ∧
          registry.resolve struct.name = .ok struct ∧
          registry.byteSize struct.name = registry.byteSize name ∧
          ∀ sides filter label,
            Comparison.compareLabeled registry sides filter struct.name label =
              Comparison.compareLabeled registry sides filter name label := by
  refine ⟨fun text part => endsIn_iff, exists_resolve_iff, fun struct =>
    resolve_eq_ok_iff_answers, fun struct found => ?_⟩
  have again : registry.resolve struct.name = .ok struct := resolve_name found
  have same : registry.resolve struct.name = registry.resolve name := again.trans found.symm
  exact ⟨unqualified_of_resolve found, again, byteSize_congr same, compareLabeled_congr same⟩

/-- Structs whose names have more colons than a separator takes, or nothing behind one. -/
def colonRegistry : Registry :=
  ((Registry.empty.insert ⟨"Q:::T", []⟩).insert ⟨"B::T", [⟨"value", .word, 1, ""⟩]⟩).insert
    ⟨"P::", []⟩

theorem Registry.resolve_prioritised_of_colons :
    colonRegistry.resolve "Z:::T" = .ok ⟨"B::T", [⟨"value", .word, 1, ""⟩]⟩ ∧
      colonRegistry.Answers "Z:::T" ⟨"B::T", [⟨"value", .word, 1, ""⟩]⟩ ∧
      colonRegistry.byteSize "B::T" = colonRegistry.byteSize "Z:::T" ∧
      ∃ struct, colonRegistry.resolve "N::" = .ok struct := by
  have found : colonRegistry.resolve "Z:::T" = .ok ⟨"B::T", [⟨"value", .word, 1, ""⟩]⟩ := rfl
  obtain ⟨-, -, answers, names⟩ := Registry.resolve_prioritised colonRegistry "Z:::T"
  obtain ⟨-, -, size, -⟩ := names _ found
  refine ⟨found, (answers _).1 found, size, ?_⟩
  exact (Registry.resolve_prioritised colonRegistry "N::").2.1.2 ⟨⟨"P::", []⟩, by decide, rfl⟩

end RecordDiff.Schema
