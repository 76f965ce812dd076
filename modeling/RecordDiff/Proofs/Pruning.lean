import RecordDiff.Proofs.Walking

/-!
Filters as pruning. What a filter leaves of a comparison can be told from the full view alone: rows
are taken away from the bottom up, and nothing else changes. Main statements:

- `isPrecomputed_elementLabel`: the index in the label of an element never makes it look computed;
- `walkLayout_prune`: a walk under a filter is the full walk with its rows pruned;
- `compareLabeled_eq_pruned`: a comparison under a filter is the full comparison pruned below its
  root row, faults and octets read included.
-/

namespace RecordDiff.Text

/-! ### Parts of a text -/

variable {part suffix : List Char}

/-- A text that shares no character with a part adds nothing at whose front the part could end. -/
theorem isPrefixOf_append_of_apart (apart : ∀ c ∈ suffix, c ∉ part) (text : List Char) :
    part.isPrefixOf (text ++ suffix) = part.isPrefixOf text := by
  induction part generalizing text with
  | nil => simp
  | cons p rest ih =>
    have apartRest : ∀ c ∈ suffix, c ∉ rest :=
      fun c member inRest => apart c member (List.mem_cons_of_mem p inRest)
    cases text with
    | nil =>
      cases suffix with
      | nil => rfl
      | cons c more =>
        have differs : p ≠ c := fun same => apart c List.mem_cons_self (same ▸ List.mem_cons_self)
        simp [List.isPrefixOf, differs]
    | cons c more => simp only [List.cons_append, List.isPrefixOf, ih apartRest more]

/-- Putting a text behind another makes no part occur that shares no character with it. -/
theorem contains_append_of_apart (inhabited : part ≠ []) (apart : ∀ c ∈ suffix, c ∉ part)
    (text : List Char) : contains part (text ++ suffix) = contains part text := by
  induction text with
  | nil =>
    induction suffix with
    | nil => rfl
    | cons c more ih =>
      have apartMore : ∀ c ∈ more, c ∉ part :=
        fun c member => apart c (List.mem_cons_of_mem _ member)
      have front := isPrefixOf_append_of_apart apart []
      simp only [List.nil_append] at ih front ⊢
      have step : contains part (c :: more) =
          (part.isPrefixOf (c :: more) || contains part more) := rfl
      rw [step, front, ih apartMore]
      cases part with
      | nil => exact absurd rfl inhabited
      | cons p rest => rfl
  | cons c more ih =>
    rw [List.cons_append, contains, contains, ih, ← List.cons_append,
      isPrefixOf_append_of_apart apart]

end RecordDiff.Text

namespace RecordDiff.Comparison

open RecordDiff.Schema

namespace Filter

/-! ### Pruning -/

/-- Whether a leaf is taken away, where two records are compared or not: its label marks it as
unknown and such leaves are not shown, or its sides are equal and only differences are. -/
def removesLeaf (filter : Filter) (both : Bool) (label : String) (left right : Option String) :
    Bool :=
  (isUnknown label && !filter.showUnknown) || (filter.diffOnly && both && left == right)

/-- Whether a section is taken away, given what is left below: its label marks it as computed and
such sections are not shown, or nothing is left. -/
def removesSection (filter : Filter) (label : String) (kept : List Row) : Bool :=
  (isPrecomputed label && !filter.showPrecomputed) || kept.isEmpty

mutual

/-- What is left of a row when the rows below have been pruned. -/
def pruneRow (filter : Filter) (both : Bool) : Row → Option Row
  | ⟨label, comment, left, right, children⟩ =>
    if left.isSome || right.isSome then
      if filter.removesLeaf both label left right then none
      else some ⟨label, comment, left, right, children⟩
    else if filter.removesSection label (filter.pruneRows both children) then none
    else some ⟨label, comment, left, right, filter.pruneRows both children⟩

/-- What is left of rows, in the same order. -/
def pruneRows (filter : Filter) (both : Bool) : List Row → List Row
  | [] => []
  | row :: rest => (filter.pruneRow both row).toList ++ filter.pruneRows both rest

end

/-- The tree with the rows below its root pruned. The root row itself always stays. -/
def pruneTree (filter : Filter) (both : Bool) (tree : Tree) : Tree :=
  { tree with root := { tree.root with children := filter.pruneRows both tree.root.children } }

section Laws

variable {filter : Filter} {both : Bool} {field : Field} {label comment left right : String}

theorem pruneRows_append (front back : List Row) :
    filter.pruneRows both (front ++ back) =
      filter.pruneRows both front ++ filter.pruneRows both back := by
  induction front with
  | nil => rfl
  | cons row rest ih => rw [List.cons_append, pruneRows, pruneRows, ih, List.append_assoc]

theorem pruneRows_leaf :
    filter.pruneRows both [.leaf label comment left right] =
      if filter.removesLeaf both label (some left) (some right) then []
      else [.leaf label comment left right] := by
  simp only [pruneRows, Row.leaf, pruneRow, Option.isSome_some, Bool.true_or, if_true,
    List.append_nil]
  split <;> rfl

theorem pruneRows_branch (children : List Row) :
    filter.pruneRows both [.branch label children] =
      if filter.removesSection label (filter.pruneRows both children) then []
      else [.branch label (filter.pruneRows both children)] := by
  simp only [pruneRows, Row.branch, pruneRow, Option.isSome_none, Bool.or_self, Bool.false_eq_true,
    if_false, List.append_nil]
  split <;> rfl

/-- The index in the label of an element never makes it look computed, nor hides that it is. -/
theorem isPrecomputed_elementLabel (field : Field) (index : Nat) :
    isPrecomputed (field.elementLabel index) = isPrecomputed field.name := by
  unfold Field.elementLabel
  split
  · have digits : ∀ c ∈ Nat.toDigits 10 index, c.isDigit = true := fun c member =>
      Nat.isDigit_of_mem_toDigits (by decide) (by decide) member
    have apart : ∀ c ∈ '[' :: (Nat.toDigits 10 index ++ [']']),
        c ∉ ['P', 'r', 'e', 'c', 'o', 'm', 'p', 'u', 't', 'e', 'd'] := by
      intro c member marked
      rcases List.mem_cons.1 member with rfl | member
      · exact absurd marked (by decide)
      · rcases List.mem_append.1 member with digit | bracket
        · have letters : ['P', 'r', 'e', 'c', 'o', 'm', 'p', 'u', 't', 'e', 'd'].all
              (fun p => !p.isDigit) = true := by decide
          have letter : (!c.isDigit) = true := List.all_eq_true.1 letters c marked
          rw [digits c digit] at letter
          exact Bool.false_ne_true letter
        · rw [List.mem_singleton.1 bracket] at marked
          exact absurd marked (by decide)
    have text : (field.name ++ "[" ++ toString index ++ "]").toList =
        field.name.toList ++ '[' :: (Nat.toDigits 10 index ++ [']']) := by
      simp
    rw [isPrecomputed, isPrecomputed, text, Text.contains_append_of_apart (by simp) apart]
  · rfl

end Laws

end Filter

/-! ### Filtered walks -/

section Walks

variable {sides : Sides} {filter : Filter} {field : Field}

theorem decodeSide_isSome {record : Option (List UInt8)} {offset : Nat} {value : Option String}
    (decoded : decodeSide record offset field = .ok value) : value.isSome = record.isSome := by
  cases record with
  | none =>
    rw [← Except.ok.inj decoded]
    rfl
  | some octets =>
    simp only [decodeSide] at decoded
    cases shown : Record.decodeField octets offset field with
    | error fault => rw [shown] at decoded; cases decoded
    | ok text =>
      rw [shown] at decoded
      rw [← Except.ok.inj decoded]
      rfl

theorem leafRows_prune (left right : Option String) :
    leafRows (filter.against right.isSome) field left right =
      filter.pruneRows (left.isSome && right.isSome) (leafRows .showAll field left right) := by
  have agree : (filter.against right.isSome).keepsLeaf field.name left right =
      !filter.removesLeaf (left.isSome && right.isSome) field.name
        (some ((left.or right).getD "")) (some ((right.or left).getD "")) := by
    cases left <;> cases right <;>
      simp [Filter.keepsLeaf, Filter.against, Filter.removesLeaf, Bool.or_comm, Bool.and_comm]
  rw [leafRows, leafRows, Filter.showAll_keepsLeaf, if_pos rfl, Filter.pruneRows_leaf, agree]
  cases filter.removesLeaf (left.isSome && right.isSome) field.name
    (some ((left.or right).getD "")) (some ((right.or left).getD "")) <;> rfl

theorem sectionRows_prune (both hasRight : Bool) (index : Nat) (children : List Row) :
    sectionRows (filter.against hasRight) field index (filter.pruneRows both children) =
      filter.pruneRows both (sectionRows .showAll field index children) := by
  cases children with
  | nil => simp [sectionRows, Filter.keepsSection, Filter.pruneRows]
  | cons row rest =>
    have agree : (filter.against hasRight).keepsSection field.name
          (filter.pruneRows both (row :: rest)) =
        !filter.removesSection (field.elementLabel index)
          (filter.pruneRows both (row :: rest)) := by
      simp [Filter.keepsSection, Filter.against, Filter.removesSection,
        Filter.isPrecomputed_elementLabel, Bool.or_comm]
    rw [sectionRows, sectionRows, Filter.showAll_keepsSection, List.isEmpty_cons, Bool.not_false,
      if_pos rfl, Filter.pruneRows_branch, agree]
    cases filter.removesSection (field.elementLabel index)
      (filter.pruneRows both (row :: rest)) <;> rfl

theorem walkScalar_prune (cursor : Nat) :
    walkScalar sides (filter.against sides.right.isSome) field cursor =
      changeRows (filter.pruneRows (sides.left.isSome && sides.right.isSome))
        (walkScalar sides .showAll field cursor) := by
  unfold walkScalar
  cases field.checkSupported with
  | error fault => rfl
  | ok =>
    simp only
    cases decodedLeft : decodeSide sides.left cursor field with
    | error fault => rfl
    | ok left =>
      simp only
      cases decodedRight : decodeSide sides.right cursor field with
      | error fault => rfl
      | ok right =>
        simp only [changeRows, Except.map]
        rw [← decodeSide_isSome decodedLeft, ← decodeSide_isSome decodedRight, leafRows_prune]

/-- A walk under a filter is the full walk with its rows pruned. -/
theorem walkLayout_prune (layout : Layout) (cursor : Nat) :
    walkLayout sides (filter.against sides.right.isSome) layout cursor =
      changeRows (filter.pruneRows (sides.left.isSome && sides.right.isSome))
        (walkLayout sides .showAll layout cursor) := by
  induction layout generalizing cursor with
  | done => rfl
  | value field rest ih =>
    rw [walkLayout, walkLayout, walkScalar_prune, changeRows_followedBy Filter.pruneRows_append]
    congr 1
    funext behind
    exact ih behind
  | element field index inside rest ihInside ihRest =>
    rw [walkLayout, walkLayout]
    by_cases narrow : inside.width = 0
    · rw [if_pos narrow, if_pos narrow, ihRest]
    · rw [if_neg narrow, if_neg narrow, changeRows_followedBy Filter.pruneRows_append, ihInside,
        changeRows_changeRows, changeRows_changeRows]
      congr 1
      · congr 1
        funext children
        exact sectionRows_prune _ _ index children
      · funext behind
        exact ihRest behind

end Walks

/-- A comparison under a filter is the full comparison with the rows below its root pruned: it fails
with the same fault, or reads as many octets and shows what pruning leaves. -/
theorem compareLabeled_eq_pruned (registry : Registry) (sides : Sides) (filter : Filter)
    (root label : String) :
    compareLabeled registry sides filter root label =
      (compareLabeled registry sides .showAll root label).map
        (filter.pruneTree (sides.left.isSome && sides.right.isSome)) := by
  by_cases present : sides.Present
  · cases sized : registry.byteSize root with
    | error fault =>
      rw [compare_of_unsized present sized, compare_of_unsized present sized]
      rfl
    | ok size =>
      obtain ⟨layout, laid, -⟩ := Registry.layout_of_sizeWithin sized
      have full : Filter.showAll.against sides.right.isSome = .showAll := rfl
      rw [compareLabeled_of_sized present sized laid, compareLabeled_of_sized present sized laid,
        full, walkLayout_prune]
      cases walkLayout sides .showAll layout 0 with
      | error fault => rfl
      | ok walked => rfl
  · have absent : sides = ⟨none, none⟩ := by
      obtain ⟨left, right⟩ := sides
      cases left <;> cases right <;> simp [Sides.Present] at present ⊢
    rw [absent]
    rfl

end RecordDiff.Comparison
