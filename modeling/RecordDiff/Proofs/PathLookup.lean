import Mathlib.Data.List.Chain
import RecordDiff.Comparison.Row

/-!
Rows found by their paths. A path names one label for each level, and on each level the first row of
that label counts, so that a row can be found by its labels if no sibling in front of it, or in
front of a row above it, hides it. Main statements:

- `Row.pathLabels_eq_iff`: the labels of a path are the ones without dots that are joined in it;
- `Row.descend_eq_some_iff`: labels lead down along first rows of these labels, and only there;
- `Row.find?_follows_first`: the same for paths, and what a path leads to can be found in two steps.
-/

namespace RecordDiff.Comparison.Row

open Text (splitOn joinWith)

/-! ### Labels of a path -/

section Labels

variable {path front back : String} {labels : List String}

/-- A dot between two paths adds up their labels. -/
theorem pathLabels_append (front back : String) :
    pathLabels (front ++ "." ++ back) = pathLabels front ++ pathLabels back := by
  have cut : (front ++ "." ++ back).toList = front.toList ++ '.' :: back.toList := by simp
  rw [pathLabels, pathLabels, pathLabels, cut, Text.splitOn_append_cons, List.map_append]

/-- The labels of a path are the ones without dots that are joined in it. -/
theorem pathLabels_eq_iff :
    pathLabels path = labels ↔
      labels ≠ [] ∧ (∀ label ∈ labels, '.' ∉ label.toList) ∧ ".".intercalate labels = path := by
  have joined : ∀ labels : List String,
      (".".intercalate labels).toList = joinWith ['.'] (labels.map String.toList) := by
    intro labels
    rw [String.toList_intercalate, Text.joinWith_eq_intercalate]
    rfl
  have parts : (pathLabels path).map String.toList = splitOn '.' path.toList := by
    rw [pathLabels, List.map_map]
    exact (List.map_congr_left fun part _ => String.toList_ofList).trans (List.map_id _)
  constructor
  · rintro rfl
    refine ⟨?_, ?_, ?_⟩
    · rw [pathLabels, ne_eq, List.map_eq_nil_iff]
      exact Text.splitOn_ne_nil '.' path.toList
    · intro label member
      have inside : label.toList ∈ splitOn '.' path.toList := by
        rw [← parts]
        exact List.mem_map_of_mem member
      exact Text.not_mem_of_mem_splitOn inside
    · apply String.toList_injective
      rw [joined, parts, Text.joinWith_splitOn]
  · rintro ⟨nonempty, undotted, rfl⟩
    have unbroken : ∀ part ∈ labels.map String.toList, '.' ∉ part :=
      List.forall_mem_map.2 undotted
    rw [pathLabels, joined,
      Text.splitOn_joinWith (mt List.map_eq_nil_iff.1 nonempty) unbroken, List.map_map]
    exact (List.map_congr_left fun label _ => String.ofList_toList).trans (List.map_id _)

end Labels

/-! ### Ways down -/

/-- A row directly below another one, with no row of its label in front of it there. -/
def FirstChild (parent child : Row) : Prop :=
  ∃ front back, parent.children = front ++ child :: back ∧
    ∀ other ∈ front, other.label ≠ child.label

section Ways

variable {row child target : Row} {label : String} {labels : List String}

theorem child?_eq_some_iff :
    row.child? label = some child ↔ FirstChild row child ∧ child.label = label := by
  rw [child?, List.find?_eq_some_iff_append]
  constructor
  · rintro ⟨same, front, back, whole, others⟩
    obtain rfl : child.label = label := beq_iff_eq.1 same
    exact ⟨⟨front, back, whole, fun other member => by simpa using others other member⟩, rfl⟩
  · rintro ⟨⟨front, back, whole, others⟩, rfl⟩
    exact ⟨beq_self_eq_true _, front, back, whole, fun other member => by
      simpa using others other member⟩

/-- Labels lead down along the first rows of these labels, and only there. -/
theorem descend_eq_some_iff :
    row.descend labels = some target ↔
      ∃ way : List Row, (row :: way).IsChain FirstChild ∧ (row :: way).getLast? = some target ∧
        way.map Row.label = labels := by
  induction labels generalizing row with
  | nil =>
    rw [descend, Option.some.injEq]
    constructor
    · rintro rfl
      exact ⟨[], List.isChain_singleton _, rfl, rfl⟩
    · rintro ⟨way, -, last, none⟩
      obtain rfl := List.map_eq_nil_iff.1 none
      exact Option.some.inj last
  | cons label rest ih =>
    simp only [descend, Option.bind_eq_some_iff, child?_eq_some_iff, ih]
    constructor
    · rintro ⟨child, ⟨first, rfl⟩, way, chain, last, rfl⟩
      exact ⟨child :: way, List.isChain_cons_cons.2 ⟨first, chain⟩, last, rfl⟩
    · rintro ⟨way, chain, last, labelled⟩
      obtain ⟨child, way, rfl, rfl, rfl⟩ := List.map_eq_cons_iff.1 labelled
      obtain ⟨first, chain⟩ := List.isChain_cons_cons.1 chain
      exact ⟨child, ⟨first, rfl⟩, way, chain, last, rfl⟩

end Ways

/-! ### Paths -/

/-- A path leads to a row exactly if the row stands at the end of a way down, on which each row is
the first of its label among its siblings and none has a dot in its label, and the path is the
labels of that way with dots between them. And of a path with a dot in it, any dot, the part in
front leads to the row from which the part behind leads on. -/
theorem find?_follows_first (row : Row) :
    (∀ front back : String,
        row.find? (front ++ "." ++ back) =
          (row.find? front).bind fun inner => inner.find? back) ∧
      ∀ (path : String) (target : Row),
        row.find? path = some target ↔
          ∃ way : List Row, (row :: way).IsChain FirstChild ∧ way.getLast? = some target ∧
            (∀ step ∈ way, '.' ∉ step.label.toList) ∧
            ".".intercalate (way.map Row.label) = path := by
  constructor
  · intro front back
    rw [find?, pathLabels_append, descend_append]
    rfl
  · intro path target
    rw [find?, descend_eq_some_iff]
    constructor
    · rintro ⟨way, chain, last, labelled⟩
      obtain ⟨nonempty, undotted, joined⟩ := pathLabels_eq_iff.1 labelled.symm
      have some? : way ≠ [] := mt List.map_eq_nil_iff.2 nonempty
      rw [List.getLast?_cons_of_ne_nil some?] at last
      exact ⟨way, chain, last, fun step member => undotted _ (List.mem_map_of_mem member), joined⟩
    · rintro ⟨way, chain, last, undotted, joined⟩
      have some? : way ≠ [] := by
        rintro rfl
        cases last
      rw [← List.getLast?_cons_of_ne_nil some?] at last
      have nonempty : way.map Row.label ≠ [] := mt List.map_eq_nil_iff.1 some?
      exact ⟨way, chain, last,
        (pathLabels_eq_iff.2 ⟨nonempty, List.forall_mem_map.2 undotted, joined⟩).symm⟩

/-- Elements of two arrays, one of which has a second row of the label of the first. -/
def twoTones : Row :=
  .branch "Patch"
    [.branch "tones[1]" [.leaf "level" "" "7" "8", .leaf "level" "" "9" "9"],
      .branch "tones[10]" [.leaf "level" "" "1" "1"],
      .branch "tones[1]" [.leaf "pan" "" "0" "0"]]

example : (twoTones.find? "tones[1].level").bind Row.left = some "7" ∧
    (twoTones.find? "tones[1].pan").isNone ∧ (twoTones.find? "tones[1]..level").isNone := by
  decide +kernel

end RecordDiff.Comparison.Row
