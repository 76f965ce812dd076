import RecordDiff.Command.Run
import RecordDiff.Main
import RecordDiff.Proofs.Cursor
import RecordDiff.Proofs.FullView
import RecordDiff.Proofs.Outcome
import RecordDiff.Proofs.Pruning
import RecordDiff.Proofs.Chains
import RecordDiff.Proofs.Numerals
import RecordDiff.Proofs.Resolution
import RecordDiff.Proofs.OnePass
import RecordDiff.Proofs.Values
import RecordDiff.Proofs.Differences
import RecordDiff.Proofs.Spelling
import RecordDiff.Proofs.Printing
import RecordDiff.Proofs.Nesting
import RecordDiff.Proofs.Symmetry
import RecordDiff.Proofs.Pieces
import RecordDiff.Proofs.Windows
import RecordDiff.Proofs.Replacement
import RecordDiff.Proofs.Sessions
import RecordDiff.Proofs.Extension
import RecordDiff.Proofs.WellFormed
import RecordDiff.Proofs.JsonView
import RecordDiff.Proofs.SettingsText
import RecordDiff.Proofs.TreeShape
import RecordDiff.Proofs.Alignment
import RecordDiff.Proofs.Brackets
import RecordDiff.Proofs.Relayout
import RecordDiff.Proofs.Comments
import RecordDiff.Proofs.Closings
import RecordDiff.Proofs.Spacing
import RecordDiff.Proofs.PathLookup
import RecordDiff.Proofs.HexLines
import RecordDiff.Proofs.Tokens
import RecordDiff.Proofs.KeyOrder
import RecordDiff.Proofs.Depths
import RecordDiff.Proofs.OffsetsAndCounts
