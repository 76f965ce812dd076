import RecordDiff.Proofs.Concatenation

/-!
Closing braces at the end of a schema. Where a text ends, every struct that is still open ends with
it, from the inside out, which is what a closing brace for each of them would do; and a closing brace
with nothing open does nothing. So it does not matter how many of them stand there. Main statements:

- `Pass.finish_closeStruct`: to close the innermost struct at the end leaves the same registry;
- `Pass.run_append_closings`: so do closing braces behind any lines, and they hide no fault;
- `ofString_append_closings`: missing and surplus closing braces at the end of a schema are harmless.
-/

namespace RecordDiff.Schema

/-- How many structs are open at the end of a schema. -/
def openAtEnd (source : String) : Nat :=
  (LogicalLine.ofText source.toList).foldl LogicalLine.openBehind 0

/-! ### Passes -/

namespace Pass

variable {pass : Pass} {lines closings : List LogicalLine}

/-- To close the innermost struct at the end leaves the same registry. -/
theorem finish_closeStruct (pass : Pass) : pass.closeStruct.finish = pass.finish := by
  obtain ⟨opened, registry⟩ := pass
  cases opened with
  | nil => rfl
  | cons top below => rfl

/-- A pass that reads nothing more than closing braces ends as it would have ended without them. -/
theorem run_closings (closing : ∀ line ∈ closings, line.piece = .closing) :
    pass.run closings = .ok pass.finish := by
  induction closings generalizing pass with
  | nil => rfl
  | cons line rest ih =>
    obtain ⟨here, behind⟩ := List.forall_mem_cons.1 closing
    rw [run_of_step (step_closing here), ih behind, finish_closeStruct]

/-- Closing braces behind any lines change nothing. If one of the lines has a fault, it is still the
first one. -/
theorem run_append_closings (closing : ∀ line ∈ closings, line.piece = .closing) :
    pass.run (lines ++ closings) = pass.run lines := by
  induction lines generalizing pass with
  | nil =>
    rw [List.nil_append, run_closings closing]
    rfl
  | cons line rest ih =>
    rw [List.cons_append, run_cons, run_cons]
    cases pass.step line with
    | error fault => rfl
    | ok next => exact ih

end Pass

/-! ### Lines -/

namespace LogicalLine

variable {number count : Nat} {line : LogicalLine}

theorem piece_of_mem_closings (member : line ∈ ofLines number (List.replicate count ['\x7d'])) :
    line.piece = .closing := by
  induction count generalizing number with
  | zero => cases member
  | succ count ih =>
    rw [List.replicate_succ, ofLines, List.mem_append] at member
    rcases member with here | behind
    · have alone : ofLine number ['\x7d'] = [⟨number, .closing⟩] := rfl
      rw [alone, List.mem_singleton] at here
      rw [here]
    · exact ih behind

/-- Each closing brace closes a struct as long as one is open. -/
theorem foldl_openBehind_closings (number count opened : Nat) :
    (ofLines number (List.replicate count ['\x7d'])).foldl openBehind opened = opened - count := by
  induction count generalizing number opened with
  | zero => rfl
  | succ count ih =>
    have alone : ofLine number ['\x7d'] = [⟨number, .closing⟩] := rfl
    rw [List.replicate_succ, ofLines, alone, List.singleton_append, List.foldl_cons, ih, openBehind]
    simp only
    omega

end LogicalLine

/-! ### Schemas -/

/-- `Continued source more longer`: the text `longer` is `source` and then, from the start of a line,
`more`. A line feed is put between them, unless there is one at the end of `source` already. -/
inductive Continued : String → String → String → Prop where
  | feed (source more : String) : Continued source more (source ++ "\n" ++ more)
  | line (front more : String) : Continued (front ++ "\n") more (front ++ "\n" ++ more)

section Schemas

variable {source more longer : String} {count : Nat}

theorem ofText_append_feed_toList (front back : String) :
    ∃ number, LogicalLine.ofText (front ++ "\n" ++ back).toList =
      LogicalLine.ofText front.toList ++ LogicalLine.ofLines number (Text.lines back.toList) := by
  have whole : (front ++ "\n" ++ back).toList = front.toList ++ '\n' :: back.toList := by
    rw [String.toList_append, String.toList_append, List.append_assoc]
    rfl
  rw [whole, LogicalLine.ofText_append_feed]
  exact ⟨_, rfl⟩

/-- The logical lines of a text are still there when the text is continued, and those of the
continuation stand behind them. -/
theorem Continued.ofText (continued : Continued source more longer) :
    ∃ number, LogicalLine.ofText longer.toList =
      LogicalLine.ofText source.toList ++ LogicalLine.ofLines number (Text.lines more.toList) := by
  cases continued with
  | feed => exact ofText_append_feed_toList source more
  | line front =>
    have same : LogicalLine.ofText (front ++ "\n").toList = LogicalLine.ofText front.toList := by
      rw [String.toList_append]
      exact LogicalLine.ofLines_feed 1 front.toList
    rw [same]
    exact ofText_append_feed_toList front more

theorem Continued.mem {c : Char} (continued : Continued source more longer)
    (member : c ∈ source.toList) : c ∈ longer.toList := by
  cases continued with
  | feed =>
    rw [String.toList_append, String.toList_append]
    exact List.mem_append_left _ (List.mem_append_left _ member)
  | line =>
    rw [String.toList_append]
    exact List.mem_append_left _ member

/-- Missing and surplus closing braces at the end of a schema are harmless. A schema that is continued
by any number of lines with a closing brace and nothing else is read as the same registry, or refused
for the same fault on the same line. Where the braces are as many as the structs that are open at its
end, they close all of them; so a struct without a closing brace is entered as if it had one there. -/
theorem ofString_append_closings (inked : ∃ c ∈ source.toList, Text.isBlank c = false)
    (continued : Continued source more longer)
    (closing : Text.lines more.toList = List.replicate count ['\x7d']) :
    Registry.ofString longer = Registry.ofString source ∧
      (openAtEnd source ≤ count → EveryStructClosed longer) := by
  obtain ⟨number, lines⟩ := continued.ofText
  rw [closing] at lines
  constructor
  · obtain ⟨c, member, ink⟩ := inked
    have inkedSource : Text.isAllBlank source.toList = false :=
      Text.isAllBlank_eq_false ⟨c, member, ink⟩
    have inkedLonger : Text.isAllBlank longer.toList = false :=
      Text.isAllBlank_eq_false ⟨c, continued.mem member, ink⟩
    rw [ofString_eq_bind inkedLonger, ofString_eq_bind inkedSource, lines,
      Pass.run_append_closings fun line => LogicalLine.piece_of_mem_closings]
  · intro enough
    rw [EveryStructClosed, lines, List.foldl_append, LogicalLine.foldl_openBehind_closings]
    exact Nat.sub_eq_zero_of_le enough

/-- Two structs that are open at the end, behind a comment with a closing brace in it. -/
def openText : String :=
  "struct A \x7b struct B \x7b char x[2]; // \x7d"

/-- Three closing braces, of which one is surplus, on lines of their own. -/
def closingText : String :=
  "\x7d\n\x7d\r\n\x7d"

theorem ofString_append_closings_of_openText :
    openAtEnd openText = 2 ∧ EveryStructClosed (openText ++ "\n" ++ closingText) ∧
      Registry.ofString (openText ++ "\n" ++ closingText) =
        .ok ((Registry.empty.insert ⟨"A::B", [⟨"x", .text, 2, " // \x7d"⟩]⟩).insert ⟨"A", []⟩) := by
  obtain ⟨opened, closing, inked, ink⟩ : openAtEnd openText = 2 ∧
      Text.lines closingText.toList = List.replicate 3 ['\x7d'] ∧
      Text.isAllBlank openText.toList = false ∧ 's' ∈ openText.toList := by decide +kernel
  have read : Registry.ofString openText =
      .ok ((Registry.empty.insert ⟨"A::B", [⟨"x", .text, 2, " // \x7d"⟩]⟩).insert ⟨"A", []⟩) :=
    ofString_of_run inked rfl rfl
  obtain ⟨same, closed⟩ :=
    ofString_append_closings ⟨'s', ink, by decide⟩ (.feed openText closingText) closing
  exact ⟨opened, closed (by omega), same.trans read⟩

end Schemas

end RecordDiff.Schema
