/-!
Lines and separated parts of a text. A line ends at a line feed, a carriage return directly before
that line feed belongs to the line end, and a line feed at the very end of a text opens no further
line. Main statements:

- `lines_feed`: what stands in front of the first line feed is the first line;
- `lines_append_feed`: the lines of two texts with a line feed between them;
- `mem_of_mem_lines`: lines are parts of their text without line feeds;
- `splitOn_append_cons`: the parts of two texts with a separator between them;
- `joinWith_splitOn`, `splitOn_joinWith`: cutting a text into parts and joining them undo each other;
- `splitOn_flatten`, `joinWith_filter`: the parts are the text without its separators.
-/

namespace RecordDiff.Text

/-- The lines of a text, without their ends. -/
def lines : List Char → List (List Char)
  | [] => []
  | '\n' :: rest => [] :: lines rest
  | '\r' :: '\n' :: rest => [] :: lines rest
  | c :: rest =>
    match lines rest with
    | [] => [[c]]
    | line :: more => (c :: line) :: more

/-- A line without the carriage return that goes with a line feed behind it. -/
def withoutReturn (line : List Char) : List Char :=
  if line.getLast? = some '\r' then line.dropLast else line

/-- The parts of a text between the occurrences of a separator, empty parts included. -/
def splitOn (separator : Char) : List Char → List (List Char)
  | [] => [[]]
  | c :: rest =>
    if c = separator then
      [] :: splitOn separator rest
    else
      match splitOn separator rest with
      | [] => [[c]]
      | part :: more => (c :: part) :: more

/-- The parts in order, with a separator between any two of them. -/
def joinWith (separator : List Char) : List (List Char) → List Char
  | [] => []
  | [part] => part
  | part :: more => part ++ separator ++ joinWith separator more

/-- A text padded with spaces on its right to a given number of characters. -/
def padRight (width : Nat) (text : List Char) : List Char :=
  text ++ List.replicate (width - text.length) ' '

/-- Whether `part` occurs somewhere inside a text. -/
def contains (part : List Char) : List Char → Bool
  | [] => part.isEmpty
  | c :: rest => part.isPrefixOf (c :: rest) || contains part rest

section Lines

variable {line text : List Char} {c : Char}

/-- A property of texts, shown for a last line and for a line in front of a line feed. -/
@[elab_as_elim]
theorem lineInduction {motive : List Char → Prop} (last : ∀ line, '\n' ∉ line → motive line)
    (feed : ∀ line rest, '\n' ∉ line → motive rest → motive (line ++ '\n' :: rest))
    (text : List Char) : motive text := by
  -- the text is taken apart behind a part of its first line
  suffices whole : ∀ front, '\n' ∉ front → motive (front ++ text) from whole [] List.not_mem_nil
  induction text with
  | nil =>
    intro front noFeed
    rw [List.append_nil]
    exact last front noFeed
  | cons c rest ih =>
    intro front noFeed
    by_cases isFeed : c = '\n'
    · rw [isFeed]
      exact feed front rest noFeed (ih [] List.not_mem_nil)
    · rw [List.append_cons]
      refine ih (front ++ [c]) ?_
      simp [noFeed, Ne.symm isFeed]

theorem withoutReturn_of_noReturn (noReturn : line.getLast? ≠ some '\r') :
    withoutReturn line = line :=
  if_neg noReturn

theorem withoutReturn_cons_cons (c d : Char) (rest : List Char) :
    withoutReturn (c :: d :: rest) = c :: withoutReturn (d :: rest) := by
  rw [withoutReturn, withoutReturn, List.getLast?_cons_cons]
  split <;> rfl

/-- What stands in front of a line feed without another one before it is a line. -/
theorem lines_feed (noFeed : '\n' ∉ line) (rest : List Char) :
    lines (line ++ '\n' :: rest) = withoutReturn line :: lines rest := by
  induction line with
  | nil => simp [lines, withoutReturn]
  | cons c more ih =>
    simp only [List.mem_cons, not_or] at noFeed
    obtain ⟨notFeed, noFeed⟩ := noFeed
    cases more with
    | nil =>
      by_cases isReturn : c = '\r'
      · rw [isReturn]
        simp [lines, withoutReturn]
      · rw [List.cons_append, List.nil_append, lines]
        · simp [lines, withoutReturn, isReturn]
        · exact fun feed => notFeed feed.symm
        · exact fun _ equal => absurd equal isReturn
    | cons d more =>
      rw [List.cons_append, lines, ih noFeed, withoutReturn_cons_cons]
      · exact fun feed => notFeed feed.symm
      · intro rest' _ feed
        rw [List.cons_append, List.cons.injEq] at feed
        exact noFeed (feed.1 ▸ List.mem_cons_self)

/-- The lines of two texts with a line feed between them. -/
theorem lines_append_feed (front back : List Char) :
    lines (front ++ '\n' :: back) = lines (front ++ ['\n']) ++ lines back := by
  induction front using lineInduction with
  | last line noFeed => simp [lines_feed noFeed, lines]
  | feed line rest noFeed ih =>
    rw [List.append_assoc, List.append_assoc, List.cons_append, List.cons_append,
      lines_feed noFeed, lines_feed noFeed, ih, List.cons_append]

theorem lines_of_noFeed (noFeed : '\n' ∉ line) (some : line ≠ []) : lines line = [line] := by
  induction line with
  | nil => exact absurd rfl some
  | cons c more ih =>
    simp only [List.mem_cons, not_or] at noFeed
    obtain ⟨notFeed, noFeed⟩ := noFeed
    rw [lines]
    · cases more with
      | nil => rfl
      | cons d more => rw [ih noFeed (List.cons_ne_nil d more)]
    · exact fun feed => notFeed feed.symm
    · rintro rest - rfl
      exact noFeed List.mem_cons_self

/-- The carriage return that a line loses is all that it loses. -/
theorem exists_withoutReturn_append (line : List Char) :
    ∃ ending, (ending = [] ∨ ending = ['\r']) ∧ line = withoutReturn line ++ ending := by
  unfold withoutReturn
  split
  · rename_i last
    refine ⟨['\r'], .inr rfl, ?_⟩
    rw [List.getLast?_eq_some_iff] at last
    obtain ⟨front, rfl⟩ := last
    rw [List.dropLast_concat]
  · exact ⟨[], .inl rfl, (List.append_nil line).symm⟩

theorem mem_of_mem_withoutReturn (member : c ∈ withoutReturn line) : c ∈ line := by
  obtain ⟨ending, -, whole⟩ := exists_withoutReturn_append line
  rw [whole]
  exact List.mem_append_left ending member

theorem lines_eq_nil (none : lines text = []) : text = [] := by
  induction text using lineInduction with
  | last line noFeed =>
    cases line with
    | nil => rfl
    | cons c more =>
      rw [lines_of_noFeed noFeed (List.cons_ne_nil c more)] at none
      cases none
  | feed line rest noFeed _ =>
    rw [lines_feed noFeed] at none
    cases none

/-- A line is a part of the text that no line feed stands in. -/
theorem mem_of_mem_lines (member : line ∈ lines text) (inside : c ∈ line) : c ∈ text ∧ c ≠ '\n' := by
  induction text using lineInduction with
  | last whole noFeed =>
    cases whole with
    | nil => cases member
    | cons d more =>
      rw [lines_of_noFeed noFeed (List.cons_ne_nil d more), List.mem_singleton] at member
      rw [member] at inside
      exact ⟨inside, fun feed => noFeed (feed ▸ inside)⟩
  | feed first rest noFeed ih =>
    rw [lines_feed noFeed, List.mem_cons] at member
    rcases member with rfl | later
    · have kept : c ∈ first := mem_of_mem_withoutReturn inside
      exact ⟨List.mem_append_left _ kept, fun feed => noFeed (feed ▸ kept)⟩
    · obtain ⟨kept, notFeed⟩ := ih later
      exact ⟨List.mem_append_right first (List.mem_cons_of_mem _ kept), notFeed⟩

theorem noFeed_of_mem_lines (member : line ∈ lines text) : '\n' ∉ line :=
  fun feed => (mem_of_mem_lines member feed).2 rfl

end Lines

/-! ### Parts of a text -/

section Parts

variable {separator : Char} {text part : List Char} {parts : List (List Char)}

theorem splitOn_ne_nil (separator : Char) (text : List Char) : splitOn separator text ≠ [] := by
  cases text with
  | nil => simp [splitOn]
  | cons c rest =>
    by_cases cut : c = separator
    · simp [splitOn, cut]
    · simp only [splitOn, if_neg cut]
      split <;> simp

/-- A text without the separator is a single part. -/
theorem splitOn_of_not_mem (unbroken : separator ∉ text) : splitOn separator text = [text] := by
  induction text with
  | nil => rfl
  | cons c rest ih =>
    simp only [List.mem_cons, not_or] at unbroken
    simp [splitOn, Ne.symm unbroken.1, ih unbroken.2]

/-- A separator between two texts puts their parts one behind the other. -/
theorem splitOn_append_cons (separator : Char) (front back : List Char) :
    splitOn separator (front ++ separator :: back) =
      splitOn separator front ++ splitOn separator back := by
  induction front with
  | nil => simp [splitOn]
  | cons c rest ih =>
    by_cases cut : c = separator
    · simp [splitOn, cut, ih]
    · obtain ⟨part, more, found⟩ := List.exists_cons_of_ne_nil (splitOn_ne_nil separator rest)
      simp [splitOn, cut, ih, found]

theorem not_mem_of_mem_splitOn (member : part ∈ splitOn separator text) : separator ∉ part := by
  induction text generalizing part with
  | nil =>
    obtain rfl := List.mem_singleton.1 member
    exact List.not_mem_nil
  | cons c rest ih =>
    obtain ⟨first, more, found⟩ := List.exists_cons_of_ne_nil (splitOn_ne_nil separator rest)
    by_cases cut : c = separator
    · rw [splitOn, if_pos cut] at member
      rcases List.mem_cons.1 member with rfl | later
      · exact List.not_mem_nil
      · exact ih later
    · simp only [splitOn, if_neg cut, found, List.mem_cons] at member
      rcases member with rfl | later
      · have clean : separator ∉ first := ih (found ▸ List.mem_cons_self)
        simp [Ne.symm cut, clean]
      · exact ih (found ▸ List.mem_cons_of_mem _ later)

/-- The parts of a text are the text without its separators. -/
theorem splitOn_flatten (separator : Char) (text : List Char) :
    (splitOn separator text).flatten = text.filter (· != separator) := by
  induction text with
  | nil => rfl
  | cons c rest ih =>
    obtain ⟨part, more, found⟩ := List.exists_cons_of_ne_nil (splitOn_ne_nil separator rest)
    by_cases cut : c = separator
    · simp [splitOn, cut, ih]
    · rw [found] at ih
      simp [splitOn, cut, found, ← ih]

/-- A text whose parts all hold something has its separators only between two parts: none at its
ends and no two in a row. -/
theorem separators_apart (inked : [] ∉ splitOn separator text) :
    text.head? ≠ some separator ∧ text.getLast? ≠ some separator ∧
      ¬[separator, separator] <:+: text := by
  refine ⟨?_, ?_, ?_⟩
  · intro first
    obtain ⟨rest, rfl⟩ := List.head?_eq_some_iff.1 first
    exact inked (by simp [splitOn])
  · intro last
    obtain ⟨front, rfl⟩ := List.getLast?_eq_some_iff.1 last
    exact inked (by simp [splitOn_append_cons, splitOn])
  · rintro ⟨front, back, rfl⟩
    have whole : front ++ [separator, separator] ++ back =
        front ++ separator :: ([] ++ separator :: back) := by simp
    refine inked ?_
    rw [whole, splitOn_append_cons, splitOn_append_cons]
    simp [splitOn]

/-! ### Parts that are joined -/

theorem joinWith_cons_cons (separator part next : List Char) (more : List (List Char)) :
    joinWith separator (part :: next :: more) =
      part ++ separator ++ joinWith separator (next :: more) := rfl

theorem exists_joinWith_cons (separator part : List Char) (parts : List (List Char)) :
    ∃ more, joinWith separator (part :: parts) = part ++ more := by
  cases parts with
  | nil => exact ⟨[], (List.append_nil part).symm⟩
  | cons next parts => exact ⟨separator ++ joinWith separator (next :: parts), List.append_assoc ..⟩

/-- The parts of two lists that are not empty, joined one behind the other. -/
theorem joinWith_append {separator : List Char} {front back : List (List Char)}
    (someFront : front ≠ []) (someBack : back ≠ []) :
    joinWith separator (front ++ back) =
      joinWith separator front ++ (separator ++ joinWith separator back) := by
  obtain ⟨part, parts, rfl⟩ := List.exists_cons_of_ne_nil someBack
  induction front with
  | nil => exact absurd rfl someFront
  | cons first others ih =>
    cases others with
    | nil => exact List.append_assoc ..
    | cons second others =>
      have step := ih (List.cons_ne_nil second others)
      rw [List.cons_append] at step
      rw [List.cons_append, List.cons_append, joinWith_cons_cons, joinWith_cons_cons, step]
      simp only [List.append_assoc]

theorem joinWith_eq_intercalate (separator : List Char) (parts : List (List Char)) :
    joinWith separator parts = separator.intercalate parts := by
  induction parts with
  | nil => rfl
  | cons part rest ih =>
    cases rest with
    | nil => simp [joinWith]
    | cons next rest => rw [joinWith_cons_cons, ih, List.intercalate_cons_cons]

/-- The parts of a text, joined again, are the text. -/
theorem joinWith_splitOn (separator : Char) (text : List Char) :
    joinWith [separator] (splitOn separator text) = text := by
  induction text with
  | nil => rfl
  | cons c rest ih =>
    obtain ⟨part, more, found⟩ := List.exists_cons_of_ne_nil (splitOn_ne_nil separator rest)
    rw [found] at ih
    by_cases cut : c = separator
    · rw [splitOn, if_pos cut, found, joinWith_cons_cons, ih, cut]
      rfl
    · simp only [splitOn, if_neg cut, found]
      cases more with
      | nil =>
        rw [joinWith] at ih ⊢
        rw [ih]
      | cons next more =>
        have joined : joinWith [separator] ((c :: part) :: next :: more) =
            c :: joinWith [separator] (part :: next :: more) := rfl
        rw [joined, ih]

/-- Parts that were joined are found again. -/
theorem splitOn_joinWith (some? : parts ≠ []) (unbroken : ∀ part ∈ parts, separator ∉ part) :
    splitOn separator (joinWith [separator] parts) = parts := by
  induction parts with
  | nil => exact absurd rfl some?
  | cons part rest ih =>
    obtain ⟨clean, cleanRest⟩ := List.forall_mem_cons.1 unbroken
    cases rest with
    | nil => exact splitOn_of_not_mem clean
    | cons next rest =>
      have joined : joinWith [separator] (part :: next :: rest) =
          part ++ separator :: joinWith [separator] (next :: rest) := by simp [joinWith]
      rw [joined, splitOn_append_cons, splitOn_of_not_mem clean,
        ih (List.cons_ne_nil _ _) cleanRest, List.singleton_append]

/-- Taking the separators away from parts that hold none leaves the parts. -/
theorem joinWith_filter (unbroken : ∀ part ∈ parts, separator ∉ part) :
    (joinWith [separator] parts).filter (· != separator) = parts.flatten := by
  by_cases none : parts = []
  · rw [none]
    rfl
  · rw [← splitOn_flatten, splitOn_joinWith none unbroken]

end Parts

end RecordDiff.Text
