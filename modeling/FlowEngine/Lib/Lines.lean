import Mathlib.Data.List.Basic

namespace text

/-- A line without the carriage return before its line feed. -/
def strip_return (line : List Char) : List Char := if line.getLast? = some '\r' then line.dropLast else line

/-- The lines of a text, of which `current` has been read of the first. A line ends at a line
feed, with or without a carriage return before it; the last may lack its end. -/
def lines_loop : List Char → List Char → List (List Char)
  | [], [] => []
  | current, [] => [current]
  | current, c :: rest => if c = '\n' then strip_return current :: lines_loop [] rest else lines_loop (current ++ [c]) rest

def lines (text : String) : List String := (lines_loop [] text.toList).map String.ofList

/-- The text in which every line is ended by a line feed. -/
def of_lines (lines : List String) : String := String.ofList (lines.flatMap fun line => line.toList ++ ['\n'])

/-- A line that is read as it was written. -/
def OneLine (line : String) : Prop := ∀ c ∈ line.toList, c ≠ '\n' ∧ c ≠ '\r'

/-- A line is checked character by character. -/
theorem oneLine_of_all {line : String} (h : (line.toList.all fun c => c != '\n' && c != '\r') = true) :
    OneLine line := by
  simpa [OneLine] using h

theorem oneLine_append {first second : String} (hfirst : OneLine first) (hsecond : OneLine second) :
    OneLine (first ++ second) := by
  intro c hmem
  rw [String.toList_append, List.mem_append] at hmem
  exact hmem.elim (hfirst c) (hsecond c)

/-- Strings whose beginnings differ in the first character. -/
theorem append_ne {first second : String} (c d : Char) (hfirst : first.toList.head? = some c)
    (hsecond : second.toList.head? = some d) (hne : c ≠ d) (tail tail' : String) : first ++ tail ≠ second ++ tail' := by
  intro heq
  have hheads := congrArg (fun s : String => s.toList.head?) heq
  simp only [String.toList_append, List.head?_append, hfirst, hsecond, Option.some_or, Option.some.injEq] at hheads
  exact hne hheads

theorem strip_return_self {line : List Char} (h : '\r' ∉ line) : strip_return line = line := by
  refine if_neg fun hlast => h ?_
  exact List.mem_of_getLast? hlast

theorem lines_loop_append {line : List Char} (h : '\n' ∉ line) (current rest : List Char) :
    lines_loop current (line ++ '\n' :: rest) = strip_return (current ++ line) :: lines_loop [] rest := by
  induction line generalizing current with
  | nil => simp [lines_loop]
  | cons c line ih =>
    have hc : c ≠ '\n' := fun heq => h (heq ▸ List.mem_cons_self)
    rw [List.cons_append, lines_loop, if_neg hc, ih fun hmem => h (List.mem_cons_of_mem _ hmem)]
    simp

/-- Lines that are written are read again. -/
theorem lines_of_lines {written : List String} (h : ∀ line ∈ written, OneLine line) : lines (of_lines written) = written := by
  rw [lines, of_lines, String.toList_ofList]
  induction written with
  | nil => rfl
  | cons line rest ih =>
    have hline := h line List.mem_cons_self
    have hfeed : '\n' ∉ line.toList := fun hmem => (hline _ hmem).1 rfl
    have hreturn : '\r' ∉ line.toList := fun hmem => (hline _ hmem).2 rfl
    rw [List.flatMap_cons, List.append_assoc, List.singleton_append, lines_loop_append hfeed, List.nil_append,
      strip_return_self hreturn, List.map_cons, String.ofList_toList, ih fun other hmem => h other (List.mem_cons_of_mem _ hmem)]

/-- The text before the first line feed and the text after it. -/
def split_line : List Char → Option (List Char × List Char)
  | [] => none
  | c :: rest => if c = '\n' then some ([], rest) else (split_line rest).map fun split => (c :: split.1, split.2)

/-- The lines of a text that are complete, and the beginning of one behind them. -/
def cut : List Char → List (List Char) × List Char
  | [] => ([], [])
  | c :: rest =>
    if c = '\n' then ([] :: (cut rest).1, (cut rest).2)
    else
      match cut rest with
      | ([], last) => ([], c :: last)
      | (line :: lines, last) => ((c :: line) :: lines, last)

theorem split_line_length {text line rest : List Char} (h : split_line text = some (line, rest)) :
    rest.length < text.length := by
  induction text generalizing line with
  | nil => cases h
  | cons c text ih =>
    rw [split_line] at h
    split at h
    · cases h
      exact Nat.lt_succ_self _
    · obtain ⟨split, hsplit, heq⟩ := Option.map_eq_some_iff.mp h
      cases heq
      exact Nat.lt_succ_of_lt (ih hsplit)

/-- A text without a line feed is the beginning of a line. -/
theorem cut_of_split_none {text : List Char} (h : split_line text = none) : cut text = ([], text) := by
  induction text with
  | nil => rfl
  | cons c text ih =>
    rw [split_line] at h
    split at h
    · cases h
    · rename_i hc
      rw [cut, if_neg hc, ih (Option.map_eq_none_iff.mp h)]

/-- The first line is the one before the first line feed. -/
theorem cut_of_split {text line rest : List Char} (h : split_line text = some (line, rest)) :
    cut text = (line :: (cut rest).1, (cut rest).2) := by
  induction text generalizing line with
  | nil => cases h
  | cons c text ih =>
    rw [split_line] at h
    split at h
    · rename_i hc
      cases h
      rw [cut, if_pos hc]
    · rename_i hc
      obtain ⟨split, hsplit, heq⟩ := Option.map_eq_some_iff.mp h
      cases heq
      rw [cut, if_neg hc, ih hsplit]

/-- Text that comes later is cut together with the beginning of a line before it. -/
theorem cut_append (first second : List Char) : cut (first ++ second) =
    ((cut first).1 ++ (cut ((cut first).2 ++ second)).1, (cut ((cut first).2 ++ second)).2) := by
  induction first with
  | nil => rfl
  | cons c first ih =>
    rw [List.cons_append, cut, cut, ih]
    split
    · rfl
    · rename_i hc
      rcases cut first with ⟨lines, last⟩
      cases lines with
      | nil => rw [List.nil_append, List.nil_append, List.cons_append, cut, if_neg hc]
      | cons line lines => rfl

/-- Lines that are each ended by a line feed are cut into them. -/
theorem cut_lines {written : List (List Char)} (h : ∀ line ∈ written, '\n' ∉ line) :
    cut (written.flatMap fun line => line ++ ['\n']) = (written, []) := by
  induction written with
  | nil => rfl
  | cons line written ih =>
    have hline : ∀ rest, cut (line ++ '\n' :: rest) = (line :: (cut rest).1, (cut rest).2) := by
      have hfeed := h line List.mem_cons_self
      clear h ih
      intro rest
      induction line with
      | nil => rw [List.nil_append, cut, if_pos rfl]
      | cons c line ih =>
        have hc : c ≠ '\n' := fun heq => hfeed (heq ▸ List.mem_cons_self)
        rw [List.cons_append, cut, if_neg hc, ih fun hmem => hfeed (List.mem_cons_of_mem _ hmem)]
    rw [List.flatMap_cons, List.append_assoc, List.singleton_append, hline,
      ih fun other hmem => h other (List.mem_cons_of_mem _ hmem)]

end text
