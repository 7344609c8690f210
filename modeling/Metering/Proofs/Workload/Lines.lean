import Metering.Proofs.Workload.Reader

/-!
# Workloads are read line by line

A text has the lines that its line breaks end, and what stands after the last of them if that is
not empty; a line break may have a carriage return before it (`Text.lines`). Each line is read by
itself (`readOne`), and what is read of the text is the steps of its lines one for one, or the fault
of the first bad line under its number. So two texts with a line break between them are read one
after the other, the lines of the second numbered after those of the first.
-/

namespace Metering

namespace Text

variable {p : Char → Bool} {text : List Char} {c : Char}

/-- A line without the carriage return at its end, if it has one there. -/
def withoutReturn (line : List Char) : List Char :=
  if line.getLast? = some '\r' then line.dropLast else line

/-- The lines of a text. Each but the last is ended by a line feed, with or without a carriage return
before it, and the last one need not be ended. -/
def lines (text : List Char) : List (List Char) :=
  (split '\n' text).dropLast.map withoutReturn ++
    ((split '\n' text).getLast?.filter fun rest => !rest.isEmpty).toList

/-- What is trimmed may be taken away from the end before. -/
theorem trimWhile_append_singleton (trimmed : p c = true) :
    trimWhile p (text ++ [c]) = trimWhile p text := by
  have alone : [c].dropWhile p = [] := by rw [List.dropWhile_cons_of_pos trimmed, List.dropWhile_nil]
  rw [trimWhile, trimWhile, List.dropWhile_append]
  split
  · rename_i none_
    rw [alone, List.isEmpty_iff.1 none_]
  · rw [List.reverse_append, List.reverse_singleton, List.singleton_append,
      List.dropWhile_cons_of_pos trimmed]

theorem trim_withoutReturn (line : List Char) : trim (withoutReturn line) = trim line := by
  rw [withoutReturn]
  split
  · rename_i ends
    obtain ⟨start, rfl⟩ := List.getLast?_eq_some_iff.1 ends
    rw [List.dropLast_concat]
    exact (trimWhile_append_singleton (by decide)).symm
  · rfl

end Text

namespace Workload

open Text

variable {number : Nat} {line : List Char} {lines : List (List Char)} {steps : List Step}
  {fault : Fault}

/-! ## Single lines -/

/-- What one line of a text brings: a step, or nothing if it is passed over. -/
def readOne (line : List Char) : Except LineFault (Option Step) :=
  if isSkipped (trim line) then .ok none else (readLine (trim line)).map some

/-- A line ended by a carriage return as well is read as the line. -/
theorem readOne_withoutReturn (line : List Char) : readOne (withoutReturn line) = readOne line := by
  rw [readOne, readOne, trim_withoutReturn]

theorem readOne_nil : readOne [] = .ok none := rfl

/-- The first line is read by itself. -/
theorem readLines_cons (number : Nat) (line : List Char) (rest : List (List Char)) :
    readLines number (line :: rest) =
      match readOne line with
      | .error cause => .error (.line number cause)
      | .ok found => (readLines (number + 1) rest).map (found.toList ++ ·) := by
  rw [readLines, readOne]
  by_cases skipped : isSkipped (trim line) = true
  · rw [if_pos skipped, if_pos skipped]
    cases readLines (number + 1) rest <;> rfl
  · rw [if_neg skipped, if_neg skipped]
    cases readLine (trim line) <;> rfl

/-! ## Lines in a row -/

/-- A line that is read puts what it brings before the rest. -/
theorem readLines_cons_of_ok {found : Option Step} (good : readOne line = .ok found)
    (number : Nat) (rest : List (List Char)) :
    readLines number (line :: rest) = (readLines (number + 1) rest).map (found.toList ++ ·) := by
  rw [readLines_cons, good]

theorem readLines_cons_of_error {cause : LineFault} (bad : readOne line = .error cause)
    (number : Nat) (rest : List (List Char)) :
    readLines number (line :: rest) = .error (.line number cause) := by
  rw [readLines_cons, bad]

/-- Only what the lines bring matters. -/
theorem readLines_congr {others : List (List Char)}
    (same : List.Forall₂ (fun line other => readOne line = readOne other) lines others) :
    ∀ number : Nat, readLines number lines = readLines number others := by
  induction same with
  | nil => exact fun _ => rfl
  | cons first _ ih =>
    intro number
    rw [readLines_cons, readLines_cons, first, ih]

/-- Lines after others are read after them, under the numbers that follow. -/
theorem readLines_append (second : List (List Char)) : ∀ (number : Nat) (first : List (List Char)),
    readLines number (first ++ second) =
      match readLines number first with
      | .error fault => .error fault
      | .ok steps => (readLines (number + first.length) second).map (steps ++ ·) := by
  intro number first
  induction first generalizing number with
  | nil =>
    change readLines number second = (readLines number second).map ([] ++ ·)
    cases readLines number second <;> rfl
  | cons line rest ih =>
    rw [List.cons_append, readLines_cons, readLines_cons]
    cases readOne line with
    | error cause => rfl
    | ok found =>
      dsimp only
      rw [ih, List.length_cons, Nat.add_right_comm number 1, Nat.add_assoc number]
      cases readLines (number + 1) rest with
      | error fault => rfl
      | ok steps =>
        dsimp only [Except.map]
        cases readLines (number + (rest.length + 1)) second with
        | error fault => rfl
        | ok more => exact congrArg Except.ok (List.append_assoc _ _ _).symm

/-- Lines are read in full if each is, and their steps are those of the lines in their order. -/
theorem readLines_eq_ok_iff : readLines number lines = .ok steps ↔
    ∃ found, List.Forall₂ (fun line one => readOne line = .ok one) lines found ∧
      steps = found.filterMap id := by
  induction lines generalizing number steps with
  | nil =>
    refine ⟨fun given => ⟨[], .nil, ?_⟩, ?_⟩
    · cases given
      rfl
    · rintro ⟨found, none_, rfl⟩
      cases none_
      rfl
  | cons line rest ih =>
    rw [readLines_cons]
    cases one : readOne line with
    | error cause =>
      refine iff_of_false (fun given => nomatch given) ?_
      rintro ⟨found, all, -⟩
      cases all with
      | cons first _ => cases one.symm.trans first
    | ok step? =>
      have front : ∀ found : List (Option Step),
          (step? :: found).filterMap id = step?.toList ++ found.filterMap id := by
        intro found
        cases step? <;> rfl
      dsimp only
      constructor
      · intro given
        cases others : readLines (number + 1) rest with
        | error fault =>
          rw [others] at given
          cases given
        | ok more =>
          obtain ⟨found, all, rfl⟩ := ih.1 others
          rw [others] at given
          cases given
          exact ⟨step? :: found, .cons one all, (front found).symm⟩
      · rintro ⟨found, all, rfl⟩
        cases all with
        | cons first others =>
          cases one.symm.trans first
          rw [ih.2 ⟨_, others, rfl⟩, front]
          rfl

/-- Lines are not read in full if one is bad, and then the first bad one is told with its number. -/
theorem readLines_eq_error_iff : readLines number lines = .error fault ↔
    ∃ before line after cause, lines = before ++ line :: after ∧
      (∀ other ∈ before, ∃ found, readOne other = .ok found) ∧ readOne line = .error cause ∧
        fault = .line (number + before.length) cause := by
  induction lines generalizing number with
  | nil =>
    refine iff_of_false (fun given => nomatch given) ?_
    rintro ⟨before, line, after, cause, none_, -⟩
    exact List.append_ne_nil_of_right_ne_nil before (List.cons_ne_nil line after) none_.symm
  | cons line rest ih =>
    cases one : readOne line with
    | error cause =>
      rw [readLines_cons_of_error one]
      constructor
      · intro given
        cases given
        exact ⟨[], line, rest, cause, rfl, fun _ none_ => (nomatch none_), one, rfl⟩
      · rintro ⟨before, bad, after, cause', parts, good, told, rfl⟩
        cases before with
        | nil =>
          cases parts
          cases one.symm.trans told
          rfl
        | cons first others =>
          cases parts
          obtain ⟨found, read_⟩ := good line List.mem_cons_self
          cases one.symm.trans read_
    | ok found =>
      rw [readLines_cons_of_ok one]
      have later : (readLines (number + 1) rest).map (found.toList ++ ·) = .error fault ↔
          readLines (number + 1) rest = .error fault := by
        cases readLines (number + 1) rest with
        | error other => rfl
        | ok more => exact iff_of_false (fun given => nomatch given) fun given => nomatch given
      rw [later, ih]
      constructor
      · rintro ⟨before, bad, after, cause, rfl, good, told, rfl⟩
        refine ⟨line :: before, bad, after, cause, rfl,
          List.forall_mem_cons.2 ⟨⟨found, one⟩, good⟩, told, ?_⟩
        rw [List.length_cons, Nat.add_assoc, Nat.add_comm 1]
      · rintro ⟨before, bad, after, cause, parts, good, told, rfl⟩
        cases before with
        | nil =>
          cases parts
          cases one.symm.trans told
        | cons first others =>
          cases parts
          refine ⟨others, bad, after, cause, rfl,
            fun other member => good other (List.mem_cons_of_mem line member), told, ?_⟩
          rw [List.length_cons, Nat.add_assoc, Nat.add_comm 1]

/-! ## Texts -/

/-- The fault of a text that stands below so many lines. -/
def Fault.below (above : Nat) : Fault → Fault
  | .line number cause => .line (number + above) cause
  | other => other

theorem readLines_below (above number : Nat) (lines : List (List Char)) :
    readLines (number + above) lines =
      match readLines number lines with
      | .error fault => .error (fault.below above)
      | .ok steps => .ok steps := by
  induction lines generalizing number with
  | nil => rfl
  | cons line rest ih =>
    rw [readLines_cons, readLines_cons]
    cases readOne line with
    | error cause => rfl
    | ok found =>
      dsimp only
      rw [Nat.add_right_comm, ih]
      cases readLines (number + 1) rest <;> rfl

/-- A text is read by its lines: carriage returns before line feeds make no difference, and neither
does a line feed at the end. -/
theorem read_eq_readLines (text : String) :
    read text = readLines 1 (Text.lines text.toList) := by
  have alike : ∀ fields : List (List Char), List.Forall₂
      (fun line other => readOne line = readOne other) fields (fields.map withoutReturn) := by
    intro fields
    rw [List.forall₂_map_right_iff, List.forall₂_same]
    exact fun field _ => (readOne_withoutReturn field).symm
  rw [read, Text.lines]
  rcases (split '\n' text.toList).eq_nil_or_concat with none_ | ⟨ended, rest, fields⟩
  · exact absurd none_ (split_ne_nil '\n' text.toList)
  · rw [fields, List.concat_eq_append, List.dropLast_concat, List.getLast?_concat]
    cases rest with
    | nil =>
      change _ = readLines 1 (ended.map withoutReturn ++ [])
      rw [List.append_nil, ← readLines_congr (alike ended), readLines_append]
      cases readLines 1 ended with
      | error fault => rfl
      | ok steps =>
        dsimp only
        rw [readLines_cons_of_ok readOne_nil]
        exact congrArg Except.ok (List.append_nil steps)
    | cons c more =>
      refine readLines_congr (List.rel_append (alike ended) (.cons rfl .nil)) 1

/-- Two texts with a line break between them are read one after the other, the lines of the second
numbered after those of the first. Any text is read line by line: the fault is that of the first bad
line, under its place among all lines counted from one, and if no line is bad the steps are those of
the lines that are not passed over, each once and in their order. -/
theorem read_line_by_line (a b : String) :
    (read (a ++ "\n" ++ b) =
      match read a, read b with
      | .error fault, _ => .error fault
      | .ok _, .error fault => .error (fault.below (a.toList.count '\n' + 1))
      | .ok first, .ok second => .ok (first ++ second)) ∧
    (∀ fault, read a = .error fault ↔
      ∃ before line after cause, Text.lines a.toList = before ++ line :: after ∧
        (∀ other ∈ before, ∃ found, readOne other = .ok found) ∧ readOne line = .error cause ∧
          fault = .line (before.length + 1) cause) ∧
    ∀ steps, read a = .ok steps ↔
      ∃ found, List.Forall₂ (fun line one => readOne line = .ok one) (Text.lines a.toList) found ∧
        steps = found.filterMap id := by
  refine ⟨?_, fun fault => ?_, fun steps => ?_⟩
  · have lineBreak : "\n".toList = ['\n'] := by decide
    rw [read, read, read, String.toList_append, String.toList_append, lineBreak, List.append_assoc,
      List.singleton_append, split_append_cons, readLines_append, length_split,
      readLines_below (a.toList.count '\n' + 1)]
    cases readLines 1 (split '\n' a.toList) with
    | error fault => rfl
    | ok first => cases readLines 1 (split '\n' b.toList) <;> rfl
  · rw [read_eq_readLines, readLines_eq_error_iff]
    simp only [Nat.add_comm 1]
  · rw [read_eq_readLines, readLines_eq_ok_iff]

/-- A remark, a step and a blank line, two of them ended by carriage returns, stand above a bad
line. -/
example : read "# warm\rup\r\nctr,1\n\r\n bogus,1\n" =
    .error (.line 4 (.unknownTarget "bogus")) := by rfl

end Workload

end Metering
