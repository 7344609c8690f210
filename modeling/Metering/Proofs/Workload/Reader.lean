import Metering.Proofs.Labels
import Metering.Proofs.Text
import Metering.Workload.Reader

/-!
# Workloads are read as they are written

`Line.text` writes a line of a workload: a step as a name of its target, a number and perhaps
labels, or a line that is passed over. `Line.Legible` says what makes such lines fit to be read:
no part contains what ends it, or blanks at its ends, and the labels as a whole do not stand in
quotes. Reading the lines of a text then gives their steps, one for one. Whatever is read, its
labels are parts of one line.
-/

namespace Metering.Workload

open Text

/-! ## Targets -/

/-- The names of a target. -/
def Target.spellings : Target → List String
  | .counter => ["counter", "ctr"]
  | .upDownCounter => ["up_down_counter", "updown"]
  | .valueRecorder => ["value_recorder", "recorder"]

/-- A target is read under its names, and under no others. -/
theorem Target.read_eq_ok_iff (text : List Char) (t : Target) :
    Target.read text = .ok t ↔ String.ofList text ∈ t.spellings := by
  unfold Target.read
  split <;> rename_i same
  · rw [same]; cases t <;> simp [spellings]
  · rw [same]; cases t <;> simp [spellings]
  · rw [same]; cases t <;> simp [spellings]
  · rw [same]; cases t <;> simp [spellings]
  · rw [same]; cases t <;> simp [spellings]
  · rw [same]; cases t <;> simp [spellings]
  · rename_i a b c d e f
    cases t <;> simp_all [spellings]

/-- What the names of targets have in common. -/
theorem Target.spelling_plain {t : Target} {name : String} (spelling : name ∈ t.spellings) :
    (∃ c rest, name.toList = c :: rest ∧ c ≠ '#') ∧ ',' ∉ name.toList ∧ '\n' ∉ name.toList ∧
      Trimmed isBlank name.toList := by
  cases t <;> simp only [spellings, List.mem_cons, List.not_mem_nil, or_false] at spelling <;>
    rcases spelling with rfl | rfl <;>
    refine ⟨⟨_, _, rfl, by decide⟩, by decide, by decide, ?_, ?_⟩ <;> rintro c ⟨⟩ <;> decide

/-! ## Labels -/

/-- A label as it is written. -/
def pairText (pair : String × String) : List Char := pair.1.toList ++ '=' :: pair.2.toList

/-- Labels as they are written. -/
def labelsText (pairs : List (String × String)) : List Char := [';'].intercalate (pairs.map pairText)

/-- A label that can be written: its key is there, neither key nor value contains what ends it, and
both are without blanks at their ends. -/
structure LegiblePair (pair : String × String) : Prop where
  key : pair.1 ≠ ""
  keyPlain : '=' ∉ pair.1.toList ∧ ';' ∉ pair.1.toList ∧ '\n' ∉ pair.1.toList
  valuePlain : ';' ∉ pair.2.toList ∧ '\n' ∉ pair.2.toList
  keyTrimmed : Trimmed isBlank pair.1.toList
  valueTrimmed : Trimmed isBlank pair.2.toList

instance (pair : String × String) : Decidable (LegiblePair pair) :=
  decidable_of_iff
    (pair.1 ≠ "" ∧ ('=' ∉ pair.1.toList ∧ ';' ∉ pair.1.toList ∧ '\n' ∉ pair.1.toList) ∧
      (';' ∉ pair.2.toList ∧ '\n' ∉ pair.2.toList) ∧
      Trimmed isBlank pair.1.toList ∧ Trimmed isBlank pair.2.toList)
    ⟨fun ⟨key, plain, plain', trimmed, trimmed'⟩ => ⟨key, plain, plain', trimmed, trimmed'⟩,
      fun ⟨key, plain, plain', trimmed, trimmed'⟩ => ⟨key, plain, plain', trimmed, trimmed'⟩⟩

section Labels

variable {pair : String × String} {pairs : List (String × String)}

theorem LegiblePair.trimmed (legible : LegiblePair pair) : Trimmed isBlank (pairText pair) :=
  legible.keyTrimmed.append_cons legible.valueTrimmed (by decide)

theorem LegiblePair.notMem_semicolon (legible : LegiblePair pair) : ';' ∉ pairText pair := by
  have key := legible.keyPlain.2.1
  have value := legible.valuePlain.1
  simp [pairText, key, value]

theorem LegiblePair.notMem_newline (legible : LegiblePair pair) : '\n' ∉ pairText pair := by
  have key := legible.keyPlain.2.2
  have value := legible.valuePlain.2
  simp [pairText, key, value]

/-- A label is cut at its first equals sign. -/
theorem LegiblePair.read (legible : LegiblePair pair) : readPair (pairText pair) = .ok pair := by
  have key : trim pair.1.toList = pair.1.toList := trimWhile_self legible.keyTrimmed
  have value : trim pair.2.toList = pair.2.toList := trimWhile_self legible.valueTrimmed
  have some_ : pair.1.toList.isEmpty = false := by
    rw [List.isEmpty_eq_false_iff, ne_eq, String.toList_eq_nil_iff]
    exact legible.key
  rw [readPair, pairText, cut_append_cons legible.keyPlain.1]
  simp only [key, value, some_, String.ofList_toList]
  rfl

theorem mapM_readPair (legible : ∀ pair ∈ pairs, LegiblePair pair) :
    (pairs.map pairText).mapM readPair = .ok pairs := by
  induction pairs with
  | nil => rfl
  | cons pair rest ih =>
    have others := ih fun pair member => legible pair (List.mem_cons_of_mem _ member)
    rw [List.map_cons, List.mapM_cons, (legible pair List.mem_cons_self).read, others]
    rfl

theorem trimmed_labelsText (legible : ∀ pair ∈ pairs, LegiblePair pair) :
    Trimmed isBlank (labelsText pairs) := by
  refine trimmed_intercalate (fun field member => ?_) (by decide)
  obtain ⟨pair, among, rfl⟩ := List.mem_map.1 member
  exact (legible pair among).trimmed

/-- The labels of a text that does not stand in quotes are divided by its semicolons. -/
theorem readLabels_labelsText (legible : ∀ pair ∈ pairs, LegiblePair pair)
    (unquoted : Trimmed (· = '"') (labelsText pairs)) :
    readLabels (labelsText pairs) = .ok (LabelSet.ofList pairs) := by
  have fields : ((split ';' (labelsText pairs)).map trim).filter (fun p => !p.isEmpty) =
      pairs.map pairText := by
    cases pairs with
    | nil => rfl
    | cons first rest =>
      have each : ∀ field ∈ (first :: rest).map pairText,
          ';' ∉ field ∧ trim field = field ∧ field ≠ [] := by
        intro field member
        obtain ⟨pair, among, rfl⟩ := List.mem_map.1 member
        refine ⟨(legible pair among).notMem_semicolon, trimWhile_self (legible pair among).trimmed, ?_⟩
        exact List.append_ne_nil_of_right_ne_nil _ (List.cons_ne_nil _ _)
      rw [labelsText, split_intercalate (by simp) fun field member => (each field member).1,
        List.map_congr_left fun field member => (each field member).2.1, List.map_id',
        List.filter_eq_self.2 fun field member => by simp [(each field member).2.2]]
  rw [readLabels, trim, trimWhile_self (trimmed_labelsText legible), trimWhile_self unquoted]
  simp only [fields, mapM_readPair legible]
  rfl

end Labels

/-! ## Lines -/

/-- A step as it is written on a line: under a name of its target, with its value as a number, and
with its labels or without any. -/
structure Entry where
  target : Target
  spelling : String
  number : String
  value : Float
  labels : Option (List (String × String))

namespace Entry

/-- The labels that are written. -/
def pairs (e : Entry) : List (String × String) := e.labels.getD []

/-- What stands on the line. -/
def text (e : Entry) : List Char :=
  e.spelling.toList ++ ',' :: (e.number.toList ++ match e.labels with
    | none => []
    | some pairs => ',' :: labelsText pairs)

/-- The step that is meant. -/
def step (e : Entry) : Step := ⟨e.target, e.value, LabelSet.ofList e.pairs⟩

/-- A step that can be written so. -/
structure Legible (e : Entry) : Prop where
  spelling : e.spelling ∈ e.target.spellings
  numberPlain : ',' ∉ e.number.toList ∧ '\n' ∉ e.number.toList
  numberTrimmed : Trimmed isBlank e.number.toList
  value : Decimal.read? e.number.toList = some e.value
  finite : e.value.isFinite = true
  integral : e.target ≠ .valueRecorder → Binary64.isIntegral e.value = true
  pairs : ∀ pair ∈ e.pairs, LegiblePair pair
  unquoted : Trimmed (· = '"') (labelsText e.pairs)

instance (e : Entry) : Decidable e.Legible :=
  decidable_of_iff
    (e.spelling ∈ e.target.spellings ∧ (',' ∉ e.number.toList ∧ '\n' ∉ e.number.toList) ∧
      Trimmed isBlank e.number.toList ∧ Decimal.read? e.number.toList = some e.value ∧
      e.value.isFinite = true ∧
      (e.target ≠ .valueRecorder → Binary64.isIntegral e.value = true) ∧
      (∀ pair ∈ e.pairs, LegiblePair pair) ∧ Trimmed (· = '"') (labelsText e.pairs))
    ⟨fun ⟨spelling, plain, trimmed, value, finite, integral, pairs, unquoted⟩ =>
        ⟨spelling, plain, trimmed, value, finite, integral, pairs, unquoted⟩,
      fun ⟨spelling, plain, trimmed, value, finite, integral, pairs, unquoted⟩ =>
        ⟨spelling, plain, trimmed, value, finite, integral, pairs, unquoted⟩⟩

variable {e : Entry}

theorem Legible.trimmed (legible : e.Legible) : Trimmed isBlank e.text := by
  have name := (Target.spelling_plain legible.spelling).2.2.2
  refine name.append_cons ?_ (by decide)
  have pairs := legible.pairs
  rw [Entry.pairs] at pairs
  cases labels : e.labels with
  | none =>
    rw [List.append_nil]
    exact legible.numberTrimmed
  | some written =>
    rw [labels] at pairs
    exact legible.numberTrimmed.append_cons (trimmed_labelsText pairs) (by decide)

theorem Legible.notMem_newline (legible : e.Legible) : '\n' ∉ e.text := by
  have name := (Target.spelling_plain legible.spelling).2.2.1
  have number := legible.numberPlain.2
  have pairs := legible.pairs
  rw [Entry.pairs] at pairs
  cases labels : e.labels with
  | none => simp [text, labels, name, number]
  | some written =>
    rw [labels] at pairs
    have plain : '\n' ∉ labelsText written :=
      notMem_intercalate (by decide) fun field member => by
        obtain ⟨pair, among, rfl⟩ := List.mem_map.1 member
        exact (pairs pair among).notMem_newline
    simp [text, labels, name, number, plain]

theorem Legible.not_skipped (legible : e.Legible) : isSkipped e.text = false := by
  obtain ⟨⟨c, rest, name, other⟩, -⟩ := Target.spelling_plain legible.spelling
  rw [text, name]
  simp [isSkipped, other]

theorem Legible.readValue (legible : e.Legible) :
    readValue e.target e.number.toList = .ok e.value := by
  have fraction : (decide (e.target ≠ .valueRecorder) && !Binary64.isIntegral e.value) = false := by
    by_cases recorded : e.target = .valueRecorder
    · simp [recorded]
    · simp [legible.integral recorded]
  rw [Workload.readValue, legible.value]
  simp only [legible.finite, fraction]
  rfl

/-- The step of a line is read in its three fields. -/
theorem Legible.read (legible : e.Legible) : readLine e.text = .ok e.step := by
  obtain ⟨-, comma, -, plain⟩ := Target.spelling_plain legible.spelling
  have name : trim e.spelling.toList = e.spelling.toList := trimWhile_self plain
  have number : trim e.number.toList = e.number.toList := trimWhile_self legible.numberTrimmed
  have target : Target.read e.spelling.toList = .ok e.target := by
    rw [Target.read_eq_ok_iff, String.ofList_toList]
    exact legible.spelling
  have labels := readLabels_labelsText legible.pairs legible.unquoted
  rw [readLine, text, cut_append_cons comma, step]
  simp only [name, target, Option.map_some]
  rw [Entry.pairs] at labels ⊢
  cases written : e.labels with
  | none =>
    rw [written] at labels
    have none_ : readLabels [] = .ok (LabelSet.ofList []) := labels
    rw [List.append_nil, cut_of_notMem legible.numberPlain.1]
    simp only [number, legible.readValue, Option.getD_none, none_]
  | some pairs =>
    rw [written] at labels
    simp only [cut_append_cons legible.numberPlain.1, number, legible.readValue, Option.getD_some,
      labels] at labels ⊢

end Entry

/-- A line of a workload. -/
inductive Line
  /-- A step, with blanks around it. -/
  | step (before : List Char) (e : Entry) (after : List Char)
  | blank (text : List Char)
  /-- A remark, with blanks before it. -/
  | remark (before text : List Char)

namespace Line

/-- What stands on the line. -/
def text : Line → List Char
  | step before e after => before ++ (e.text ++ after)
  | blank text => text
  | remark before text => before ++ '#' :: text

/-- The step that is meant, if one is. -/
def step? : Line → Option Step
  | step _ e _ => some e.step
  | blank _ => none
  | remark _ _ => none

/-- Characters that are blank and do not end a line. -/
def Blank (text : List Char) : Prop := ∀ c ∈ text, isBlank c = true ∧ c ≠ '\n'

/-- A line that can be written so. -/
def Legible : Line → Prop
  | step before e after => Blank before ∧ e.Legible ∧ Blank after
  | blank text => Blank text
  | remark before text => Blank before ∧ '\n' ∉ text

instance (text : List Char) : Decidable (Blank text) :=
  List.decidableBAll (fun c => isBlank c = true ∧ c ≠ '\n') text

instance : (line : Line) → Decidable line.Legible
  | step before e after => inferInstanceAs (Decidable (Blank before ∧ e.Legible ∧ Blank after))
  | blank text => inferInstanceAs (Decidable (Blank text))
  | remark before text => inferInstanceAs (Decidable (Blank before ∧ '\n' ∉ text))

variable {line : Line} {lines : List Line}

theorem notMem_of_blank {text : List Char} (blank : Blank text) : '\n' ∉ text :=
  fun member => (blank _ member).2 rfl

theorem Legible.notMem_newline (legible : line.Legible) : '\n' ∉ line.text := by
  cases line with
  | step before e after =>
    obtain ⟨left, written, right⟩ := legible
    simp [text, notMem_of_blank left, written.notMem_newline, notMem_of_blank right]
  | blank text => exact notMem_of_blank legible
  | remark before text =>
    obtain ⟨left, plain⟩ := legible
    simp [Line.text, notMem_of_blank left, plain]

/-- Lines that are blank and remarks are passed over; of the others the step is read. -/
theorem Legible.read (legible : line.Legible) (number : Nat) (rest : List (List Char)) :
    readLines number (line.text :: rest) =
      (readLines (number + 1) rest).map (line.step?.toList ++ ·) := by
  have nothing : ∀ result : Except Fault (List Step), result.map ([] ++ ·) = result := by
    intro result
    cases result <;> rfl
  cases line with
  | step before e after =>
    obtain ⟨left, written, right⟩ := legible
    have bare : trim (before ++ (e.text ++ after)) = e.text :=
      trimWhile_of_trimmed written.trimmed (fun c member => (left c member).1)
        fun c member => (right c member).1
    rw [readLines, text, bare, written.not_skipped, if_neg Bool.false_ne_true, written.read]
    rfl
  | blank text =>
    have bare : trim (text ++ ([] ++ [])) = [] :=
      trimWhile_of_trimmed (trimmed_nil isBlank) (fun c member => (legible c member).1)
        fun _ none_ => nomatch none_
    rw [List.append_nil, List.append_nil] at bare
    have skipped : isSkipped [] = true := rfl
    rw [readLines, Line.text, bare, skipped, if_pos rfl]
    exact (nothing _).symm
  | remark before text =>
    obtain ⟨left, -⟩ := legible
    have begins : (trim (before ++ '#' :: text)).head? = some '#' :=
      head?_trimWhile (fun c member => (left c member).1) (by decide)
    have skipped : isSkipped (trim (before ++ '#' :: text)) = true := by
      rw [isSkipped, begins]
      simp
    rw [readLines, Line.text, skipped, if_pos rfl]
    exact (nothing _).symm

end Line

/-! ## What is read -/

theorem isFinite_of_readValue {target : Target} {text : List Char} {x : Float}
    (given : readValue target text = .ok x) : x.isFinite = true := by
  rw [readValue] at given
  cases number : Decimal.read? text with
  | none =>
    rw [number] at given
    cases given
  | some y =>
    rw [number] at given
    cases finite : y.isFinite with
    | false => simp [finite] at given
    | true =>
      simp only [finite, Bool.not_true, Bool.false_eq_true, if_false] at given
      split at given
      · cases given
      · cases given
        exact finite

/-- Just finite values are read. -/
theorem isFinite_of_readLine {line : List Char} {s : Step} (given : readLine line = .ok s) :
    s.value.isFinite = true := by
  rw [readLine] at given
  dsimp only at given
  split at given
  · cases given
  · split at given
    · cases given
    · split at given
      · cases given
      · rename_i value
        split at given
        · cases given
        · cases given
          exact isFinite_of_readValue value

/-- Each step is read from a line of its own, which is not empty. -/
theorem of_readLines (lines : List (List Char)) : ∀ {number : Nat} {steps : List Step},
    readLines number lines = .ok steps →
      (∀ s ∈ steps, ∃ line ∈ lines, readLine (trim line) = .ok s) ∧
        steps.length ≤ (lines.map List.length).sum := by
  induction lines with
  | nil =>
    intro number steps given
    cases given
    exact ⟨fun _ none_ => (nomatch none_), Nat.le_refl 0⟩
  | cons line rest ih =>
    intro number steps given
    rw [readLines] at given
    rw [List.map_cons, List.sum_cons]
    split at given
    · obtain ⟨lines, length⟩ := ih given
      refine ⟨fun s member => ?_, by omega⟩
      obtain ⟨later, among, read_⟩ := lines s member
      exact ⟨later, List.mem_cons_of_mem line among, read_⟩
    · rename_i some_
      have long : 0 < line.length := by
        cases line with
        | nil => exact absurd rfl some_
        | cons c more => exact Nat.succ_pos _
      split at given
      · cases given
      · rename_i step read_
        cases others : readLines (number + 1) rest with
        | error e =>
          rw [others] at given
          cases given
        | ok more =>
          rw [others] at given
          cases given
          obtain ⟨lines, length⟩ := ih others
          refine ⟨fun s member => ?_, by rw [List.length_cons]; omega⟩
          rcases List.mem_cons.1 member with rfl | later
          · exact ⟨line, List.mem_cons_self, read_⟩
          · obtain ⟨other, among, read_⟩ := lines s later
            exact ⟨other, List.mem_cons_of_mem line among, read_⟩

/-- The steps that are read have finite values, and are no more than the text has characters. -/
theorem of_read {text : String} {steps : List Step} (given : read text = .ok steps) :
    (∀ s ∈ steps, s.value.isFinite = true) ∧ steps.length ≤ text.length := by
  obtain ⟨lines, length⟩ := of_readLines _ given
  have held := Text.sum_length_split '\n' text.toList
  rw [String.length_toList] at held
  refine ⟨fun s member => ?_, length.trans held⟩
  obtain ⟨line, -, read_⟩ := lines s member
  exact isFinite_of_readLine read_

/-- A key and a value are parts of the text that they are read from. -/
theorem subset_of_readPair {text : List Char} {pair : String × String}
    (given : readPair text = .ok pair) : pair.1.toList ⊆ text ∧ pair.2.toList ⊆ text := by
  obtain ⟨first, second⟩ := cut_subset '=' text
  rw [readPair] at given
  split at given
  · cases given
  · rename_i key value cuts
    rw [cuts] at first second
    split at given
    · cases given
    · cases given
      rw [String.toList_ofList, String.toList_ofList]
      exact ⟨List.Subset.trans (trimWhile_subset _ _) first,
        List.Subset.trans (trimWhile_subset _ _) (second value rfl)⟩

theorem exists_of_mapM_readPair {texts : List (List Char)} : ∀ {pairs : List (String × String)},
    texts.mapM readPair = .ok pairs → ∀ pair ∈ pairs, ∃ text ∈ texts, readPair text = .ok pair := by
  induction texts with
  | nil =>
    intro pairs given
    cases given
    exact fun _ none_ => nomatch none_
  | cons text rest ih =>
    intro pairs given
    rw [List.mapM_cons] at given
    cases first : readPair text with
    | error e =>
      rw [first] at given
      cases given
    | ok pair =>
      cases others : rest.mapM readPair with
      | error e =>
        rw [first, others] at given
        cases given
      | ok more =>
        rw [first, others] at given
        cases given
        refine List.forall_mem_cons.2 ⟨⟨text, List.mem_cons_self, first⟩, fun pair member => ?_⟩
        obtain ⟨other, among, read_⟩ := ih others pair member
        exact ⟨other, List.mem_cons_of_mem text among, read_⟩

/-- Labels are parts of the text that they are read from. -/
theorem subset_of_readLabels {text : List Char} {l : LabelSet} (given : readLabels text = .ok l) :
    ∀ pair ∈ l.toList, pair.1.toList ⊆ text ∧ pair.2.toList ⊆ text := by
  rw [readLabels] at given
  generalize fields_ : (((split ';' (trimWhile (· = '"') (trim text))).map trim).filter
    fun p => !p.isEmpty) = fields at given
  have within : ∀ field ∈ fields, field ⊆ text := by
    intro field member
    rw [← fields_] at member
    obtain ⟨raw, among, rfl⟩ := List.mem_map.1 (List.mem_filter.1 member).1
    have whole : trimWhile (· = '"') (trim text) ⊆ text :=
      List.Subset.trans (trimWhile_subset _ _) (trimWhile_subset _ _)
    exact List.Subset.trans (trimWhile_subset _ _)
      (List.Subset.trans (of_mem_split among).1 whole)
  cases read_ : fields.mapM readPair with
  | error e =>
    rw [read_] at given
    cases given
  | ok pairs =>
    rw [read_] at given
    cases given
    intro pair member
    obtain ⟨field, among, one⟩ :=
      exists_of_mapM_readPair read_ pair (LabelSet.mem_of_mem_ofList member)
    obtain ⟨key, value⟩ := subset_of_readPair one
    exact ⟨List.Subset.trans key (within field among), List.Subset.trans value (within field among)⟩

/-- The labels of a step are parts of its line. -/
theorem subset_of_readLine {line : List Char} {s : Step} (given : readLine line = .ok s) :
    ∀ pair ∈ s.labels.toList, pair.1.toList ⊆ line ∧ pair.2.toList ⊆ line := by
  obtain ⟨-, afterName⟩ := cut_subset ',' line
  rw [readLine] at given
  dsimp only at given
  split at given
  · cases given
  · cases rest : (cut ',' line).2 with
    | none =>
      rw [rest] at given
      cases given
    | some text =>
      obtain ⟨-, afterValue⟩ := cut_subset ',' text
      have within : ((cut ',' text).2.getD []) ⊆ line := by
        cases last : (cut ',' text).2 with
        | none => exact List.nil_subset line
        | some labels => exact List.Subset.trans (afterValue labels last) (afterName text rest)
      rw [rest] at given
      dsimp only [Option.map_some] at given
      split at given
      · cases given
      · split at given
        · cases given
        · rename_i l labels
          cases given
          intro pair member
          obtain ⟨key, value⟩ := subset_of_readLabels labels pair member
          exact ⟨List.Subset.trans key within, List.Subset.trans value within⟩

/-- The labels that are read fit on one line, as the steps do. -/
theorem oneLine_of_read {text : String} {steps : List Step} (given : read text = .ok steps) :
    ∀ s ∈ steps, OneLine s.labels.canonical := by
  intro s member broken
  obtain ⟨line, among, read_⟩ := (of_readLines _ given).1 s member
  have free : '\n' ∉ trim line := fun held => (of_mem_split among).2 (trimWhile_subset _ _ held)
  rcases LabelSet.mem_canonical broken with special | ⟨pair, label, held⟩
  · exact absurd special (by decide)
  · obtain ⟨key, value⟩ := subset_of_readLine read_ pair label
    exact free (held.elim (key ·) (value ·))

/-! ## Texts -/

theorem readLines_written {lines : List Line} (legible : ∀ line ∈ lines, line.Legible) :
    ∀ number : Nat, readLines number (lines.map Line.text) = .ok (lines.filterMap Line.step?) := by
  induction lines with
  | nil => exact fun _ => rfl
  | cons line rest ih =>
    intro number
    rw [List.map_cons, (legible line List.mem_cons_self).read,
      ih (fun line member => legible line (List.mem_cons_of_mem _ member))]
    cases step : line.step? with
    | none => rw [List.filterMap_cons_none step]; rfl
    | some s => rw [List.filterMap_cons_some step]; rfl

/-- The text of some lines; each but the last is ended. -/
def written (lines : List Line) : String :=
  String.ofList (['\n'].intercalate (lines.map Line.text))

/-- Of a text whose lines are written as steps, blank lines and remarks, the steps are read, one for
one and in their order: their targets, the values of their numbers, and their labels, of which the
later wins where two have one key. -/
theorem read_written (lines : List Line) (legible : ∀ line ∈ lines, line.Legible) :
    read (written lines) = .ok (lines.filterMap Line.step?) := by
  rw [read, written, String.toList_ofList]
  cases lines with
  | nil => rfl
  | cons first rest =>
    have plain : ∀ text ∈ (first :: rest).map Line.text, '\n' ∉ text := by
      intro text member
      obtain ⟨line, among, rfl⟩ := List.mem_map.1 member
      exact (legible line among).notMem_newline
    rw [split_intercalate (by simp) plain]
    exact readLines_written legible 1

/-- Lines that end in a carriage return as well, a remark, a blank line, a number with an exponent,
a value with separators of other levels in it, quotes within the labels, and a key that comes twice. -/
theorem read_separators_in_values :
    let lines : List Line := [
      .remark [' '] "counter,1".toList,
      .step [] ⟨.counter, "ctr", "12e1", 120.0, some [("route", "/a,b=c"), ("t", "x:\\y")]⟩ ['\r'],
      .blank ['\t'],
      .step [' '] ⟨.valueRecorder, "recorder", "-0.5", -0.5,
        some [("k", ""), ("q\"", "\"1"), ("k", "2")]⟩ [],
      .step [] ⟨.upDownCounter, "updown", "+3", 3.0, none⟩ [], .blank []]
    written lines =
        " #counter,1\nctr,12e1,route=/a,b=c;t=x:\\y\r\n\t\n recorder,-0.5,k=;q\"=\"1;k=2\n"
          ++ "updown,+3\n" ∧
      read (written lines) = .ok [
        ⟨.counter, 120.0, .ofList [("route", "/a,b=c"), ("t", "x:\\y")]⟩,
        ⟨.valueRecorder, -0.5, .ofList [("q\"", "\"1"), ("k", "2")]⟩,
        ⟨.upDownCounter, 3.0, .empty⟩] := by
  intro lines
  have legible : ∀ line ∈ lines, line.Legible := by decide +kernel
  exact ⟨by decide +kernel, (read_written lines legible).trans (by rfl)⟩

end Metering.Workload
