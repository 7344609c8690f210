import Metering.Export.Line
import Metering.Proofs.Decimal
import Metering.Proofs.Text

/-!
# JSON texts read character by character

`Cursor` is what a reader has to remember to know which braces of a JSON text belong to objects:
whether it is in a string, and how many objects have begun and not ended. A text that is put
together by the writers of `Text.Json` from whole texts is whole again: it has no line break and
leaves the cursor where it was. So does every record with a time that has JSON; what precedes the
time of a record leaves one object open.
-/

namespace Metering

namespace Text.Json

/-- Where a reader stands with respect to strings. -/
inductive Quoting
  | outside
  | inside
  /-- Inside a string, right after a backslash. -/
  | escaped
deriving DecidableEq, Repr

/-- How far a text has been read. -/
structure Cursor where
  quoting : Quoting
  /-- The number of objects that have begun and not ended. -/
  depth : Nat
deriving DecidableEq, Repr

namespace Cursor

/-- Reads one character. -/
def next (k : Cursor) (c : Char) : Cursor :=
  match k.quoting with
  | .outside =>
    if c = '"' then { k with quoting := .inside }
    else if c = '\x7b' then { k with depth := k.depth + 1 }
    else if c = '\x7d' then { k with depth := k.depth - 1 }
    else k
  | .inside =>
    if c = '"' then { k with quoting := .outside }
    else if c = '\\' then { k with quoting := .escaped }
    else k
  | .escaped => { k with quoting := .inside }

/-- Reads a text. -/
def read (k : Cursor) (text : List Char) : Cursor := text.foldl next k

theorem next_outside_of_ne {depth : Nat} {c : Char} (quote : c ≠ '"') (begin_ : c ≠ '\x7b')
    (end_ : c ≠ '\x7d') : next ⟨.outside, depth⟩ c = ⟨.outside, depth⟩ := by
  simp [next, quote, begin_, end_]

theorem next_inside_of_ne {depth : Nat} {c : Char} (quote : c ≠ '"') (backslash : c ≠ '\\') :
    next ⟨.inside, depth⟩ c = ⟨.inside, depth⟩ := by
  simp [next, quote, backslash]

variable (k : Cursor)

theorem read_cons (c : Char) (text : List Char) : k.read (c :: text) = (k.next c).read text := rfl

theorem read_append (first second : List Char) :
    k.read (first ++ second) = (k.read first).read second := List.foldl_append

/-- What is escaped stays in its string. -/
theorem read_escape (depth : Nat) (c : Char) :
    read ⟨.inside, depth⟩ (escape c) = ⟨.inside, depth⟩ := by
  unfold escape
  split
  any_goals rfl
  rename_i quote backslash _ _ _ _ _
  split
  · simp [read, next]
  · exact next_inside_of_ne quote backslash

theorem read_flatMap_escape (depth : Nat) (text : List Char) :
    read ⟨.inside, depth⟩ (text.flatMap escape) = ⟨.inside, depth⟩ := by
  induction text with
  | nil => rfl
  | cons c rest ih => rw [List.flatMap_cons, read_append, read_escape, ih]

end Cursor

/-- A text which ends the strings and objects that it begins, and no others. -/
def Closed (s : String) : Prop :=
  ∀ depth, Cursor.read ⟨.outside, depth⟩ s.toList = ⟨.outside, depth⟩

/-- A closed text on one line. -/
structure Whole (s : String) : Prop where
  oneLine : OneLine s
  closed : Closed s

variable {s t : String}

theorem Closed.append (first : Closed s) (second : Closed t) : Closed (s ++ t) := by
  intro depth
  rw [String.toList_append, Cursor.read_append, first, second]

theorem Whole.append (first : Whole s) (second : Whole t) : Whole (s ++ t) where
  oneLine := oneLine_append.2 ⟨first.oneLine, second.oneLine⟩
  closed := first.closed.append second.closed

theorem notMem_escape (c : Char) : '\n' ∉ escape c := by
  unfold escape
  split
  any_goals decide
  rename_i _ _ newline _ _ _ _
  split
  · simp
  · simpa using Ne.symm newline

theorem whole_text (s : String) : Whole (text s) where
  oneLine := by
    rw [text, oneLine_ofList]
    simp [notMem_escape]
  closed depth := by
    rw [text, String.toList_ofList, Cursor.read_cons, Cursor.read_append]
    exact congrArg (Cursor.read · ['"']) (Cursor.read_flatMap_escape depth s.toList)

theorem whole_of_numeral (numeral : Decimal.Numeral s.toList) : Whole s where
  oneLine member := absurd (numeral _ member) (by decide)
  closed depth := by
    generalize s.toList = text at numeral
    induction text with
    | nil => rfl
    | cons c rest ih =>
      obtain ⟨first, others⟩ := List.forall_mem_cons.1 numeral
      have ne : ∀ {d : Char}, Decimal.isNumeral d = false → c ≠ d := by
        rintro d other rfl
        exact absurd first (by rw [other]; exact Bool.false_ne_true)
      rw [Cursor.read_cons, Cursor.next_outside_of_ne (ne rfl) (ne rfl) (ne rfl), ih others]

theorem whole_integer (n : Int) : Whole (integer n) := whole_of_numeral (Decimal.numeral_int n)

theorem whole_float (x : Float) : Whole (float x) := whole_of_numeral (numeral_float x)

/-- Commas between whole texts keep them whole. -/
theorem whole_intercalate {items : List String} (each : ∀ item ∈ items, Whole item) :
    Whole (",".intercalate items) := by
  have comma : Whole "," := ⟨by decide, fun _ => rfl⟩
  induction items with
  | nil => exact ⟨by decide, fun _ => rfl⟩
  | cons item rest ih =>
    obtain ⟨first, others⟩ := List.forall_mem_cons.1 each
    cases rest with
    | nil =>
      rw [String.intercalate_singleton]
      exact first
    | cons next more =>
      rw [String.intercalate_cons_cons]
      exact (first.append comma).append (ih others)

theorem whole_array {items : List String} (each : ∀ item ∈ items, Whole item) :
    Whole (array items) := by
  have opening : Whole "[" := ⟨by decide, fun _ => rfl⟩
  have closing : Whole "]" := ⟨by decide, fun _ => rfl⟩
  exact (opening.append (whole_intercalate each)).append closing

theorem whole_member (key : String) {value : String} (whole : Whole value) :
    Whole (member key value) := by
  have colon : Whole ":" := ⟨by decide, fun _ => rfl⟩
  exact ((whole_text key).append colon).append whole

theorem oneLine_object {members : List String} (each : ∀ m ∈ members, Whole m) :
    OneLine (object members) := by
  have inner := (whole_intercalate each).oneLine
  exact oneLine_append.2 ⟨oneLine_append.2 ⟨by decide, inner⟩, by decide⟩

/-- What follows a brace is one object deeper. -/
theorem read_brace_append (depth : Nat) (s : String) :
    Cursor.read ⟨.outside, depth⟩ ("\x7b" ++ s).toList =
      Cursor.read ⟨.outside, depth + 1⟩ s.toList := by
  rw [String.toList_append, Cursor.read_append]
  rfl

theorem whole_object {members : List String} (each : ∀ m ∈ members, Whole m) :
    Whole (object members) where
  oneLine := oneLine_object each
  closed depth := by
    have inner := (whole_intercalate each).closed (depth + 1)
    rw [object, String.append_assoc, read_brace_append, String.toList_append, Cursor.read_append,
      inner]
    rfl

end Text.Json

open Text.Json

theorem Number.whole_json (n : Number) : Whole n.json := whole_of_numeral n.numeral_json

theorem MinMaxSumCount.whole_json (m : MinMaxSumCount) : Whole m.json := by
  have bound : ∀ n : Number, Whole (if m.isEmpty then "null" else n.json) := by
    intro n
    split
    · exact ⟨by decide, fun _ => rfl⟩
    · exact n.whole_json
  apply whole_object
  simp [whole_member, bound, Number.whole_json, whole_integer]

theorem Histogram.whole_json (h : Histogram) : Whole h.json := by
  have boundaries : Whole (array (h.boundaries.map float)) :=
    whole_array (List.forall_mem_map.2 fun x _ => whole_float x)
  have counts : Whole (array (h.counts.map fun (n : Nat) => integer n)) :=
    whole_array (List.forall_mem_map.2 fun n _ => whole_integer n)
  apply whole_object
  simp [whole_member, boundaries, counts, Number.whole_json, whole_integer]

theorem Sketch.whole_storeJson (store : Keyed Int Nat) : Whole (storeJson store) :=
  whole_object (List.forall_mem_map.2 fun e _ => whole_member _ (whole_integer e.2))

theorem Sketch.whole_json (s : Sketch) : Whole s.json := by
  apply whole_object
  simp [whole_member, whole_float, whole_storeJson, whole_integer, Number.whole_json]

theorem Aggregate.whole_json (a : Aggregate) : Whole a.json := by
  have contents : Whole a.contentsJson := by
    cases a with
    | sum total => exact total.whole_json
    | minMaxSumCount m => exact m.whole_json
    | histogram h => exact h.whole_json
    | sketch s => exact s.whole_json
  apply whole_object
  simp [whole_member, whole_text, contents]

namespace Record

variable (r : Record)

theorem whole_timeJson (t : Timestamp) : Whole (timeJson t) := by
  apply whole_object
  simp [whole_member, whole_integer]

theorem whole_membersBeforeTime : ∀ m ∈ r.membersBeforeTime, Whole m := by
  have flag : Whole (if r.descriptor.enabled then "true" else "false") := by
    split <;> exact ⟨by decide, fun _ => rfl⟩
  simp [membersBeforeTime, whole_member, whole_text, flag, Aggregate.whole_json]

/-- What precedes the time, but for the brace that begins the object. -/
theorem whole_beforeTime :
    Whole (",".intercalate (r.membersBeforeTime ++ [Text.Json.text "timestamp" ++ ":"])) := by
  have colon : Whole ":" := ⟨by decide, fun _ => rfl⟩
  exact whole_intercalate (List.forall_mem_append.2
    ⟨r.whole_membersBeforeTime, List.forall_mem_singleton.2 ((whole_text _).append colon)⟩)

theorem oneLine_jsonBeforeTime : Text.OneLine r.jsonBeforeTime :=
  Text.oneLine_append.2 ⟨by decide, r.whole_beforeTime.oneLine⟩

/-- What precedes the time leaves the object open. -/
theorem read_jsonBeforeTime (depth : Nat) :
    Cursor.read ⟨.outside, depth⟩ r.jsonBeforeTime.toList = ⟨.outside, depth + 1⟩ := by
  rw [jsonBeforeTime, read_brace_append]
  exact r.whole_beforeTime.closed (depth + 1)

/-- Whether the time of the record is before the epoch, so that the record has no JSON. -/
def isBeforeEpoch : Bool := r.timestamp.isBeforeEpoch

/-- The text of the record in JSON, if its time has any. -/
def wholeJson : String := r.jsonBeforeTime ++ timeJson r.timestamp ++ "\x7d"

theorem json_eq :
    r.json = if r.isBeforeEpoch then .error .beforeEpoch else .ok r.wholeJson := rfl

theorem whole_wholeJson : Whole r.wholeJson where
  oneLine := Text.oneLine_append.2
    ⟨Text.oneLine_append.2 ⟨r.oneLine_jsonBeforeTime, (whole_timeJson _).oneLine⟩, by decide⟩
  closed depth := by
    rw [wholeJson, String.toList_append, String.toList_append, Cursor.read_append,
      Cursor.read_append, read_jsonBeforeTime, (whole_timeJson _).closed]
    rfl

end Record

end Metering
