import Metering.Export.Stream
import Metering.Proofs.Export.Json

/-!
# Lines of exported JSON

A batch that is exported as JSON writes a line for each record up to the first whose time is before
the epoch, and the beginning of that one. It has no line break, so what the next batch writes goes
on in the same line. Counting the objects that are left open tells the two cases apart: an output
is made of whole lines just if no export has failed.
-/

namespace Metering.TextStream

open Text Text.Json

/-! ## Batches one after the other -/

/-- Sends batches one after the other to a sink that takes everything. -/
def sendAll (s : TextStream) : List (List Record) → List (Except Error Unit) × TextStream
  | [] => ([], s)
  | batch :: more =>
    let (outcome, sent) := s.send none batch
    let (outcomes, last) := sent.sendAll more
    (outcome :: outcomes, last)

/-- The lines that a batch completes. -/
def jsonLines (batch : List Record) : List String :=
  (batch.takeWhile (!·.isBeforeEpoch)).map Record.wholeJson

/-- What a batch writes after its lines: the beginning of the first record before the epoch. -/
def jsonRest (batch : List Record) : String :=
  (batch.find? Record.isBeforeEpoch).elim "" Record.jsonBeforeTime

/-- What a batch writes. -/
def jsonText (batch : List Record) : String := ofLines (jsonLines batch) ++ jsonRest batch

/-- What comes of a batch: it fails if one of its records is before the epoch. -/
def jsonOutcome (batch : List Record) : Except Error Unit :=
  if batch.any Record.isBeforeEpoch then .error (.exportFailed .beforeEpoch)
  else .ok ()

theorem jsonOutcome_eq_ok_iff {batch : List Record} :
    jsonOutcome batch = .ok () ↔ batch.any Record.isBeforeEpoch = false := by
  unfold jsonOutcome
  split <;> simp_all

theorem jsonLines_of_ok {batch : List Record} (fine : jsonOutcome batch = .ok ()) :
    jsonLines batch = batch.map Record.wholeJson := by
  have after := List.any_eq_false.1 (jsonOutcome_eq_ok_iff.1 fine)
  rw [jsonLines, List.takeWhile_eq_self_iff.2]
  intro r member
  simpa using after r member

theorem jsonRest_of_ok {batch : List Record} (fine : jsonOutcome batch = .ok ()) :
    jsonRest batch = "" := by
  have after := List.any_eq_false.1 (jsonOutcome_eq_ok_iff.1 fine)
  rw [jsonRest, List.find?_eq_none.2 after]
  rfl

theorem jsonText_of_before {r : Record} (before : r.isBeforeEpoch = true) (rest : List Record) :
    jsonText (r :: rest) = r.jsonBeforeTime := by
  simp [jsonText, jsonLines, jsonRest, before, ofLines_nil]

theorem jsonText_of_after {r : Record} (after : r.isBeforeEpoch = false) (rest : List Record) :
    jsonText (r :: rest) = r.wholeJson ++ "\n" ++ jsonText rest := by
  have lines : jsonLines (r :: rest) = r.wholeJson :: jsonLines rest := by simp [jsonLines, after]
  have last : jsonRest (r :: rest) = jsonRest rest := by simp [jsonRest, after]
  rw [jsonText, lines, last, ofLines_cons, String.append_assoc]
  rfl

theorem writeJson_eq (batch : List Record) :
    (writeJson batch).text = jsonText batch ∧
      (writeJson batch).fault =
        if batch.any Record.isBeforeEpoch then some .beforeEpoch else none := by
  induction batch with
  | nil => exact ⟨rfl, rfl⟩
  | cons r rest ih =>
    unfold writeJson
    rw [r.json_eq, List.any_cons]
    cases before : r.isBeforeEpoch with
    | true => exact ⟨(jsonText_of_before before rest).symm, rfl⟩
    | false =>
      rw [jsonText_of_after before, ← ih.1, Bool.false_or, ← ih.2]
      exact ⟨rfl, rfl⟩

theorem send_json {s : TextStream} (json : s.format = .json) (batch : List Record) :
    s.send none batch = (jsonOutcome batch,
      { s with
        batches := s.batches + 1
        output := s.output ++ jsonText batch }) := by
  have written : s.write batch = writeJson batch := by rw [write, json]
  obtain ⟨text, fault⟩ := writeJson_eq batch
  rw [send, written]
  dsimp only
  rw [fault, text, jsonOutcome]
  cases batch.any Record.isBeforeEpoch <;> rfl

/-- What batches write when they are sent one after the other. -/
theorem sendAll_json {s : TextStream} (json : s.format = .json) (batches : List (List Record)) :
    (s.sendAll batches).1 = batches.map jsonOutcome ∧
      (s.sendAll batches).2.output =
        s.output ++ String.join (batches.map jsonText) := by
  induction batches generalizing s with
  | nil => exact ⟨rfl, String.append_empty.symm⟩
  | cons batch more ih =>
    rw [sendAll, send_json json]
    obtain ⟨outcomes, output⟩ := ih (s := { s with
      batches := s.batches + 1
      output := s.output ++ jsonText batch }) json
    refine ⟨congrArg (jsonOutcome batch :: ·) outcomes, output.trans ?_⟩
    rw [List.map_cons, String.join_cons, String.append_assoc]

/-! ## Whole lines -/

/-- An output of full JSON texts of some of the records, in their order, each on one line that ends
in a line break. -/
def Framed (output : String) (records : List Record) : Prop :=
  ∃ (written : List Record) (lines : List String), written.Sublist records ∧
    written.map Record.json = lines.map .ok ∧ (∀ line ∈ lines, OneLine line) ∧
      output = ofLines lines

theorem closed_ofLines {lines : List String} (each : ∀ line ∈ lines, Closed line) :
    Closed (ofLines lines) := by
  have lineBreak : Closed "\n" := fun _ => rfl
  induction lines with
  | nil => exact fun _ => rfl
  | cons line rest ih =>
    obtain ⟨first, others⟩ := List.forall_mem_cons.1 each
    rw [ofLines_cons]
    exact (first.append lineBreak).append (ih others)

theorem closed_ofLines_wholeJson (records : List Record) :
    Closed (ofLines (records.map Record.wholeJson)) :=
  closed_ofLines (List.forall_mem_map.2 fun r _ => r.whole_wholeJson.closed)

theorem Framed.closed {output : String} {records : List Record} (framed : Framed output records) :
    Closed output := by
  obtain ⟨written, lines, -, texts, -, rfl⟩ := framed
  refine closed_ofLines fun line member => ?_
  obtain ⟨r, -, text⟩ : ∃ r ∈ written, r.json = .ok line := by
    rw [← List.mem_map, texts]
    exact List.mem_map_of_mem member
  rw [r.json_eq] at text
  split at text
  · cases text
  · cases text
    exact r.whole_wholeJson.closed

theorem framed_of_afterEpoch {records : List Record}
    (after : ∀ r ∈ records, r.isBeforeEpoch = false) :
    Framed (ofLines (records.map Record.wholeJson)) records := by
  refine ⟨records, _, .refl records, ?_,
    List.forall_mem_map.2 fun r _ => r.whole_wholeJson.oneLine, rfl⟩
  rw [List.map_map]
  refine List.map_congr_left fun r member => ?_
  rw [r.json_eq, after r member]
  rfl

/-- A batch that fails leaves an object open. -/
theorem read_batch (depth : Nat) (batch : List Record) :
    Cursor.read ⟨.outside, depth⟩ (jsonText batch).toList =
      ⟨.outside, depth + if batch.any Record.isBeforeEpoch then 1 else 0⟩ := by
  rw [jsonText, String.toList_append, Cursor.read_append, jsonLines, closed_ofLines_wholeJson]
  unfold jsonRest
  cases found : batch.find? Record.isBeforeEpoch with
  | none =>
    rw [List.find?_eq_none] at found
    rw [List.any_eq_false.2 found]
    rfl
  | some r =>
    have some_ : batch.any Record.isBeforeEpoch = true :=
      List.any_eq_true.2 ⟨r, List.mem_of_find?_eq_some found, List.find?_some found⟩
    rw [some_]
    exact r.read_jsonBeforeTime depth

/-- As many objects are left open as batches fail. -/
theorem read_batches (depth : Nat) (batches : List (List Record)) :
    Cursor.read ⟨.outside, depth⟩ (String.join (batches.map jsonText)).toList =
      ⟨.outside, depth + batches.countP (List.any · Record.isBeforeEpoch)⟩ := by
  induction batches generalizing depth with
  | nil => rfl
  | cons batch more ih =>
    rw [List.map_cons, String.join_cons, String.toList_append, Cursor.read_append, read_batch, ih,
      List.countP_cons, Nat.add_assoc, Nat.add_comm (ite _ _ _)]

/-- An output that ends all objects is the output of batches that do not fail. -/
theorem closed_sendAll_iff (batches : List (List Record)) :
    Closed ((empty .json).sendAll batches).2.output ↔
      ∀ outcome ∈ ((empty .json).sendAll batches).1, outcome = .ok () := by
  obtain ⟨outcomes, output⟩ := sendAll_json (s := empty .json) rfl batches
  rw [outcomes, output, List.forall_mem_map]
  simp only [jsonOutcome_eq_ok_iff]
  have left (depth : Nat) := read_batches depth batches
  have none_ : (batches.countP (List.any · Record.isBeforeEpoch)) = 0 ↔
      ∀ batch ∈ batches, (batch.any Record.isBeforeEpoch) = false := by
    simp only [List.countP_eq_zero, Bool.not_eq_true]
  rw [← none_]
  -- The depth at which a reader ends, from the outermost, is the number of the batches that failed.
  refine ⟨fun closed => ?_, fun zero depth => ?_⟩
  · have same := (left 0).symm.trans (closed 0)
    rw [Nat.zero_add] at same
    exact (Cursor.mk.inj same).2
  · rw [zero] at left
    exact left depth

/-- Batches that do not fail write all their records. -/
theorem output_of_ok {batches : List (List Record)}
    (fine : ∀ outcome ∈ ((empty .json).sendAll batches).1, outcome = .ok ()) :
    ((empty .json).sendAll batches).2.output =
      ofLines (batches.flatten.map Record.wholeJson) := by
  obtain ⟨outcomes, output⟩ := sendAll_json (s := empty .json) rfl batches
  rw [outcomes, List.forall_mem_map] at fine
  rw [output]
  clear outcomes output
  refine String.empty_append.trans ?_
  induction batches with
  | nil => rfl
  | cons batch more ih =>
    obtain ⟨first, others⟩ := List.forall_mem_cons.1 fine
    rw [List.map_cons, String.join_cons, ih others, jsonText, jsonLines_of_ok first,
      jsonRest_of_ok first, String.append_empty, List.flatten_cons, List.map_append,
      ofLines_append]

/-- Whatever batches are sent, one fails exactly if a record of it is before the epoch, and it has
then written the lines of the records before that one and, without a line break, the beginning of
that one. The output consists of full texts of records on lines of their own exactly if no batch
has failed, and these are then the texts of all records. -/
theorem json_framed_iff_exports_succeed (batches : List (List Record)) :
    let run := (empty .json).sendAll batches
    run.1 = batches.map jsonOutcome ∧
      run.2.output =
        String.join (batches.map fun batch => ofLines (jsonLines batch) ++ jsonRest batch) ∧
      (∀ batch ∈ batches, (∀ line ∈ jsonLines batch, OneLine line) ∧ OneLine (jsonRest batch)) ∧
      (Framed run.2.output batches.flatten ↔ ∀ outcome ∈ run.1, outcome = .ok ()) ∧
      (Framed run.2.output batches.flatten ↔
        run.2.output = ofLines (batches.flatten.map Record.wholeJson)) := by
  intro run
  obtain ⟨outcomes, output⟩ := sendAll_json (s := empty .json) rfl batches
  have succeed : Framed run.2.output batches.flatten → ∀ outcome ∈ run.1, outcome = .ok () :=
    fun framed => (closed_sendAll_iff batches).1 framed.closed
  have framed : (∀ outcome ∈ run.1, outcome = .ok ()) → Framed run.2.output batches.flatten := by
    intro fine
    rw [output_of_ok fine]
    rw [outcomes, List.forall_mem_map] at fine
    refine framed_of_afterEpoch fun r member => ?_
    obtain ⟨batch, within, member⟩ := List.mem_flatten.1 member
    have after := List.any_eq_false.1 (jsonOutcome_eq_ok_iff.1 (fine batch within))
    exact Bool.eq_false_iff.2 (after r member)
  refine ⟨outcomes, output.trans String.empty_append, fun batch _ => ⟨?_, ?_⟩,
    ⟨succeed, framed⟩, ⟨fun whole => output_of_ok (succeed whole), fun all => framed ?_⟩⟩
  · exact List.forall_mem_map.2 fun r _ => r.whole_wholeJson.oneLine
  · unfold jsonRest
    cases batch.find? Record.isBeforeEpoch with
    | none => decide
    | some r => exact r.oneLine_jsonBeforeTime
  · rw [← closed_sendAll_iff]
    exact all ▸ closed_ofLines_wholeJson batches.flatten

/-- A count of three hits at a point in time. -/
def hits (nanoseconds : Int) : Record :=
  ⟨⟨"hits", "", "1", .counter, .int64, true⟩, "k:v,", .sum (.integer 3), ⟨nanoseconds⟩⟩

/-- A record from a second before the epoch makes its batch fail, and the record of the next batch,
which does not fail, goes on in the line that it has begun. -/
theorem failed_export_leaves_open_line :
    let early := hits (-1000000000)
    let late := hits 1000000000
    let run := (empty .json).sendAll [[early], [late]]
    run.1 = [.error (.exportFailed .beforeEpoch), .ok ()] ∧
      run.2.output = early.jsonBeforeTime ++ (late.wholeJson ++ "\n") ∧
      early.jsonBeforeTime =
        "\x7b\"name\":\"hits\",\"description\":\"\",\"unit\":\"1\",\"kind\":\"counter\"," ++
          "\"number_kind\":\"i64\",\"enabled\":true,\"labels\":\"k:v,\"," ++
          "\"aggregator\":\"sum\",\"value\":\x7b\"kind\":\"sum\",\"value\":3\x7d," ++
          "\"timestamp\":" ∧
      ¬ Framed run.2.output [early, late] := by
  intro early late run
  have outcomes : run.1 = [.error (.exportFailed .beforeEpoch), .ok ()] :=
    (sendAll_json rfl [[early], [late]]).1
  refine ⟨outcomes, by decide +kernel, by decide +kernel, fun framed => ?_⟩
  have fine := (closed_sendAll_iff [[early], [late]]).1 framed.closed
  have failed : .error (.exportFailed .beforeEpoch) ∈ run.1 := by
    rw [outcomes]
    exact List.mem_cons_self
  exact nomatch fine _ failed

end Metering.TextStream
