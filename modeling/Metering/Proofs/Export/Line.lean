import Metering.Export.Stream
import Metering.Proofs.Decimal
import Metering.Proofs.Labels
import Metering.Proofs.Text

/-!
# Lines of text for people

What stands in a line after the labels is made of the characters of numbers and a few others, among
them neither a brace nor a line break. The name and labels of a line are therefore what precedes its
last brace. The commas at the end of the labels are left out, yet nothing is lost: if two texts
differ in trailing commas only, then one is the other followed by commas, and as a canonical text
can be read from its front, these would have to be labels of their own.
-/

namespace Metering

/-! ## Labels without their last commas -/

namespace LabelSet

/-- A canonical text that another one begins with is that of its first labels. -/
theorem flatMap_canonicalPair_prefix {rest : List Char} : ∀ {ps qs : List (String × String)},
    qs.flatMap canonicalPair = ps.flatMap canonicalPair ++ rest →
      ∃ more, qs = ps ++ more ∧ more.flatMap canonicalPair = rest := by
  intro ps
  induction ps with
  | nil => exact fun {qs} same => ⟨qs, rfl, same⟩
  | cons p ps ih =>
    intro qs same
    rw [List.flatMap_cons, List.append_assoc] at same
    cases qs with
    | nil => exact absurd same.symm (canonicalPair_append_ne_nil p _)
    | cons q qs =>
      rw [List.flatMap_cons] at same
      obtain ⟨rfl, others⟩ := canonicalPair_append_inj same
      obtain ⟨more, rfl, text⟩ := ih others
      exact ⟨more, rfl, text⟩

/-- Commas alone are no labels. -/
theorem eq_nil_of_flatMap_canonicalPair {n : Nat} {ps : List (String × String)}
    (commas : ps.flatMap canonicalPair = List.replicate n ',') : ps = [] := by
  cases ps with
  | nil => rfl
  | cons p ps =>
    have colon : ':' ∈ List.replicate n ',' := by
      rw [← commas, List.flatMap_cons, canonicalPair_append]
      exact List.mem_append_right _ List.mem_cons_self
    exact absurd (List.eq_of_mem_replicate colon) (by decide)

end LabelSet

namespace Record

/-- What is left out at the end of a text are commas. -/
theorem append_withoutTrailingCommas (s : String) :
    ∃ n, s.toList = (withoutTrailingCommas s).toList ++ List.replicate n ',' := by
  let last := s.toList.reverse.takeWhile (· = ',')
  let others := s.toList.reverse.dropWhile (· = ',')
  have commas : last = List.replicate last.length ',' :=
    List.eq_replicate_iff.2 ⟨rfl, fun c member => by simpa using List.mem_takeWhile_imp member⟩
  refine ⟨last.length, ?_⟩
  calc s.toList = (last ++ others).reverse := by
        rw [List.takeWhile_append_dropWhile, List.reverse_reverse]
    _ = others.reverse ++ last.reverse := List.reverse_append
    _ = others.reverse ++ List.replicate last.length ',' := by
        rw [commas, List.reverse_replicate, List.length_replicate]
    _ = (withoutTrailingCommas s).toList ++ List.replicate last.length ',' := by
        rw [withoutTrailingCommas, String.toList_ofList]

/-- Labels are told by their canonical text even without the commas at its end. -/
theorem withoutTrailingCommas_canonical_inj {l l' : LabelSet}
    (same : withoutTrailingCommas l.canonical = withoutTrailingCommas l'.canonical) : l = l' := by
  obtain ⟨n, text⟩ := append_withoutTrailingCommas l.canonical
  obtain ⟨n', text'⟩ := append_withoutTrailingCommas l'.canonical
  rw [same] at text
  -- The one with more commas is the other followed by commas, which cannot be labels.
  have longer : ∀ {a b : LabelSet} {shared : List Char} {i j : Nat}, i ≤ j →
      a.canonical.toList = shared ++ List.replicate i ',' →
        b.canonical.toList = shared ++ List.replicate j ',' → a = b := by
    intro a b shared i j le first second
    obtain ⟨k, rfl⟩ := Nat.exists_eq_add_of_le le
    rw [List.replicate_add, ← List.append_assoc, ← first, LabelSet.canonical, LabelSet.canonical,
      String.toList_ofList, String.toList_ofList] at second
    obtain ⟨more, entries, commas⟩ := LabelSet.flatMap_canonicalPair_prefix second
    rw [LabelSet.eq_nil_of_flatMap_canonicalPair commas, List.append_nil] at entries
    rw [← LabelSet.canonical_inj, LabelSet.canonical, LabelSet.canonical, entries]
  rcases Nat.le_total n n' with le | le
  · exact longer le text text'
  · exact (longer le text' text).symm

end Record

/-! ## What stands after the labels -/

namespace Text

open Decimal (isNumeral Numeral)

/-- Whether a character can stand in a line after the labels. -/
def isReading (c : Char) : Bool :=
  isNumeral c || c = ' ' || c = '=' || c = '<' || c = ':' || c = '[' || c = ']' || c = '@' || c = '_'

/-- A text of characters that can stand in a line after the labels. -/
def Reading (s : String) : Prop := ∀ c ∈ s.toList, isReading c = true

instance (s : String) : Decidable (Reading s) :=
  List.decidableBAll (isReading · = true) s.toList

variable {s t : String}

theorem reading_append : Reading (s ++ t) ↔ Reading s ∧ Reading t := by
  rw [Reading, String.toList_append, List.forall_mem_append]
  rfl

theorem reading_of_numeral (numeral : Numeral s.toList) : Reading s := by
  intro c member
  rw [isReading, numeral c member]
  rfl

theorem reading_toString : Reading (toString s) ↔ Reading s := Iff.rfl

theorem reading_repr (n : Nat) : Reading n.repr := reading_of_numeral (Decimal.numeral_nat n)

theorem reading_intercalate {items : List String} (each : ∀ item ∈ items, Reading item) :
    Reading (" ".intercalate items) := by
  have blank : Reading " " := by decide
  induction items with
  | nil => decide
  | cons item rest ih =>
    obtain ⟨first, others⟩ := List.forall_mem_cons.1 each
    cases rest with
    | nil =>
      rw [String.intercalate_singleton]
      exact first
    | cons next more =>
      rw [String.intercalate_cons_cons]
      exact reading_append.2 ⟨reading_append.2 ⟨first, blank⟩, ih others⟩

theorem Reading.notMem (reading : Reading s) {c : Char} (other : isReading c = false) :
    c ∉ s.toList := by
  intro member
  rw [reading c member] at other
  cases other

end Text

open Text

theorem Number.reading_text (n : Number) : Reading n.text := reading_of_numeral n.numeral_text

theorem MinMaxSumCount.reading_text (m : MinMaxSumCount) : Reading m.text := by
  unfold text
  split
  · decide
  · simp +decide [reading_append, reading_toString, Number.reading_text, reading_repr]

theorem Histogram.reading_text (h : Histogram) : Reading h.text := by
  have bounds : ∀ bound ∈ h.boundaries.map (fun b => "<" ++ Decimal.plain.write b) ++ ["+inf"],
      Reading bound := by
    refine List.forall_mem_append.2
      ⟨List.forall_mem_map.2 fun b _ => reading_append.2 ⟨by decide, ?_⟩,
        List.forall_mem_singleton.2 (by decide)⟩
    exact reading_of_numeral (Decimal.plain.numeral_write b)
  have buckets : ∀ bucket ∈ List.zipWith (fun bound (n : Nat) => s!"{bound}:{n}")
      (h.boundaries.map (fun b => "<" ++ Decimal.plain.write b) ++ ["+inf"]) h.counts,
      Reading bucket := by
    rw [← List.map_uncurry_zip_eq_zipWith]
    refine List.forall_mem_map.2 ?_
    rintro ⟨bound, n⟩ member
    have start := bounds bound (List.of_mem_zip member).1
    exact reading_append.2 ⟨reading_append.2 ⟨start, by decide⟩, reading_repr n⟩
  have start : Reading s!"sum={h.sum.text} count={h.count} [" := by
    simp +decide [reading_append, reading_toString, Number.reading_text, reading_repr]
  exact reading_append.2 ⟨reading_append.2 ⟨start, reading_intercalate buckets⟩, by decide⟩

theorem Sketch.reading_text (s : Sketch) : Reading s.text := by
  have fixed : ∀ x, Reading (Decimal.fixed 3 x) := fun x =>
    reading_of_numeral (Decimal.numeral_fixed 3 x)
  unfold text
  split
  · decide
  · simp +decide [reading_append, reading_toString, Number.reading_text, reading_repr, fixed]

theorem Aggregate.reading_text (a : Aggregate) : Reading a.text := by
  cases a with
  | sum total => exact total.reading_text
  | minMaxSumCount m => exact m.reading_text
  | histogram h => exact h.reading_text
  | sketch s => exact s.reading_text

/-! ## Lines -/

namespace Record

variable {r r' : Record}

theorem reading_afterSeries (r : Record) :
    Reading s!" {r.value.kind.name} {r.value.text} @ {r.timestamp.milliseconds}" := by
  have kind : Reading r.value.kind.name := by
    cases r.value.kind <;> decide
  simp +decide [reading_append, reading_toString, kind, Aggregate.reading_text, reading_repr]

/-- A line up to its last brace. -/
def seriesOf (line : String) : String :=
  String.ofList (line.toList.reverse.dropWhile (· ≠ '\x7d')).reverse

/-- A line begins with the name and labels of its record, and they can be told from the rest. -/
theorem seriesOf_line (r : Record) : seriesOf r.line = r.series := by
  have rest := (reading_afterSeries r).notMem (c := '\x7d') (by decide)
  have ends : ∃ start, r.series.toList = start ++ ['\x7d'] :=
    ⟨_, String.toList_append⟩
  obtain ⟨start, ends⟩ := ends
  apply String.toList_inj.1
  rw [seriesOf, line, String.toList_ofList, String.toList_append, List.reverse_append,
    List.dropWhile_append_of_pos, ends]
  · simp
  · intro c member
    simp only [ne_eq, decide_not, Bool.not_eq_eq_eq_not, Bool.not_true, decide_eq_false_iff_not]
    rintro rfl
    exact rest (List.mem_reverse.1 member)

theorem oneLine_line (name : OneLine r.name) (labels : OneLine r.labels) : OneLine r.line := by
  have stripped : OneLine (withoutTrailingCommas r.labels) := by
    obtain ⟨n, text⟩ := append_withoutTrailingCommas r.labels
    rw [OneLine, text, List.mem_append, not_or] at labels
    exact labels.1
  have series : OneLine r.series :=
    oneLine_append.2 ⟨oneLine_append.2 ⟨oneLine_append.2 ⟨name, by decide⟩, stripped⟩, by decide⟩
  exact oneLine_append.2 ⟨series, r.reading_afterSeries.notMem (by decide)⟩

/-- Records that are written with the same name and labels are of the same series. -/
theorem key_of_series {l l' : LabelSet} (plain : '\x7b' ∉ r.name.toList)
    (plain' : '\x7b' ∉ r'.name.toList) (labels : r.labels = l.canonical)
    (labels' : r'.labels = l'.canonical) (same : r.series = r'.series) : r.key = r'.key := by
  have text : ∀ x : Record, x.series.toList =
      x.name.toList ++ '\x7b' :: ((withoutTrailingCommas x.labels).toList ++ ['\x7d']) := by
    intro x
    simp [series]
  have cuts := congrArg (cut '\x7b') (congrArg String.toList same)
  rw [text, text, cut_append_cons plain, cut_append_cons plain', Prod.mk.injEq, Option.some.injEq,
    labels, labels'] at cuts
  have names := String.toList_inj.1 cuts.1
  have sets := withoutTrailingCommas_canonical_inj
    (String.toList_inj.1 (List.append_cancel_right cuts.2))
  rw [key, key, names, labels, labels', sets]

end Record

/-! ## Batches -/

namespace TextStream

/-- The lines of a batch as text. -/
def textLines (number : Nat) (batch : List Record) : List String :=
  heading number batch.length :: batch.map Record.line

theorem oneLine_heading (number size : Nat) : OneLine (heading number size) := by
  have digits : ∀ n : Nat, OneLine n.repr := fun n => (reading_repr n).notMem (by decide)
  simp +decide [heading, oneLine_append, digits]

/-- A batch that is sent as text does not fail, and adds its lines. -/
theorem send_text {s : TextStream} (text : s.format = .text) (batch : List Record) :
    s.send none batch = (.ok (),
      { s with
        batches := s.batches + 1
        output := s.output ++ ofLines (textLines (s.batches + 1) batch) }) := by
  have written : s.write batch = ⟨ofLines (textLines (s.batches + 1) batch), none⟩ := by
    rw [write, text]
    rfl
  rw [send, written]

end TextStream

end Metering
