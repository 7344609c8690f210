import Metering.Proofs.Binary64.Integral
import Metering.Proofs.Decimal.Nearest
import Metering.Proofs.Workload.Lines
import Metering.Proofs.Workload.Totals

/-!
# What counters are given

The number on the line of a counter passes through a float and is then kept to 64 bits. So what a
counter is given is not always the number that is written: it is the float nearest to that, which has
to be an integer, kept to the range (`counters_add_nearest`). The two are the same for integers of up
to 53 digits, and `Agrees` says when they are; a number that is not an integer can be taken for one.
-/

namespace Metering.Workload

open Text Binary64

variable {boundaries : List Float} {r : Run} {line text : List Char} {s : Step} {t : Target}

/-! ## The number on a line -/

/-- The text of the value on a line: what stands between its first two commas. -/
def valueText (line : List Char) : List Char :=
  trim (cut ',' ((cut ',' (trim line)).2.getD [])).1

theorem readValue_of_readLine (given : readLine (trim line) = .ok s) :
    readValue s.target (valueText line) = .ok s.value := by
  rw [readLine] at given
  rw [valueText]
  dsimp only at given
  split at given
  · cases given
  · split at given
    · cases given
    · rename_i fields
      obtain ⟨rest, after, parts⟩ := Option.map_eq_some_iff.1 fields
      split at given
      · cases given
      · rename_i value
        split at given
        · cases given
        · cases given
          rw [after, Option.getD_some, parts]
          exact value

/-- The value of a counter is read as a number that is finite and an integer. -/
theorem of_readValue (counts : t ≠ .valueRecorder) {x : Float} (given : readValue t text = .ok x) :
    Decimal.read? text = some x ∧ x.isFinite = true ∧ isIntegral x = true := by
  have finite := isFinite_of_readValue given
  rw [readValue] at given
  cases number : Decimal.read? text with
  | none =>
    rw [number] at given
    cases given
  | some y =>
    rw [number] at given
    dsimp only at given
    split at given
    · cases given
    · split at given
      · cases given
      · rename_i integral
        cases given
        refine ⟨rfl, finite, ?_⟩
        simpa [counts] using integral

/-- A step for a counter comes from a line on which a number is written, and the float nearest to that
is an integer. -/
theorem exists_written (given : readOne line = .ok (some s)) (counts : s.target ≠ .valueRecorder) :
    s.value.isFinite = true ∧ ∃ w n, Decimal.written? (valueText line) = some w ∧
      nearestTo w.value = (n : Int) ∧ s.integer = (Int64.ofIntClamp n).toInt := by
  have one : readLine (trim line) = .ok s := by
    rw [readOne] at given
    split at given
    · cases given
    · cases read_ : readLine (trim line) with
      | error cause =>
        rw [read_] at given
        cases given
      | ok step =>
        rw [read_] at given
        cases given
        rfl
  obtain ⟨read_, finite, integral⟩ := of_readValue counts (readValue_of_readLine one)
  obtain ⟨w, written, denotes⟩ := Decimal.denotes_read? read_ finite
  obtain ⟨n, same⟩ := (isIntegral_iff denotes).1 integral
  refine ⟨finite, w, n, written, same, ?_⟩
  rw [Step.integer, toInt64_of_denotes (same ▸ denotes)]

/-! ## When the number is kept -/

/-- The largest number of 64 bits is no float, but the float nearest to it is above the range. -/
theorem nearestTo_limit : nearestTo (Number.limit : Int) = (2 ^ 63 : Int) := by
  decide +kernel

theorem nearestTo_least : nearestTo (-Number.limit - 1 : Int) = (-2 ^ 63 : Int) := by
  decide +kernel

/-- The number that is written is kept if it is a float in the range, and if it is the largest number
of the range, which rounding takes out of it and the range takes back. -/
theorem kept_iff {q : ℚ} {n : Int} (nearest : nearestTo q = n) :
    ((Int64.ofIntClamp n).toInt : ℚ) = q ↔ q = Number.limit ∨
      nearestTo q = q ∧ -Number.limit - 1 ≤ q ∧ q ≤ Number.limit := by
  have limit : Number.limit = 2 ^ 63 - 1 := rfl
  rw [Number.toInt_ofIntClamp]
  constructor
  · intro kept
    generalize clamped : max (-Number.limit - 1) (min Number.limit n) = c at kept
    have range : -Number.limit - 1 ≤ c ∧ c ≤ Number.limit := by omega
    rcases lt_trichotomy c n with high | rfl | low
    · exact .inl (by rw [← kept, show c = Number.limit by omega])
    · refine .inr ⟨nearest.trans kept, ?_, ?_⟩
      · rw [← kept]
        exact_mod_cast range.1
      · rw [← kept]
        exact_mod_cast range.2
    · have least : c = -Number.limit - 1 := by omega
      rw [← kept, least, nearestTo_least] at nearest
      have same : -2 ^ 63 = n := Int.cast_injective nearest
      omega
  · rintro (rfl | ⟨same, low, high⟩)
    · rw [nearestTo_limit] at nearest
      have above : 2 ^ 63 = n := Int.cast_injective nearest
      exact_mod_cast (show max (-Number.limit - 1) (min Number.limit n) = Number.limit by omega)
    · rw [← same, nearest] at low high ⊢
      have low' : -Number.limit - 1 ≤ n := by exact_mod_cast low
      have high' : n ≤ Number.limit := by exact_mod_cast high
      exact_mod_cast (show max (-Number.limit - 1) (min Number.limit n) = n by omega)

/-! ## Running sums -/

/-- What a run has added up for a counter under some labels since its last tick. -/
def Run.counted (r : Run) (t : Target) (labels : LabelSet) : Int :=
  ((r.provider.instrument? ⟨r.meter, t.instrument⟩).bind fun i =>
    i.series.get? labels.canonical).elim 0 fun series => series.aggregator.live.total.amount

/-- The sum of integers that are added up one after the other. -/
def summed (values : List Number) : Int := (Aggregate.ofValues .int64 .sum values).total.amount

theorem numberKind_of_counts (counts : t ≠ .valueRecorder) : t.descriptor.numberKind = .int64 := by
  cases t with
  | valueRecorder => exact absurd rfl counts
  | _ => rfl

theorem Run.Holds.counted {recent : List Step} (holds : r.Holds boundaries recent)
    (counts : t ≠ .valueRecorder) (labels : LabelSet) :
    r.counted t labels = summed ((stepsOf t labels recent).map Step.number) := by
  rw [← valuesUnder_updates]
  obtain ⟨i, found, stands⟩ := holds.parts (.of t)
  have present : r.provider.instrument? ⟨r.meter, t.instrument⟩ = some i := found
  rw [Run.counted, present, Option.bind_some]
  rcases stands.recent labels.canonical with ⟨absent, none_⟩ | ⟨series, there, -, held⟩
  · rw [absent, show valuesUnder ((Part.of t).updates recent) labels.canonical = [] from none_]
    rfl
  · have kind : i.descriptor.numberKind = .int64 := by
      rw [stands.descriptor]
      cases t <;> first | rfl | exact absurd rfl counts
    have sum : i.aggregation = .sum := by
      rw [stands.aggregation]
      cases t <;> first | rfl | exact absurd rfl counts
    have live := held.live
    rw [kind, sum] at live
    rw [there, Option.elim_some, live]
    rfl

theorem summed_concat {values : List Number} (kinds : ∀ v ∈ values, v.kind = .int64) (v : Int64) :
    summed (values ++ [.integer v]) =
      max (-Number.limit - 1) (min Number.limit (summed values + v.toInt)) := by
  have kind : (Aggregate.ofValues .int64 .sum values).total.kind = .int64 := by
    rw [← Aggregate.numberKind_eq_kind_total, Aggregate.numberKind_ofValues _ kinds]
  rw [summed, Aggregate.ofValues_concat, Aggregate.total_update rfl, Number.amount_add kind rfl]
  rfl

/-- What a run makes of a step for a counter: its number is added to the running sum of its series,
which stays in the range, and no other sum changes; or the step is refused and nothing changes, for a
counter that only grows and a negative number. -/
def Run.Adds (r : Run) (s : Step) : Prop :=
  ((r.apply s).1 = .ok () ∧
    (r.apply s).2.counted s.target s.labels =
      max (-Number.limit - 1) (min Number.limit (r.counted s.target s.labels + s.integer)) ∧
    ∀ t labels, t ≠ .valueRecorder → (t, labels) ≠ (s.target, s.labels) →
      (r.apply s).2.counted t labels = r.counted t labels) ∨
  (s.target = .counter ∧ s.integer < 0 ∧ ∃ e, r.apply s = (.error e, r))

theorem Run.Holds.adds {recent : List Step} (holds : r.Holds boundaries recent)
    (finite : s.value.isFinite = true) (counts : s.target ≠ .valueRecorder) : r.Adds s := by
  cases accepted : s.accepted with
  | false =>
    have refused := holds.refuse finite accepted
    rw [Step.accepted, Bool.not_eq_false', Bool.and_eq_true, decide_eq_true_iff,
      decide_eq_true_iff, Int64.lt_iff_toInt_lt] at accepted
    exact .inr ⟨accepted.1, accepted.2, refused⟩
  | true =>
    obtain ⟨ok, after, -⟩ := holds.accept finite accepted
    refine .inl ⟨ok, ?_, fun t labels counts' other => ?_⟩
    · have number : s.number = .integer (toInt64 s.value) := by
        rw [Step.number]
        cases target : s.target with
        | valueRecorder => exact absurd target counts
        | _ => rfl
      have kinds := kind_stepsOf (t := s.target) s.labels recent
      rw [after.counted counts, holds.counted counts, stepsOf, List.filter_append,
        List.filter_cons_of_pos (by simp), List.filter_nil, List.map_append, List.map_singleton,
        number]
      exact summed_concat (fun v member => (kinds v member).trans (numberKind_of_counts counts)) _
    · have apart : ¬ (s.target = t ∧ s.labels = labels) := fun both =>
        other (by rw [both.1, both.2])
      rw [after.counted counts', holds.counted counts', stepsOf, List.filter_append,
        List.filter_cons_of_neg (by simpa using apart), List.filter_nil, List.append_nil]
      rfl

/-! ## Runs that are reached -/

/-- The runs that come about from a start, by steps and ticks. -/
inductive Run.Reached (boundaries : List Float) : Run → Prop
  | start {meter : String} {mode : Processor.Mode} {format : TextStream.Format} {schedule : Schedule}
    {r : Run} (valid : (recorderAggregation boundaries).validate = .ok ())
    (timing : schedule.validate = .ok ())
    (started : Run.start meter boundaries mode format schedule = .ok r) : Run.Reached boundaries r
  | apply {r : Run} (reached : Run.Reached boundaries r) (s : Step)
    (finite : s.value.isFinite = true) : Run.Reached boundaries (r.apply s).2
  | tick {r : Run} (reached : Run.Reached boundaries r) (clock : Nat → Timestamp) :
    Run.Reached boundaries (r.tick clock).2

theorem Run.Reached.holds (reached : Run.Reached boundaries r) :
    ∃ recent, r.Holds boundaries recent := by
  induction reached with
  | @start meter mode format schedule r valid timing started =>
    obtain ⟨r', started', holds, -⟩ := Run.start_of_validate valid timing meter mode format
    cases started.symm.trans started'
    exact ⟨[], holds⟩
  | apply _ s finite ih =>
    obtain ⟨recent, holds⟩ := ih
    cases accepted : s.accepted with
    | true => exact ⟨recent ++ [s], (holds.accept finite accepted).2.1⟩
    | false =>
      obtain ⟨e, refused⟩ := holds.refuse finite accepted
      rw [refused]
      exact ⟨recent, holds⟩
  | tick _ clock ih =>
    obtain ⟨recent, holds⟩ := ih
    exact ⟨[], (holds.tick clock).2⟩

/-! ## Whole texts -/

/-- What becomes of the number on the line of a step for a counter. -/
structure Amounts (line : List Char) (s : Step) : Prop where
  /-- A number is written, the float nearest to it is an integer, and that is added, kept to the
  range. -/
  nearest : ∃ w n, Decimal.written? (valueText line) = some w ∧ nearestTo w.value = (n : Int) ∧
    s.integer = max (-Number.limit - 1) (min Number.limit n)
  /-- It is the number that is written just if that is a float in the range, or the largest number of
  the range. -/
  kept : ∀ w, Decimal.written? (valueText line) = some w →
    ((s.integer : ℚ) = w.value ↔ w.value = Number.limit ∨
      nearestTo w.value = w.value ∧ -Number.limit - 1 ≤ w.value ∧ w.value ≤ Number.limit)
  /-- An integer of up to 53 digits is added as it is written. -/
  whole : ∀ w, Decimal.written? (valueText line) = some w →
    ∀ z : Int, w.value = z → z.natAbs ≤ 2 ^ 53 → s.integer = z
  /-- Every run that is reached adds it to its series, or refuses the step. -/
  adds : ∀ boundaries r, Run.Reached boundaries r → r.Adds s

theorem amounts_of_readOne (given : readOne line = .ok (some s)) (counts : s.target ≠ .valueRecorder) :
    Amounts line s := by
  obtain ⟨finite, w, n, written, nearest, integer⟩ := exists_written given counts
  have kept (w' : Decimal.Written) (written' : Decimal.written? (valueText line) = some w') :
      (s.integer : ℚ) = w'.value ↔ w'.value = Number.limit ∨
        nearestTo w'.value = w'.value ∧ -Number.limit - 1 ≤ w'.value ∧ w'.value ≤ Number.limit := by
    cases written.symm.trans written'
    rw [integer]
    exact kept_iff nearest
  refine ⟨⟨w, n, written, nearest, ?_⟩, kept, fun w' written' z whole small => ?_,
    fun boundaries r reached => ?_⟩
  · rw [integer, Number.toInt_ofIntClamp]
  · have limit : Number.limit = 2 ^ 63 - 1 := rfl
    have low : (-Number.limit - 1 : ℚ) ≤ z := by exact_mod_cast (by omega : -Number.limit - 1 ≤ z)
    have high : (z : ℚ) ≤ Number.limit := by exact_mod_cast (by omega : z ≤ Number.limit)
    have same := (kept w' written').2 (.inr (by
      rw [whole]
      exact ⟨nearestTo_intCast small, low, high⟩))
    exact Int.cast_injective (same.trans whole)
  · obtain ⟨recent, holds⟩ := reached.holds
    exact holds.adds finite counts

/-- A text is read as the steps of its lines, and each step for a counter adds the integer that is
nearest to the number on its line, kept to the range. -/
theorem counters_add_nearest {text : String} {steps : List Step} (given : read text = .ok steps) :
    ∃ found, List.Forall₂ (fun line one => readOne line = .ok one ∧
        ∀ s, one = some s → s.target ≠ .valueRecorder → Amounts line s)
      (Text.lines text.toList) found ∧ steps = found.filterMap id := by
  rw [read_eq_readLines, readLines_eq_ok_iff] at given
  obtain ⟨found, all, rfl⟩ := given
  refine ⟨found, all.imp fun line one good => ⟨good, ?_⟩, rfl⟩
  rintro s rfl counts
  exact amounts_of_readOne good counts

/-- A number that is no float, and one that is out of the range. -/
theorem rounded_and_clamped_amounts :
    let text := "ctr,9007199254740993\nupdown,-1e300"
    let rounded : Step := ⟨.counter, 9007199254740992.0, .empty⟩
    let clamped : Step := ⟨.upDownCounter, -1e300, .empty⟩
    read text = .ok [rounded, clamped] ∧
      Amounts "ctr,9007199254740993".toList rounded ∧ Amounts "updown,-1e300".toList clamped ∧
      rounded.integer = 2 ^ 53 ∧ clamped.integer = -2 ^ 63 := by
  intro text rounded clamped
  have given : read text = .ok [rounded, clamped] := by decide +kernel
  have lines : Text.lines text.toList =
      ["ctr,9007199254740993".toList, "updown,-1e300".toList] := by decide +kernel
  obtain ⟨found, all, -⟩ := counters_add_nearest given
  rw [lines] at all
  obtain ⟨one, more, first, rest, rfl⟩ := List.forall₂_cons_left_iff.1 all
  obtain ⟨two, none_, second, -, rfl⟩ := List.forall₂_cons_left_iff.1 rest
  have readFirst : readOne "ctr,9007199254740993".toList = .ok (some rounded) := by decide +kernel
  have readSecond : readOne "updown,-1e300".toList = .ok (some clamped) := by decide +kernel
  cases readFirst.symm.trans first.1
  cases readSecond.symm.trans second.1
  exact ⟨given, first.2 rounded rfl (by decide), second.2 clamped rfl (by decide),
    by decide +kernel, by decide +kernel⟩

/-- An integer is added as another one, and what is not an integer is taken for one. -/
theorem counter_adds_another_amount :
    let odd := "counter,9007199254740993"
    let fraction := "counter,0.99999999999999999999"
    let s : Step := ⟨.counter, 9007199254740992.0, .empty⟩
    read odd = .ok [s] ∧
      (Decimal.written? (valueText odd.toList)).map Decimal.Written.value = some 9007199254740993 ∧
      (∃ r, Run.start "m" [] .stateless .json .default = .ok r ∧ r.counted .counter .empty = 0 ∧
        (r.apply s).1 = .ok () ∧ (r.apply s).2.counted .counter .empty = 9007199254740992) ∧
      read fraction = .ok [⟨.counter, 1.0, .empty⟩] ∧
      (Decimal.written? (valueText fraction.toList)).map Decimal.Written.value =
        some (1 - 10 ^ (-20 : Int)) := by
  intro odd fraction s
  refine ⟨by decide +kernel, by decide +kernel, ⟨_, rfl, ?_, ?_, ?_⟩, by decide +kernel,
    by decide +kernel⟩
  · decide +kernel
  · decide +kernel
  · decide +kernel

end Metering.Workload
