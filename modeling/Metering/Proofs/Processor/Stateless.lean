import Metering.Proofs.Aggregate.Shape
import Metering.Proofs.Processor.Running

/-!
# Cycles without memory

A processor without memory begins every cycle with nothing, whatever was asked of it before. In the
cycle, the first record of a series makes its entry and is always merged into it; each later one is
merged or refused. `Gathers` says what an entry is made of: the records of its series that were not
refused, merged in their order, and nothing else. A checkpoint reports just these entries.
-/

namespace Metering

/-- The boundaries of a histogram are finite. Nothing is asked of other aggregates. -/
def Aggregate.FiniteBoundaries : Aggregate → Prop
  | .histogram h => ∀ b ∈ h.boundaries, b.isFinite = true
  | _ => True

/-- An accuracy is not told apart from itself, whatever it is. -/
theorem Aggregate.not_epsilon_lt_self (x : Float) : ¬ Sketch.epsilon < (x - x).abs := by
  refine Binary64.not_lt_abs_sub_self x (fun s => ?_) ?_
  · cases s <;> decide +kernel
  · decide +kernel

/-- An aggregate merges into the empty aggregate that it is reset to. -/
theorem Aggregate.merge_into_reset {a : Aggregate} (finite : a.FiniteBoundaries) :
    ∃ c, a.reset.merge a = .ok c := by
  cases a with
  | sum total => exact ⟨_, rfl⟩
  | minMaxSumCount m => exact ⟨_, rfl⟩
  | histogram h =>
    have same : Histogram.sameFloats h.reset.boundaries h.boundaries = true :=
      Histogram.sameFloats_self finite
    exact ⟨_, by rw [reset, merge_histogram, if_pos same]⟩
  | sketch s =>
    have close : ¬ Sketch.epsilon < (s.reset.accuracy - s.accuracy).abs :=
      not_epsilon_lt_self s.accuracy
    exact ⟨_, by rw [reset, merge_sketch, if_neg close]⟩

/-- A record is merged into an entry, or there is an error and the entry is left as it is. -/
theorem Tracked.merge_cases (t : Tracked) (r : Record) :
    (∃ live, t.current.live.merge r.value = .ok live ∧ t.merge r = .ok (t.absorb r) ∧
      t.absorb r =
        { t with
          current := { t.current with live, dirty := true }
          timestamp := t.timestamp.latest r.timestamp
          updated := true }) ∨
    ∃ e, t.current.live.merge r.value = .error e ∧ t.merge r = .error e ∧ t.absorb r = t := by
  cases merged : t.current.live.merge r.value with
  | error e =>
    have refused : t.merge r = .error e := by rw [merge, Aggregator.mergeValue, merged]
    exact Or.inr ⟨e, rfl, refused, by rw [absorb, refused]; rfl⟩
  | ok live =>
    have absorbed := absorb_of_merge merged
    refine Or.inl ⟨live, rfl, ?_, absorbed⟩
    rw [absorbed, merge, Aggregator.mergeValue, merged]

namespace Processor

variable {p : Processor} {k : SeriesKey} {r : Record} {rs : List Record}

/-! ## Requests -/

/-- What can be asked of a processor. -/
inductive Call
  | process (r : Record)
  | checkpoint
  | finish

/-- What a processor answers. -/
inductive Reply
  | processed (result : Except Error Unit)
  | reported (batch : List Record)
  | finished

/-- Does what is asked. -/
def ask (p : Processor) : Call → Reply × Processor
  | .process r =>
    let (result, p) := p.process r
    (.processed result, p)
  | .checkpoint =>
    let (batch, p) := p.checkpoint
    (.reported batch, p)
  | .finish => (.finished, p.finish)

/-- Does what is asked, one after the other. -/
def askAll (p : Processor) : List Call → List Reply × Processor
  | [] => ([], p)
  | c :: rest =>
    let (reply, p) := p.ask c
    let (more, p) := p.askAll rest
    (reply :: more, p)

theorem mode_askAll (cs : List Call) : ∀ p : Processor, (p.askAll cs).2.mode = p.mode := by
  induction cs with
  | nil => exact fun _ => rfl
  | cons c rest ih =>
    intro p
    have step : (p.ask c).2.mode = p.mode := by
      cases c with
      | process r =>
        have kept : (p.process r).2.mode = p.mode := by rw [process_eq]
        exact kept
      | checkpoint => rfl
      | finish =>
        simp only [ask, finish]
        split <;> rfl
    exact (ih (p.ask c).2).trans step

/-- The end of a cycle leaves nothing in a processor without memory. -/
theorem finish_of_stateless (mode : p.mode = .stateless) : p.finish = empty .stateless := by
  simp only [finish, mode]
  rfl

/-! ## Records that are not refused -/

/-- Of records that are handed to a processor one by one, those that it does not refuse. -/
def accepted (p : Processor) : List Record → List Record
  | [] => []
  | r :: rest =>
    match (p.process r).1 with
    | .ok _ => r :: (p.process r).2.accepted rest
    | .error _ => (p.process r).2.accepted rest

/-- Those of one key. -/
def acceptedOf (p : Processor) (rs : List Record) (k : SeriesKey) : List Record :=
  (p.accepted rs).filter fun r => r.key = k

theorem processAll_concat (r : Record) (rs : List Record) : ∀ p : Processor,
    (Controller.processAll p (rs ++ [r])).2 = ((Controller.processAll p rs).2.process r).2 := by
  induction rs with
  | nil => exact fun p => processAll_cons p r []
  | cons r' rest ih =>
    intro p
    rw [List.cons_append, processAll_cons, processAll_cons, ih]

theorem accepted_concat (r : Record) (rs : List Record) : ∀ p : Processor,
    p.accepted (rs ++ [r]) = p.accepted rs ++ (Controller.processAll p rs).2.accepted [r] := by
  induction rs with
  | nil => exact fun _ => rfl
  | cons r' rest ih =>
    intro p
    rw [List.cons_append, accepted, accepted, processAll_cons, ih]
    split <;> rfl

theorem accepted_singleton (p : Processor) (r : Record) :
    p.accepted [r] = if ((p.entry r).merge r).toBool then [r] else [] := by
  rw [accepted, process]
  cases (p.entry r).merge r with
  | ok t => rfl
  | error e => rfl

/-- The entry of a series of which the records `own` came, and `taken` of them were not refused:
these are merged, one after the other, into the empty aggregate of the first. -/
structure Gathers (own taken : List Record) (first : Record) (t : Tracked) : Prop where
  earliest : own.head? = some first
  admitted : taken.head? = some first
  descriptor : t.descriptor = first.descriptor
  merged : first.value.reset.mergeAll (taken.map Record.value) = .ok t.current.live
  timestamp : t.timestamp.IsLatest (taken.map Record.timestamp)
  total : t.total = none
  updated : t.updated = true

/-- The first record of a series makes an entry that takes it in. -/
theorem gathers_start (finite : r.value.FiniteBoundaries) :
    ∃ t, (Tracked.start .stateless r).merge r = .ok t ∧
      (Tracked.start .stateless r).absorb r = t ∧ Gathers [r] [r] r t := by
  have blank : (Tracked.start .stateless r).current.live = r.value.reset := rfl
  rcases (Tracked.start .stateless r).merge_cases r with
    ⟨live, merged, fits, absorbed⟩ | ⟨e, refused, -⟩
  · refine ⟨_, fits, rfl, ?_⟩
    rw [absorbed]
    have all : r.value.reset.mergeAll [r.value] = .ok live := Aggregate.mergeAll_cons merged
    have alone : (r.timestamp.latest r.timestamp).IsLatest [r.timestamp] := by
      rw [Timestamp.latest_self]
      exact Timestamp.isLatest_singleton r.timestamp
    exact ⟨rfl, rfl, rfl, all, alone, rfl, rfl⟩
  · obtain ⟨c, merges⟩ := Aggregate.merge_into_reset finite
    rw [blank, merges] at refused
    cases refused

/-- A further record of a series is taken in or refused. -/
theorem Gathers.absorb {own taken : List Record} {first : Record} {t : Tracked}
    (gathers : Gathers own taken first t) (r : Record) :
    Gathers (own ++ [r]) (taken ++ if (t.merge r).toBool then [r] else []) first (t.absorb r) := by
  have still : (own ++ [r]).head? = some first := by
    rw [List.head?_append, gathers.earliest]
    rfl
  rcases t.merge_cases r with ⟨live, into, fits, absorbed⟩ | ⟨e, -, refused, absorbed⟩
  · have all : first.value.reset.mergeAll ((taken ++ [r]).map Record.value) = .ok live := by
      rw [List.map_append, Aggregate.mergeAll_append gathers.merged]
      exact Aggregate.mergeAll_cons into
    have latest := Timestamp.isLatest_concat gathers.timestamp r.timestamp
    rw [← List.map_singleton, ← List.map_append] at latest
    have admitted : (taken ++ [r]).head? = some first := by
      rw [List.head?_append, gathers.admitted]
      rfl
    rw [fits, absorbed]
    exact ⟨still, admitted, gathers.descriptor, all, latest, gathers.total, rfl⟩
  · have same : taken ++ (if (t.merge r).toBool then [r] else []) = taken := by
      rw [refused]
      exact List.append_nil taken
    rw [same, absorbed]
    exact { gathers with earliest := still }

/-- In a cycle that began with nothing, there is an entry for each series with records, and it is made
of those that were not refused. -/
theorem gathered (rs : List Record) (finite : ∀ r ∈ rs, r.value.FiniteBoundaries) (k : SeriesKey) :
    let own := rs.filter fun r => r.key = k
    let taken := (empty .stateless).acceptedOf rs k
    let entry := (Controller.processAll (empty .stateless) rs).2.series.get? k
    (own = [] ∧ taken = [] ∧ entry = none) ∨
      ∃ first t, entry = some t ∧ Gathers own taken first t := by
  induction rs using List.reverseRecOn with
  | nil => exact Or.inl ⟨rfl, rfl, rfl⟩
  | append_singleton rs r ih =>
    have before := ih fun r' member => finite r' (List.mem_append_left _ member)
    have mode : (Controller.processAll (empty .stateless) rs).2.mode = .stateless :=
      mode_processAll rs _
    simp only [acceptedOf, processAll_concat, accepted_concat, List.filter_append, accepted_singleton,
      process_eq] at before ⊢
    generalize (Controller.processAll (empty .stateless) rs).2 = p at before mode ⊢
    by_cases at_ : r.key = k
    · subst at_
      have mine : ∀ b : Bool, (if b then [r] else []).filter (fun r' => r'.key = r.key) =
          if b then [r] else [] := by
        intro b
        cases b <;> simp
      rw [mine, List.filter_cons_of_pos (by simp), List.filter_nil, Keyed.get?_insert_self]
      rcases before with ⟨unseen, none_, absent⟩ | ⟨first, t, present, gathers⟩
      · have new : p.entry r = Tracked.start .stateless r := by
          rw [Processor.entry, absent, mode]
          rfl
        obtain ⟨t, merged, absorbed, gathers⟩ :=
          gathers_start (finite r (List.mem_append_right _ (List.mem_singleton_self r)))
        rw [new, unseen, none_, merged, absorbed]
        exact Or.inr ⟨r, t, rfl, gathers⟩
      · have old : p.entry r = t := by
          rw [Processor.entry, present]
          rfl
        rw [old]
        exact Or.inr ⟨first, _, rfl, gathers.absorb r⟩
    · have other : ∀ b : Bool, (if b then [r] else []).filter (fun r' => r'.key = k) = [] := by
        intro b
        cases b <;> simp [at_]
      rw [other, List.filter_cons_of_neg (by simpa using at_), List.filter_nil, List.append_nil,
        List.append_nil, Keyed.get?_insert_of_ne _ _ at_]
      exact before

/-- What a cycle that began with nothing reports of a series. -/
theorem reported_of_finite (rs : List Record) (finite : ∀ r ∈ rs, r.value.FiniteBoundaries)
    (k : SeriesKey) :
    let batch := (Controller.processAll (empty .stateless) rs).2.checkpoint.1
    let own := rs.filter fun r => r.key = k
    let taken := (empty .stateless).acceptedOf rs k
    (own = [] ∧ taken = [] ∧ batch.filter (fun r => r.key = k) = []) ∨
      ∃ first t, batch.filter (fun r => r.key = k) =
          [⟨t.descriptor, k.labels, t.current.live, t.timestamp⟩] ∧ Gathers own taken first t := by
  intro batch own taken
  have labelled := labelled_processAll rs (labelled_empty .stateless)
  rw [filter_checkpoint labelled, reported]
  rcases gathered rs finite k with ⟨unseen, none_, absent⟩ | ⟨first, t, present, gathers⟩
  · rw [absent]
    exact Or.inl ⟨unseen, none_, rfl⟩
  · rw [present, Option.bind_some, recordOf_without_total gathers.total gathers.updated]
    exact Or.inr ⟨first, t, rfl, gathers⟩

/-- A processor without memory that begins a cycle, having been asked anything before: the checkpoint
after some records, some of which it may refuse, reports in ascending order just the keys of those
that it did not refuse, and of no key does it refuse all. The value of a key is these, merged in their
order into the empty aggregate of the first; the descriptor is that of the first, and the time the
latest of them. Then nothing is kept, and whatever is asked afterwards is answered as by a new
processor. -/
theorem stateless_cycle_exact (p : Processor)
    (begins : p = empty .stateless ∨ ∃ history, p = ((empty .stateless).askAll history).2.finish)
    (rs : List Record) (finite : ∀ r ∈ rs, r.value.FiniteBoundaries) :
    let closed := (Controller.processAll p rs).2.checkpoint
    let batch := closed.1
    let next := closed.2.finish
    (batch.map Record.key).Pairwise (fun a b => compare a b = .lt) ∧
      (∀ k, k ∈ batch.map Record.key ↔ ∃ r ∈ p.accepted rs, r.key = k) ∧
      (∀ r ∈ rs, r.key ∈ batch.map Record.key) ∧
      (∀ report ∈ batch, ∃ first, rs.find? (fun r => r.key = report.key) = some first ∧
        (p.acceptedOf rs report.key).head? = some first ∧
        first.value.reset.mergeAll ((p.acceptedOf rs report.key).map Record.value) = .ok report.value ∧
        report.descriptor = first.descriptor ∧
        report.timestamp.IsLatest ((p.acceptedOf rs report.key).map Record.timestamp)) ∧
      next.series.size = 0 ∧
      ∀ more, (next.askAll more).1 = ((empty .stateless).askAll more).1 := by
  have new : p = empty .stateless := by
    rcases begins with new | ⟨history, finished⟩
    · exact new
    · exact finished.trans (finish_of_stateless (mode_askAll history _))
  subst new
  intro closed batch next
  have labelled := labelled_processAll rs (labelled_empty .stateless)
  have mode : (Controller.processAll (empty .stateless) rs).2.mode = .stateless :=
    mode_processAll rs _
  have reported := reported_of_finite rs finite
  have left : next = empty .stateless := finish_of_stateless mode
  refine ⟨ascending_checkpoint labelled, fun k => ?_, fun r member => ?_, fun report member => ?_, ?_,
    fun more => ?_⟩
  · rw [List.mem_map, exists_key_iff, exists_key_iff]
    rcases reported k with ⟨-, none_, silent⟩ | ⟨first, t, told, gathers⟩
    · exact iff_of_false (fun some_ => some_ silent) fun some_ => some_ none_
    · exact iff_of_true (told ▸ List.cons_ne_nil _ _)
        (List.ne_nil_of_mem (List.mem_of_head? gathers.admitted))
  · have seen := (exists_key_iff rs r.key).1 ⟨r, member, rfl⟩
    rw [List.mem_map, exists_key_iff]
    rcases reported r.key with ⟨unseen, -, -⟩ | ⟨first, t, told, -⟩
    · exact absurd unseen seen
    · exact told ▸ List.cons_ne_nil _ _
  · have own : report ∈ batch.filter fun r => r.key = report.key :=
      List.mem_filter.2 ⟨member, decide_eq_true rfl⟩
    rcases reported report.key with ⟨-, -, silent⟩ | ⟨first, t, told, gathers⟩
    · rw [silent] at own
      cases own
    · have earliest := gathers.earliest
      rw [List.head?_filter] at earliest
      rw [told] at own
      have same := List.mem_singleton.1 own
      refine ⟨first, earliest, gathers.admitted, ?_, ?_, ?_⟩
      · rw [congrArg Record.value same]
        exact gathers.merged
      · rw [congrArg Record.descriptor same]
        exact gathers.descriptor
      · rw [congrArg Record.timestamp same]
        exact gathers.timestamp
  · rw [left]
    rfl
  · rw [left]

/-- After cycles that were left halfway: of a counter and a histogram, each of which is given an
aggregate that does not fit between two that do, what fits is reported. -/
theorem misfits_leave_no_trace :
    let counted : Aggregate → Int → Record := fun value time =>
      ⟨⟨"hits", "", "", .counter, .int64, true⟩, "", value, ⟨time⟩⟩
    let timed : List Float → List Nat → Int → Record := fun boundaries counts time =>
      ⟨⟨"latency", "", "", .valueRecorder, .int64, true⟩, "k:v,",
        .histogram ⟨boundaries, counts, .integer 5, 1⟩, ⟨time⟩⟩
    let history : List Call := [.process (timed [2.0] [1, 0] 1), .checkpoint,
      .process (counted (.sum (.integer 9)) 2), .finish, .process (counted (.sum (.integer 1)) 3)]
    let p := ((empty .stateless).askAll history).2.finish
    let rs := [counted (.sum (.integer 2)) 7, timed [1.0] [0, 1] 8,
      counted (.minMaxSumCount (.empty .int64)) 9, timed [2.0] [1, 0] 10,
      counted (.sum (.integer 3)) 6, timed [1.0] [1, 0] 4]
    let batch := (Controller.processAll p rs).2.checkpoint.1
    (∀ r ∈ rs, r.value.FiniteBoundaries) ∧
      (⟨"hits", ""⟩ ∈ batch.map Record.key) ∧ (⟨"latency", "k:v,"⟩ ∈ batch.map Record.key) ∧
      (∀ r ∈ batch, r.key = ⟨"hits", ""⟩ → r.value = .sum (.integer 5) ∧ r.timestamp = ⟨7⟩) ∧
      ∀ r ∈ batch, r.key = ⟨"latency", "k:v,"⟩ →
        r.value = .histogram ⟨[1.0], [1, 1], .integer 10, 2⟩ := by
  intro counted timed history p rs batch
  have one : (1.0 : Float).isFinite = true := by decide +kernel
  have two : (2.0 : Float).isFinite = true := by decide +kernel
  have finite : ∀ r ∈ rs, r.value.FiniteBoundaries := by
    simp [rs, counted, timed, Aggregate.FiniteBoundaries, one, two]
  obtain ⟨-, keys, -, values, -⟩ := stateless_cycle_exact p (.inr ⟨history, rfl⟩) rs finite
  have hits : p.acceptedOf rs ⟨"hits", ""⟩ =
      [counted (.sum (.integer 2)) 7, counted (.sum (.integer 3)) 6] := by decide +kernel
  have latency : p.acceptedOf rs ⟨"latency", "k:v,"⟩ =
      [timed [1.0] [0, 1] 8, timed [1.0] [1, 0] 4] := by decide +kernel
  refine ⟨finite, (keys _).2 ⟨counted (.sum (.integer 2)) 7, by decide +kernel, rfl⟩,
    (keys _).2 ⟨timed [1.0] [0, 1] 8, by decide +kernel, rfl⟩, fun r member at_ => ?_,
    fun r member at_ => ?_⟩
  · obtain ⟨first, -, admitted, merged, -, latest⟩ := values r member
    rw [at_, hits] at admitted merged latest
    cases admitted
    refine ⟨(Except.ok.inj merged).symm.trans (by decide +kernel), ?_⟩
    have seven : 7 ≤ r.timestamp.nanoseconds := latest.2 ⟨7⟩ (by decide)
    have times : r.timestamp ∈ [⟨7⟩, ⟨6⟩] := latest.1
    rcases List.mem_cons.1 times with last | others
    · exact last
    · rw [List.mem_singleton.1 others] at seven
      exact absurd seven (by decide)
  · obtain ⟨first, -, admitted, merged, -, -⟩ := values r member
    rw [at_, latency] at admitted merged
    cases admitted
    exact Except.ok.inj (merged.symm.trans (by decide +kernel))

end Processor

end Metering
