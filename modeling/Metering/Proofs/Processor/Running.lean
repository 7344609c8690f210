import Mathlib.Data.List.Induction
import Metering.Proofs.Aggregate.Merge
import Metering.Proofs.Processor.Cycle

/-!
# Memory as a running merge

With memory, a processor reports of each key what the processor without memory reported in all
cycles so far, merged in their order. `Settled` says this of one key between two cycles. It needs of
the records only that those of one key aggregate integers in one configuration: `Uniform`. Integers
may saturate, because both processors merge the same aggregates in the same order.
-/

namespace Metering

/-- A time that is one of some times, and none of them is later. -/
def Timestamp.IsLatest (x : Timestamp) (times : List Timestamp) : Prop :=
  x ∈ times ∧ ∀ y ∈ times, y.nanoseconds ≤ x.nanoseconds

theorem Timestamp.latest_self (x : Timestamp) : x.latest x = x := by
  unfold Timestamp.latest
  split <;> rfl

theorem Timestamp.isLatest_singleton (x : Timestamp) : x.IsLatest [x] := by
  refine ⟨List.mem_singleton_self x, fun y member => ?_⟩
  rw [List.mem_singleton.1 member]

theorem Timestamp.isLatest_concat {x : Timestamp} {times : List Timestamp}
    (latest : x.IsLatest times) (y : Timestamp) : (x.latest y).IsLatest (times ++ [y]) := by
  obtain ⟨member, bound⟩ := latest
  unfold Timestamp.latest
  split
  · rename_i later
    refine ⟨List.mem_append_right _ (List.mem_singleton_self y), fun z member => ?_⟩
    rcases List.mem_append.1 member with old | new
    · have := bound z old
      omega
    · rw [List.mem_singleton.1 new]
  · rename_i earlier
    refine ⟨List.mem_append_left _ member, fun z member => ?_⟩
    rcases List.mem_append.1 member with old | new
    · exact bound z old
    · rw [List.mem_singleton.1 new]
      omega

theorem Timestamp.isLatest_foldl (more : List Timestamp) :
    ∀ {x : Timestamp} {times : List Timestamp}, x.IsLatest times →
      (more.foldl .latest x).IsLatest (times ++ more) := by
  induction more with
  | nil =>
    intro x times latest
    rw [List.append_nil]
    exact latest
  | cons y rest ih =>
    intro x times latest
    rw [List.append_cons]
    exact ih (Timestamp.isLatest_concat latest y)

/-- Records of one series of integers: they share the descriptor, and their aggregates merge. -/
structure Uniform (rs : List Record) : Prop where
  descriptor : ∀ r ∈ rs, ∀ r' ∈ rs, r.descriptor = r'.descriptor
  integral : ∀ r ∈ rs, r.value.Integral
  fits : ∀ r ∈ rs, ∀ r' ∈ rs, r.value.shape.Fits r'.value.shape

theorem Uniform.sublist {rs rs' : List Record} (uniform : Uniform rs) (within : ∀ r ∈ rs', r ∈ rs) :
    Uniform rs' where
  descriptor r member r' member' := uniform.descriptor r (within r member) r' (within r' member')
  integral r member := uniform.integral r (within r member)
  fits r member r' member' := uniform.fits r (within r member) r' (within r' member')

/-- Records of one series merge into the empty aggregate of a configuration that fits theirs. -/
theorem Uniform.mergeAll {rs : List Record} (uniform : Uniform rs) {shape : Aggregation}
    (fits : ∀ r ∈ rs, shape.Fits r.value.shape) :
    ∃ a, (Aggregate.empty .int64 shape).mergeAll (rs.map Record.value) = .ok a ∧ a.Integral ∧
      a.shape = shape := by
  have integral : ∀ b ∈ rs.map Record.value, b.Integral := by
    intro b member
    obtain ⟨r, held, rfl⟩ := List.mem_map.1 member
    exact uniform.integral r held
  have fits' : ∀ b ∈ rs.map Record.value, (Aggregate.empty .int64 shape).shape.Fits b.shape := by
    intro b member
    obtain ⟨r, held, rfl⟩ := List.mem_map.1 member
    rw [Aggregate.shape_empty]
    exact fits r held
  obtain ⟨a, merged, whole, same⟩ :=
    Aggregate.mergeAll_spec _ integral (Aggregate.integral_empty shape) fits'
  exact ⟨a, merged, whole, same.trans (Aggregate.shape_empty .int64 shape)⟩

namespace Tracked

/-- An entry after records that merge into what is live. -/
theorem foldl_absorb (rs : List Record) : ∀ {t : Tracked} {live : Aggregate},
    t.current.live.mergeAll (rs.map Record.value) = .ok live →
      (rs.foldl absorb t).current.live = live ∧
      (rs.foldl absorb t).descriptor = t.descriptor ∧
      (rs.foldl absorb t).total = t.total ∧
      (rs.foldl absorb t).timestamp = (rs.map Record.timestamp).foldl .latest t.timestamp ∧
      (rs.foldl absorb t).updated = (t.updated || !rs.isEmpty) := by
  induction rs with
  | nil =>
    intro t live merged
    cases merged
    exact ⟨rfl, rfl, rfl, rfl, (Bool.or_false _).symm⟩
  | cons r rest ih =>
    intro t live merged
    cases first : t.current.live.merge r.value with
    | error e =>
      rw [Aggregate.mergeAll, List.map_cons, List.foldlM_cons, first] at merged
      cases merged
    | ok next =>
      rw [List.map_cons, Aggregate.mergeAll_cons first] at merged
      rw [List.foldl_cons, absorb_of_merge first]
      obtain ⟨live', descriptor, total, timestamp, updated⟩ := ih (t := { t with
        current := { t.current with live := next, dirty := true }
        timestamp := t.timestamp.latest r.timestamp
        updated := true }) merged
      exact ⟨live', descriptor, total, timestamp, updated.trans (by simp)⟩

/-- Closing the books merges what is live into the total, if it fits. -/
theorem settle_of_merge {t : Tracked} {total merged : Aggregate} (kept : t.total = some total)
    (fits : total.merge t.current.live = .ok merged) :
    t.settle = { t with current := t.current.checkpoint, total := some merged } := by
  have held : t.current.checkpoint.held = t.current.live := rfl
  simp only [settle, kept, Option.map_some, held, fits]
  rfl

end Tracked

namespace Processor

variable {p : Processor} {k : SeriesKey} {rs : List Record} {cs : List (List Record)}

/-! ## Without memory -/

/-- A processor without memory starts every cycle anew. -/
theorem batches_stateless (cs : List (List Record)) :
    (empty .stateless).batches cs = cs.map fun rs => ((empty .stateless).cycle rs).1 := by
  induction cs with
  | nil => rfl
  | cons rs rest ih =>
    have again : ((empty .stateless).cycle rs).2 = empty .stateless := by
      have mode : (Controller.processAll (empty .stateless) rs).2.mode = .stateless :=
        mode_processAll rs _
      simp only [cycle, checkpoint, finish, mode]
      rfl
    rw [batches, again, ih, List.map_cons]

theorem recordOf_without_total {t : Tracked} (none_ : t.total = none) (updated : t.updated = true) :
    recordOf k t.settle = some ⟨t.descriptor, k.labels, t.current.live, t.timestamp⟩ := by
  have held : t.current.checkpoint.held = t.current.live := rfl
  simp only [recordOf, Tracked.settle, Tracked.report?, none_, Option.map_none, updated, held]
  rfl

/-- Without memory, a key is reported in the cycles that have records of it, with what these merge
to. -/
theorem cycle_stateless (uniform : Uniform (rs.filter fun r => r.key = k)) :
    (rs.filter (fun r => r.key = k) = [] ∧
      ((empty .stateless).cycle rs).1.filter (fun r => r.key = k) = []) ∨
    ∃ first rest report, rs.filter (fun r => r.key = k) = first :: rest ∧
      ((empty .stateless).cycle rs).1.filter (fun r => r.key = k) = [report] ∧
      (Aggregate.empty .int64 first.value.shape).mergeAll ((first :: rest).map Record.value) =
        .ok report.value := by
  rw [filter_cycle (labelled_empty .stateless), reported, get?_processAll]
  cases own : rs.filter fun r => r.key = k with
  | nil => exact Or.inl ⟨rfl, rfl⟩
  | cons first rest =>
    rw [own] at uniform
    obtain ⟨live, merged, -, -⟩ := uniform.mergeAll (uniform.fits first List.mem_cons_self)
    have start : (Tracked.start .stateless first).current.live =
        Aggregate.empty .int64 first.value.shape :=
      Aggregate.reset_of_integral (uniform.integral first List.mem_cons_self)
    rw [← start] at merged
    obtain ⟨live', -, total, -, updated⟩ := Tracked.foldl_absorb (first :: rest) merged
    rw [start] at merged
    have entry : absorbAll (empty .stateless).mode ((empty .stateless).series.get? k)
        (first :: rest) =
        some ((first :: rest).foldl Tracked.absorb (Tracked.start .stateless first)) :=
      absorbAll_cons .stateless none first rest
    rw [entry, Option.bind_some, recordOf_without_total total updated, live']
    exact Or.inr ⟨first, rest, _, rfl, rfl, merged⟩

/-! ## With memory -/

/-- With memory, a cycle reports of a key the total that is then kept of it. -/
theorem filter_cycle_of_some (mode : p.mode = .stateful) (labelled : p.Labelled) {t : Tracked}
    {total : Aggregate} (found : (p.cycle rs).2.series.get? k = some t)
    (kept : t.total = some total) : (p.cycle rs).1.filter (fun r => r.key = k) =
      [⟨t.descriptor, k.labels, total, t.timestamp⟩] := by
  rw [get?_cycle_stateful mode] at found
  obtain ⟨t', present, rfl⟩ := Option.map_eq_some_iff.1 found
  have settled : t'.settle.total = some total := kept
  rw [filter_cycle labelled, reported, present, Option.bind_some, recordOf, Tracked.report?, settled]
  rfl

theorem filter_cycle_of_none (mode : p.mode = .stateful) (labelled : p.Labelled)
    (absent : (p.cycle rs).2.series.get? k = none) :
    (p.cycle rs).1.filter (fun r => r.key = k) = [] := by
  rw [get?_cycle_stateful mode] at absent
  rw [filter_cycle labelled, reported, Option.map_eq_none_iff.1 absent]
  rfl

/-- The values that the processor without memory reports of a key in some cycles. -/
def reports (cs : List (List Record)) (k : SeriesKey) : List Aggregate :=
  (((empty .stateless).batches cs).flatten.filter fun r => r.key = k).map Record.value

theorem reports_concat (cs : List (List Record)) (rs : List Record) (k : SeriesKey) :
    reports (cs ++ [rs]) k = reports cs k ++
      (((empty .stateless).cycle rs).1.filter fun r => r.key = k).map Record.value := by
  simp only [reports, batches_stateless, List.map_append, List.map_singleton, List.flatten_append,
    List.flatten_singleton, List.filter_append]

/-- An entry between two cycles, of whose key the records `seen` came and the processor without
memory reported the values `told`: its total is these values, merged in their order. -/
structure Holds (seen : List Record) (told : List Aggregate) (first : Record) (t : Tracked)
    (total : Aggregate) : Prop where
  earliest : seen.head? = some first
  descriptor : t.descriptor = first.descriptor
  timestamp : t.timestamp.IsLatest (seen.map Record.timestamp)
  live : t.current.live = Aggregate.empty .int64 first.value.shape
  kept : t.total = some total
  integral : total.Integral
  shape : total.shape = first.value.shape
  merged : (Aggregate.empty .int64 first.value.shape).mergeAll told = .ok total

theorem Holds.first_mem {seen : List Record} {told : List Aggregate} {first : Record} {t : Tracked}
    {total : Aggregate} (holds : Holds seen told first t total) : first ∈ seen :=
  List.mem_of_head? holds.earliest

/-- The records of a key in some cycles. -/
def seen (cs : List (List Record)) (k : SeriesKey) : List Record :=
  cs.flatten.filter fun r => r.key = k

theorem seen_concat (cs : List (List Record)) (rs : List Record) (k : SeriesKey) :
    seen (cs ++ [rs]) k = seen cs k ++ rs.filter fun r => r.key = k := by
  rw [seen, List.flatten_append, List.flatten_singleton, List.filter_append, seen]

/-- What a processor with memory has of a key after some cycles. -/
def Settled (p : Processor) (cs : List (List Record)) (k : SeriesKey) : Prop :=
  (seen cs k = [] ∧ p.series.get? k = none) ∨
    ∃ first t total, p.series.get? k = some t ∧ Holds (seen cs k) (reports cs k) first t total

theorem reset_empty_int64 (shape : Aggregation) :
    (Aggregate.empty .int64 shape).reset = Aggregate.empty .int64 shape := by
  rw [Aggregate.reset_of_integral (Aggregate.integral_empty shape), Aggregate.shape_empty]

section Entry

variable {old : List Record} {told : List Aggregate} {first r : Record} {rest : List Record}
  {t : Tracked} {total report : Aggregate}

/-- A new entry holds the empty aggregate of its first record. -/
theorem holds_start (integral : r.value.Integral) :
    Holds [r] [] r (Tracked.start .stateful r) (Aggregate.empty .int64 r.value.shape) := by
  have blank := Aggregate.reset_of_integral integral
  refine ⟨rfl, rfl, ⟨List.mem_singleton_self _, fun y member => ?_⟩, blank, congrArg some blank,
    Aggregate.integral_empty _, Aggregate.shape_empty _ _, rfl⟩
  rw [List.mem_singleton.1 member]
  exact Int.le_refl _

/-- A cycle without records of a key merges the empty aggregate into its total. -/
theorem Holds.idle (holds : Holds old told first t total) (uniform : Uniform old) :
    Holds old told first { t.settle with updated := false } total := by
  have fits := uniform.fits first holds.first_mem first holds.first_mem
  have nothing : total.merge t.current.live = .ok total := by
    rw [holds.live]
    exact Aggregate.merge_empty holds.integral (holds.shape ▸ fits)
  rw [Tracked.settle_of_merge holds.kept nothing]
  refine ⟨holds.earliest, holds.descriptor, holds.timestamp, ?_, rfl, holds.integral, holds.shape,
    holds.merged⟩
  change t.current.live.reset = _
  rw [holds.live, reset_empty_int64]

/-- A cycle with records of a key merges into its total what the processor without memory makes of
them. -/
theorem Holds.busy (holds : Holds old told first t total) (uniform : Uniform (old ++ r :: rest))
    (reported : (Aggregate.empty .int64 r.value.shape).mergeAll ((r :: rest).map Record.value) =
      .ok report) :
    ∃ next, Holds (old ++ r :: rest) (told ++ [report]) first
      { ((r :: rest).foldl Tracked.absorb t).settle with updated := false } next := by
  have mine : first ∈ old ++ r :: rest := List.mem_append_left _ holds.first_mem
  have among : ∀ r' ∈ r :: rest, r' ∈ old ++ r :: rest := fun r' => List.mem_append_right _
  have fits : ∀ r' ∈ r :: rest, first.value.shape.Fits r'.value.shape :=
    fun r' member => uniform.fits first mine r' (among r' member)
  have alone : Uniform (r :: rest) := uniform.sublist among
  obtain ⟨value, merged, whole, same⟩ := alone.mergeAll fits
  obtain ⟨report', reported', whole', same'⟩ :=
    alone.mergeAll (alone.fits r List.mem_cons_self)
  rw [reported] at reported'
  cases reported'
  have start := merged
  rw [← holds.live] at start
  obtain ⟨live, descriptor, kept, timestamp, -⟩ := Tracked.foldl_absorb (r :: rest) start
  -- The entry merges the records into an aggregate of its first record, the processor without
  -- memory into one of the first record of this cycle: the totals take in both alike.
  have alike : Aggregate.Matches value report :=
    (Aggregate.matches_empty (fits r List.mem_cons_self)).mergeAll merged reported
  obtain ⟨next, into, integral, shape⟩ := Aggregate.merge_spec holds.integral whole
    (by rw [holds.shape, same]; exact uniform.fits first mine first mine)
  obtain ⟨next', into', -, -⟩ := Aggregate.merge_spec holds.integral whole'
    (by rw [holds.shape, same']; exact fits r List.mem_cons_self)
  rw [← alike.merge_right into into'] at into'
  have settled := Tracked.settle_of_merge (kept.trans holds.kept) (by rw [live]; exact into)
  have latest := Timestamp.isLatest_foldl ((r :: rest).map Record.timestamp) holds.timestamp
  rw [← timestamp, ← List.map_append] at latest
  rw [settled]
  refine ⟨next, ?_, descriptor.trans holds.descriptor, latest, ?_, rfl, integral,
    shape.trans holds.shape, ?_⟩
  · rw [List.head?_append, holds.earliest]
    rfl
  · change ((r :: rest).foldl Tracked.absorb t).current.live.reset = _
    rw [live, Aggregate.reset_of_integral whole, same]
  · rw [Aggregate.mergeAll_append holds.merged, Aggregate.mergeAll_cons into']
    rfl

/-- The records of a key matter by their first and by their timestamps. -/
theorem Holds.congr (holds : Holds old told first t total) {new : List Record}
    (earliest : new.head? = old.head?) (same : ∀ r, r ∈ new ↔ r ∈ old) :
    Holds new told first t total := by
  refine { holds with earliest := earliest.trans holds.earliest, timestamp := ?_ }
  have times : ∀ x, x ∈ new.map Record.timestamp ↔ x ∈ old.map Record.timestamp := by
    intro x
    simp only [List.mem_map, same]
  exact ⟨(times _).2 holds.timestamp.1, fun y member => holds.timestamp.2 y ((times y).1 member)⟩

end Entry

theorem reports_eq_nil (unseen : seen cs k = []) : reports cs k = [] := by
  have quiet : (((empty .stateless).batches cs).flatten.filter fun r => r.key = k) = [] := by
    rw [batches_stateless]
    refine List.filter_eq_nil_iff.2 fun r member at_ => ?_
    obtain ⟨batch, cycle, reported⟩ := List.mem_flatten.1 member
    obtain ⟨rs, among, rfl⟩ := List.mem_map.1 cycle
    have own : rs.filter (fun r => r.key = k) = [] :=
      List.filter_eq_nil_iff.2 fun r' held =>
        List.filter_eq_nil_iff.1 unseen r' (List.mem_flatten.2 ⟨rs, among, held⟩)
    have uniform : Uniform (rs.filter fun r => r.key = k) := by
      rw [own]
      exact ⟨fun _ held => (nomatch held), fun _ held => (nomatch held), fun _ held => (nomatch held)⟩
    rcases cycle_stateless uniform with ⟨-, silent⟩ | ⟨first, rest, -, busy, -, -⟩
    · have told : r ∈ ((empty .stateless).cycle rs).1.filter fun r => r.key = k :=
        List.mem_filter.2 ⟨reported, at_⟩
      rw [silent] at told
      cases told
    · rw [own] at busy
      cases busy
  rw [reports, quiet, List.map_nil]

/-- A cycle keeps what a processor with memory has of a key as it should be. -/
theorem settled_cycle (mode : p.mode = .stateful) (settled : p.Settled cs k)
    (uniform : Uniform (seen (cs ++ [rs]) k)) : (p.cycle rs).2.Settled (cs ++ [rs]) k := by
  rw [seen_concat] at uniform
  have own : Uniform (rs.filter fun r => r.key = k) :=
    uniform.sublist fun r => List.mem_append_right _
  have after := get?_cycle_stateful mode k rs
  rw [get?_processAll, mode] at after
  rw [Settled, seen_concat, reports_concat]
  rcases cycle_stateless own with ⟨idle, quiet⟩ | ⟨r, rest, report, busy, told, reported⟩
  · rw [idle, List.append_nil] at uniform ⊢
    rw [idle] at after
    rw [quiet, List.map_nil, List.append_nil]
    rcases settled with ⟨unseen, absent⟩ | ⟨first, t, total, present, holds⟩
    · exact Or.inl ⟨unseen, by rw [after, absent]; rfl⟩
    · exact Or.inr ⟨first, _, total, by rw [after, present]; rfl, holds.idle uniform⟩
  · rw [busy] at uniform ⊢
    rw [busy, absorbAll_cons, Option.map_some] at after
    rw [told, List.map_singleton]
    rcases settled with ⟨unseen, absent⟩ | ⟨first, t, total, present, holds⟩
    · rw [absent, Option.getD_none] at after
      rw [unseen, List.nil_append] at uniform ⊢
      have integral := uniform.integral r List.mem_cons_self
      -- The first record of a key both makes the entry and is merged into it.
      have twice : Uniform ([r] ++ r :: rest) := by
        refine uniform.sublist fun r' member => ?_
        rcases List.mem_append.1 member with first | among
        · rw [List.mem_singleton.1 first]
          exact List.mem_cons_self
        · exact among
      obtain ⟨next, holds⟩ := (holds_start integral).busy twice reported
      rw [reports_eq_nil unseen]
      exact Or.inr ⟨r, _, next, after, holds.congr rfl (by simp)⟩
    · rw [present, Option.getD_some] at after
      obtain ⟨next, holds'⟩ := holds.busy uniform reported
      exact Or.inr ⟨first, _, next, after, holds'⟩

/-! ## Runs of cycles -/

/-- The processor after some cycles. -/
def after (p : Processor) (cs : List (List Record)) : Processor :=
  cs.foldl (fun p rs => (p.cycle rs).2) p

theorem after_concat (p : Processor) (cs : List (List Record)) (rs : List Record) :
    p.after (cs ++ [rs]) = ((p.after cs).cycle rs).2 :=
  List.foldl_concat _ _ _ _

theorem batches_concat (cs : List (List Record)) (rs : List Record) : ∀ p : Processor,
    p.batches (cs ++ [rs]) = p.batches cs ++ [((p.after cs).cycle rs).1] := by
  induction cs with
  | nil => exact fun _ => rfl
  | cons rs' rest ih =>
    intro p
    rw [List.cons_append, batches, ih]
    rfl

theorem mode_after (cs : List (List Record)) : ∀ p : Processor, (p.after cs).mode = p.mode := by
  induction cs with
  | nil => exact fun _ => rfl
  | cons rs rest ih => exact fun p => (ih (p.cycle rs).2).trans (mode_cycle p rs)

theorem labelled_after (cs : List (List Record)) : ∀ {p : Processor}, p.Labelled →
    (p.after cs).Labelled := by
  induction cs with
  | nil => exact fun labelled => labelled
  | cons rs rest ih => exact fun labelled => ih (labelled_cycle labelled rs)

theorem getElem?_batches (cs : List (List Record)) : ∀ (p : Processor) (n : Nat),
    (p.batches cs)[n]? = cs[n]?.map fun rs => ((p.after (cs.take n)).cycle rs).1 := by
  induction cs with
  | nil => exact fun _ _ => rfl
  | cons rs rest ih =>
    intro p n
    cases n with
    | zero => rfl
    | succ n => exact ih (p.cycle rs).2 n

theorem settled_after (cs : List (List Record)) {k : SeriesKey} (uniform : Uniform (seen cs k)) :
    ((empty .stateful).after cs).Settled cs k := by
  induction cs using List.reverseRecOn with
  | nil => exact Or.inl ⟨rfl, rfl⟩
  | append_singleton cs rs ih =>
    have before : Uniform (seen cs k) := by
      refine uniform.sublist fun r member => ?_
      rw [seen_concat]
      exact List.mem_append_left _ member
    rw [after_concat]
    exact settled_cycle (mode_after cs _) (ih before) uniform

/-- With memory, a cycle reports what the processor has afterwards. -/
theorem reported_of_uniform (cs : List (List Record)) (rs : List Record) {k : SeriesKey}
    (uniform : Uniform (seen (cs ++ [rs]) k)) :
    let batch := (((empty .stateful).after cs).cycle rs).1
    (seen (cs ++ [rs]) k = [] ∧ batch.filter (fun r => r.key = k) = []) ∨
    ∃ first report t, batch.filter (fun r => r.key = k) = [report] ∧
      Holds (seen (cs ++ [rs]) k) (reports (cs ++ [rs]) k) first t report.value ∧
      report.descriptor = t.descriptor ∧ report.timestamp = t.timestamp := by
  intro batch
  have mode : ((empty .stateful).after cs).mode = .stateful := mode_after cs _
  have labelled := labelled_after cs (labelled_empty .stateful)
  have settled := settled_after (cs ++ [rs]) uniform
  rw [Settled, after_concat] at settled
  rcases settled with ⟨unseen, absent⟩ | ⟨first, t, total, present, holds⟩
  · exact Or.inl ⟨unseen, filter_cycle_of_none mode labelled absent⟩
  · exact Or.inr ⟨first, _, t, filter_cycle_of_some mode labelled present holds.kept, holds, rfl, rfl⟩

theorem exists_key_iff (rs : List Record) (k : SeriesKey) :
    (∃ r ∈ rs, r.key = k) ↔ rs.filter (fun r => r.key = k) ≠ [] := by
  constructor
  · rintro ⟨r, member, at_⟩
    exact List.ne_nil_of_mem (List.mem_filter.2 ⟨member, decide_eq_true at_⟩)
  · intro some_
    obtain ⟨r, member⟩ := List.exists_mem_of_ne_nil _ some_
    obtain ⟨held, at_⟩ := List.mem_filter.1 member
    exact ⟨r, held, of_decide_eq_true at_⟩

/-- With memory, every batch reports, in ascending order, the keys seen so far. Their values are
what the processor without memory reported of them, merged in the order of the cycles, and their
times those of the latest records. -/
theorem stateful_is_running_merge (cycles : List (List Record))
    (uniform : ∀ k, Uniform (seen cycles k)) (n : Nat) (within : n < cycles.length) :
    ∃ batch, ((empty .stateful).batches cycles)[n]? = some batch ∧
      (batch.map Record.key).Pairwise (fun a b => compare a b = .lt) ∧
      (∀ k, k ∈ batch.map Record.key ↔ ∃ r ∈ (cycles.take (n + 1)).flatten, r.key = k) ∧
      ∀ r ∈ batch, ∃ first, (seen (cycles.take (n + 1)) r.key).head? = some first ∧
        r.descriptor = first.descriptor ∧
        first.value.reset.mergeAll (reports (cycles.take (n + 1)) r.key) = .ok r.value ∧
        r.timestamp.IsLatest ((seen (cycles.take (n + 1)) r.key).map Record.timestamp) := by
  have past : ∀ k, Uniform (seen (cycles.take (n + 1)) k) := by
    intro k
    refine (uniform k).sublist fun r member => ?_
    obtain ⟨held, at_⟩ := List.mem_filter.1 member
    obtain ⟨rs, cycle, among⟩ := List.mem_flatten.1 held
    exact List.mem_filter.2 ⟨List.mem_flatten.2 ⟨rs, List.mem_of_mem_take cycle, among⟩, at_⟩
  have labelled := labelled_after (cycles.take n) (labelled_empty .stateful)
  rw [List.take_succ_eq_append_getElem within] at past ⊢
  have reported := fun k => reported_of_uniform (cycles.take n) cycles[n] (past k)
  have number : ((empty .stateful).batches cycles)[n]? =
      some (((empty .stateful).after (cycles.take n)).cycle cycles[n]).1 := by
    rw [getElem?_batches, List.getElem?_eq_getElem within, Option.map_some]
  refine ⟨_, number, ascending_checkpoint (labelled_processAll _ labelled), fun k => ?_,
    fun r member => ?_⟩
  · rw [List.mem_map, exists_key_iff, exists_key_iff]
    rcases reported k with ⟨unseen, silent⟩ | ⟨first, report, t, told, holds, -, -⟩
    · exact iff_of_false (fun some_ => some_ silent) (fun some_ => some_ unseen)
    · exact iff_of_true (told ▸ List.cons_ne_nil _ _) (List.ne_nil_of_mem holds.first_mem)
  · have own : r ∈ (((empty .stateful).after (cycles.take n)).cycle cycles[n]).1.filter
        fun r' => r'.key = r.key := List.mem_filter.2 ⟨member, decide_eq_true rfl⟩
    rcases reported r.key with ⟨-, silent⟩ | ⟨first, report, t, told, holds, descriptor, timestamp⟩
    · rw [silent] at own
      cases own
    · rw [told] at own
      cases List.mem_singleton.1 own
      have integral := (past r.key).integral first holds.first_mem
      refine ⟨first, holds.earliest, descriptor.trans holds.descriptor, ?_, ?_⟩
      · rw [Aggregate.reset_of_integral integral]
        exact holds.merged
      · rw [timestamp]
        exact holds.timestamp

/-- A series with a total close to the greatest integer rests for a cycle and then saturates, while
another one comes and goes. -/
theorem saturated_series_stays :
    let record : String → Int64 → Int → Record := fun labels x time =>
      ⟨⟨"hits", "", "", .counter, .int64, true⟩, labels, .sum (.integer x), ⟨time⟩⟩
    let cycles := [[record "" (2 ^ 63 - 3) 7], [record "k:v," 4 8],
      [record "" 1 6, record "" 4 9]]
    ∃ batch, ((empty .stateful).batches cycles)[2]? = some batch ∧
      (⟨"hits", "k:v,"⟩ ∈ batch.map Record.key) ∧
      ∀ r ∈ batch, r.key = ⟨"hits", ""⟩ →
        r.value = .sum (.integer (2 ^ 63 - 1)) ∧ r.timestamp = ⟨9⟩ := by
  intro record cycles
  have alike : ∀ k, ∀ r ∈ seen cycles k, ∃ labels x time, r = record labels x time := by
    intro k r member
    have held := (List.mem_filter.1 member).1
    simp only [cycles, List.flatten_cons, List.flatten_nil, List.mem_append, List.mem_cons,
      List.not_mem_nil, or_false] at held
    rcases held with rfl | rfl | rfl | rfl <;> exact ⟨_, _, _, rfl⟩
  have uniform : ∀ k, Uniform (seen cycles k) := by
    refine fun k => ⟨fun r member r' member' => ?_, fun r member => ?_, fun r member r' member' => ?_⟩
    · obtain ⟨labels, x, time, rfl⟩ := alike k r member
      obtain ⟨labels', x', time', rfl⟩ := alike k r' member'
      rfl
    · obtain ⟨labels, x, time, rfl⟩ := alike k r member
      rfl
    · obtain ⟨labels, x, time, rfl⟩ := alike k r member
      obtain ⟨labels', x', time', rfl⟩ := alike k r' member'
      trivial
  obtain ⟨batch, number, -, keys, values⟩ := stateful_is_running_merge cycles uniform 2 (by decide)
  refine ⟨batch, number, (keys _).2 ⟨record "k:v," 4 8, by decide +kernel, rfl⟩,
    fun r member at_ => ?_⟩
  obtain ⟨first, earliest, -, merged, latest⟩ := values r member
  have told : reports (cycles.take 3) ⟨"hits", ""⟩ =
      [.sum (.integer (2 ^ 63 - 3)), .sum (.integer 5)] := by decide +kernel
  have mine : seen (cycles.take 3) ⟨"hits", ""⟩ =
      [record "" (2 ^ 63 - 3) 7, record "" 1 6, record "" 4 9] := by decide +kernel
  rw [at_, mine] at earliest latest
  rw [at_, told] at merged
  cases earliest
  refine ⟨(Except.ok.inj merged).symm.trans (by decide +kernel), ?_⟩
  have nine : 9 ≤ r.timestamp.nanoseconds := latest.2 ⟨9⟩ (by decide)
  have times : r.timestamp ∈ [⟨7⟩, ⟨6⟩, ⟨9⟩] := latest.1
  simp only [List.mem_cons, List.not_mem_nil, or_false] at times
  rcases times with seven | six | last
  · rw [seven] at nine
    exact absurd nine (by decide)
  · rw [six] at nine
    exact absurd nine (by decide)
  · exact last

end Processor

end Metering
