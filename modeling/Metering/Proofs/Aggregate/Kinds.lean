import Metering.Proofs.Aggregate.Run

/-!
# Aggregators and their kind of number

An aggregator converts the values that update it to its kind of number, but not the aggregates that
are merged into it. So its numbers are all of its kind as long as those of the merged aggregates are.
A float total that was once merged into integers makes the total a float for good: even the empty
aggregate that a checkpoint leaves takes its kind from the total before.
-/

namespace Metering

namespace Number

/-- What can be aggregated can be aggregated in either kind. -/
theorem isFinite_convert {n : Number} (finite : n.isFinite = true) (kind : NumberKind) :
    (n.convert kind).isFinite = true := by
  cases kind with
  | int64 => exact isFinite_of_integer (n.kind_convert .int64)
  | float64 =>
    cases n with
    | integer v => exact Binary64.isFinite_ofInt64 v
    | float x => exact finite

theorem kind_greatest (kind : NumberKind) : (greatest kind).kind = kind := by
  cases kind <;> rfl

theorem kind_least (kind : NumberKind) : (least kind).kind = kind := by
  cases kind <;> rfl

/-- Floats absorb integers: only to integers a number of the other kind may not be added. -/
theorem kind_add_eq_iff {a : Number} {kind : NumberKind} (same : a.kind = kind) (b : Number) :
    (a.add b).kind = kind ↔ b.kind = kind ∨ kind = .float64 := by
  subst same
  cases a <;> cases b <;> simp [add, Number.kind]

end Number

namespace Aggregate

variable {a b c : Aggregate} {kind : NumberKind} {v : Number}

/-- The bounds of the values, for the families that keep them. -/
def bounds : Aggregate → List Number
  | sum _ => []
  | minMaxSumCount m => [m.least, m.greatest]
  | histogram _ => []
  | sketch s => [s.least, s.greatest]

/-- The numbers that an aggregate keeps of its values: their sum and their bounds. -/
def numbers (a : Aggregate) : List Number := a.total :: a.bounds

/-- Whether all numbers of an aggregate are of one kind. -/
def OfKind (kind : NumberKind) (a : Aggregate) : Prop := ∀ n ∈ a.numbers, n.kind = kind

instance : Decidable (OfKind kind a) := inferInstanceAs (Decidable (∀ n ∈ a.numbers, n.kind = kind))

/-- Whether an aggregate can be merged into one of the kind without changing that kind. Totals that
are floats stay so whatever is added; bounds are taken over as they are. -/
def Suits (kind : NumberKind) (a : Aggregate) : Prop :=
  (a.total.kind = kind ∨ kind = .float64) ∧ ∀ n ∈ a.bounds, n.kind = kind

instance : Decidable (Suits kind a) :=
  inferInstanceAs (Decidable (_ ∧ ∀ n ∈ a.bounds, n.kind = kind))

theorem ofKind_iff : a.OfKind kind ↔ a.total.kind = kind ∧ ∀ n ∈ a.bounds, n.kind = kind :=
  List.forall_mem_cons

/-- An aggregate of the kind suits it. -/
theorem OfKind.suits (ofKind : a.OfKind kind) : a.Suits kind :=
  ⟨.inl (ofKind_iff.1 ofKind).1, (ofKind_iff.1 ofKind).2⟩

theorem ofKind_empty (kind : NumberKind) (aggregation : Aggregation) :
    (empty kind aggregation).OfKind kind := by
  refine ofKind_iff.2 ⟨by rw [total_empty, Number.kind_zero], ?_⟩
  have fresh : ∀ n ∈ [Number.greatest kind, Number.least kind], n.kind = kind := by
    simp only [List.forall_mem_cons, Number.kind_greatest, Number.kind_least]
    exact ⟨trivial, trivial, List.forall_mem_nil _⟩
  cases aggregation with
  | sum => exact List.forall_mem_nil _
  | minMaxSumCount => exact fresh
  | histogram boundaries => exact List.forall_mem_nil _
  | sketch accuracy => exact fresh

/-- The empty aggregate of the same shape takes its kind from the total. -/
theorem kind_total_reset (a : Aggregate) : a.reset.total.kind = a.total.kind := by
  cases a <;> exact Number.kind_zero _

theorem ofKind_reset (a : Aggregate) : a.reset.OfKind a.total.kind := by
  cases a with
  | sum total => exact ofKind_empty total.kind .sum
  | minMaxSumCount m => exact ofKind_empty m.sum.kind .minMaxSumCount
  | histogram h =>
    exact ofKind_iff.2 ⟨Number.kind_zero h.sum.kind, List.forall_mem_nil _⟩
  | sketch s => exact ofKind_empty s.sum.kind (.sketch s.accuracy)

/-- The bounds of two parts together are of the kind of both. -/
theorem kind_bounds {low high low' high' : Number}
    (left : ∀ n ∈ [low, high], n.kind = kind) (right : ∀ n ∈ [low', high'], n.kind = kind) :
    ∀ n ∈ [low.min low', high.max high'], n.kind = kind := by
  simp only [List.forall_mem_cons] at left right ⊢
  exact ⟨Number.kind_min left.1 right.1, Number.kind_max left.2.1 right.2.1, List.forall_mem_nil _⟩

theorem OfKind.update (ofKind : a.OfKind kind) (finite : v.isFinite = true) (same : v.kind = kind) :
    (a.update v).OfKind kind := by
  obtain ⟨total, bounds⟩ := ofKind_iff.1 ofKind
  have both : ∀ n ∈ [v, v], n.kind = kind := by simp [same]
  refine ofKind_iff.2 ⟨?_, ?_⟩
  · rw [total_update finite]
    exact (Number.kind_add_eq_iff total v).2 (.inl same)
  · cases a with
    | sum x => exact List.forall_mem_nil _
    | minMaxSumCount m => exact kind_bounds bounds both
    | histogram h => exact List.forall_mem_nil _
    | sketch s =>
      rw [Aggregate.update, Sketch.update_of_finite s finite]
      exact kind_bounds bounds both

/-- What an aggregate of the kind is merged to is of the kind, if the other one suits it. -/
theorem OfKind.merge (ofKind : a.OfKind kind) (suits : b.Suits kind) (merged : a.merge b = .ok c) :
    c.OfKind kind := by
  obtain ⟨total, bounds⟩ := ofKind_iff.1 ofKind
  refine ofKind_iff.2 ⟨?_, ?_⟩
  · rw [(merge_keeps merged).2]
    exact (Number.kind_add_eq_iff total b.total).2 suits.1
  · cases a with
    | sum x => cases b <;> cases merged; exact List.forall_mem_nil _
    | minMaxSumCount m =>
      cases b <;> cases merged
      exact kind_bounds bounds suits.2
    | histogram h =>
      have family := (merge_keeps merged).1
      cases c with
      | histogram k => exact List.forall_mem_nil _
      | _ => cases family
    | sketch s =>
      cases b with
      | sketch t =>
        rw [merge_sketch] at merged
        split at merged
        · cases merged
        · cases merged
          exact kind_bounds bounds suits.2
      | _ => cases merged

end Aggregate

namespace Aggregator

variable {a b start : Aggregator} {kind : NumberKind} {r : Request} {requests : List Request}

/-- The aggregators that can be created. -/
inductive Fresh : Aggregator → Prop
  | ofAggregation (aggregation : Aggregation) (kind : NumberKind) :
    Fresh (ofAggregation aggregation kind)
  | like (template : Aggregate) : Fresh (like template)

/-- The foreign aggregate that a request merges. -/
def Request.brings? : Request → Option Aggregate
  | merge other => some other.live
  | mergeValue value => some value
  | _ => none

/-- The foreign aggregates that some requests merge into an aggregator. Those that do not join its
configuration are refused. -/
def joined (a : Aggregator) (requests : List Request) : List Aggregate :=
  (requests.filterMap Request.brings?).filter fun b => a.live.shape.joins b.shape

/-! ## One request -/

/-- What a request does: it takes a value in, it merges, it empties, or nothing changes because it is
refused or what it brings is not finite. -/
theorem after_cases (a : Aggregator) (r : Request) :
    (∃ v : Number, v.isFinite = true ∧ r.brings? = none ∧
      a.after r = { a with live := a.live.update (v.convert a.numberKind), dirty := true }) ∨
    (∃ b c, r.merged? a = some b ∧ a.live.shape.joins b.shape = true ∧ a.live.merge b = .ok c ∧
      a.after r = { a with live := c, dirty := true }) ∨
    (r.brings? = none ∧ (a.after r = a.checkpoint ∨ a.after r = a.drain.2)) ∨
    ((∀ b, r.merged? a = some b → a.live.shape.joins b.shape = false) ∧ a.after r = a) := by
  cases merges : r.merged? a with
  | some b =>
    rcases merging_cases merges with ⟨joins, c, merged, done⟩ | ⟨apart, e, failed⟩
    · exact .inr (.inl ⟨b, c, rfl, joins, merged, after_ok done⟩)
    · exact .inr (.inr (.inr ⟨fun b' same => Option.some.inj same ▸ apart, after_error failed⟩))
  | none =>
    cases r with
    | update v =>
      by_cases finite : v.isFinite = true
      · exact .inl ⟨v, finite, rfl, if_pos finite⟩
      · exact .inr (.inr (.inr ⟨nofun, if_neg finite⟩))
    | checkpoint => exact .inr (.inr (.inl ⟨rfl, .inl rfl⟩))
    | drain => exact .inr (.inr (.inl ⟨rfl, .inr rfl⟩))
    | _ => cases merges

theorem numberKind_after (a : Aggregator) (r : Request) :
    (a.after r).numberKind = a.numberKind := by
  rcases a.after_cases r with ⟨v, -, -, done⟩ | ⟨b, c, -, -, -, done⟩ | ⟨-, done | done⟩ |
    ⟨-, done⟩ <;> rw [done] <;> rfl

theorem shape_after (a : Aggregator) (r : Request) : (a.after r).live.shape = a.live.shape := by
  rcases a.after_cases r with ⟨v, -, -, done⟩ | ⟨b, c, -, -, merged, done⟩ | ⟨-, done | done⟩ |
    ⟨-, done⟩
  · rw [done]
    exact Aggregate.shape_update _ _
  · rw [done]
    exact (Aggregate.merge_keeps merged).1
  · rw [done]
    exact Aggregate.shape_reset _
  · rw [done]
    exact Aggregate.shape_reset _
  · rw [done]

/-- A request merges what it brings, or the live aggregate itself. -/
theorem merged?_cases {b : Aggregate} (merges : r.merged? a = some b) :
    r.brings? = some b ∨ r.brings? = none ∧ b = a.live := by
  cases r with
  | merge other => exact .inl merges
  | mergeItself => exact .inr ⟨rfl, (Option.some.inj merges).symm⟩
  | mergeValue value => exact .inl merges
  | _ => cases merges

theorem merged?_of_brings {b : Aggregate} (brings : r.brings? = some b) : r.merged? a = some b := by
  cases r with
  | merge other => exact brings
  | mergeValue value => exact brings
  | _ => cases brings

/-- Which aggregates are joined by one more request is told by the configuration, which stays. -/
theorem mem_joined_concat {b : Aggregate} :
    b ∈ a.joined (requests ++ [r]) ↔
      b ∈ a.joined requests ∨ r.brings? = some b ∧ a.live.shape.joins b.shape = true := by
  simp only [joined, List.mem_filter, List.mem_filterMap, List.mem_append, List.mem_singleton]
  grind

/-- A total that is a float stays one, whatever is asked. -/
theorem float_after (float : a.live.total.kind = .float64) (r : Request) :
    (a.after r).live.total.kind = .float64 := by
  rcases a.after_cases r with ⟨v, finite, -, done⟩ | ⟨b, c, -, -, merged, done⟩ | ⟨-, done | done⟩ |
    ⟨-, done⟩
  · rw [done]
    change (a.live.update _).total.kind = _
    rw [Aggregate.total_update (Number.isFinite_convert finite _)]
    exact (Number.kind_add_eq_iff float _).2 (.inr rfl)
  · rw [done]
    change c.total.kind = _
    rw [(Aggregate.merge_keeps merged).2]
    exact (Number.kind_add_eq_iff float _).2 (.inr rfl)
  · rw [done]
    exact (Aggregate.kind_total_reset _).trans float
  · rw [done]
    exact (Aggregate.kind_total_reset _).trans float
  · rw [done]
    exact float

/-- One request leaves the total of its kind exactly if no total of the other kind is joined that
changes it. -/
theorem kind_total_after (number : a.numberKind = kind) (same : a.live.total.kind = kind) :
    (a.after r).live.total.kind = kind ↔
      ∀ b, r.brings? = some b → a.live.shape.joins b.shape = true →
        b.total.kind = kind ∨ kind = .float64 := by
  rcases a.after_cases r with ⟨v, finite, plain, done⟩ | ⟨b, c, merges, joins, merged, done⟩ |
    ⟨plain, done⟩ | ⟨apart, done⟩
  · rw [done, plain]
    change (a.live.update _).total.kind = _ ↔ _
    rw [number, Aggregate.total_update (Number.isFinite_convert finite _),
      Number.kind_add_eq_iff same]
    exact ⟨fun _ => nofun, fun _ => .inl (v.kind_convert kind)⟩
  · rw [done]
    change c.total.kind = _ ↔ _
    rw [(Aggregate.merge_keeps merged).2, Number.kind_add_eq_iff same]
    rcases merged?_cases merges with brings | ⟨plain, rfl⟩
    · rw [brings]
      exact ⟨fun suits b' eq _ => Option.some.inj eq ▸ suits, fun suits => suits b rfl joins⟩
    · rw [plain]
      exact ⟨fun _ => nofun, fun _ => .inl same⟩
  · rw [plain]
    have kept : (a.after r).live.total.kind = kind := by
      rcases done with done | done <;> rw [done] <;>
        exact (Aggregate.kind_total_reset _).trans same
    exact ⟨fun _ => nofun, fun _ => kept⟩
  · rw [done]
    refine ⟨fun _ b brings joins => ?_, fun _ => same⟩
    rw [apart b (merged?_of_brings brings)] at joins
    cases joins

/-- An aggregator whose numbers are all of the kind. -/
structure Keeps (kind : NumberKind) (a : Aggregator) : Prop where
  numberKind : a.numberKind = kind
  live : a.live.OfKind kind
  held : a.held.OfKind kind

theorem keeps_ofEmpty {empty : Aggregate} (ofKind : empty.OfKind kind) :
    (ofEmpty empty).Keeps kind :=
  ⟨(Aggregate.numberKind_eq_kind_total empty).trans (Aggregate.ofKind_iff.1 ofKind).1, ofKind, ofKind⟩

theorem Fresh.keeps (fresh : a.Fresh) : ∃ kind, a.Keeps kind := by
  cases fresh with
  | ofAggregation aggregation kind => exact ⟨kind, keeps_ofEmpty (Aggregate.ofKind_empty _ _)⟩
  | like template => exact ⟨template.total.kind, keeps_ofEmpty template.ofKind_reset⟩

theorem Keeps.after (keeps : a.Keeps kind)
    (suits : ∀ b, r.brings? = some b → a.live.shape.joins b.shape = true → b.Suits kind) :
    (a.after r).Keeps kind := by
  obtain ⟨number, live, held⟩ := keeps
  have emptied : a.live.reset.OfKind kind := (Aggregate.ofKind_iff.1 live).1 ▸ a.live.ofKind_reset
  rcases a.after_cases r with ⟨v, finite, -, done⟩ | ⟨b, c, merges, joins, merged, done⟩ |
    ⟨-, done | done⟩ | ⟨-, done⟩
  · rw [done]
    refine ⟨number, live.update (Number.isFinite_convert finite _) ?_, held⟩
    rw [number, Number.kind_convert]
  · rw [done]
    refine ⟨number, live.merge ?_ merged, held⟩
    rcases merged?_cases merges with brings | ⟨-, rfl⟩
    · exact suits b brings joins
    · exact live.suits
  · rw [done]
    exact ⟨number, emptied, live⟩
  · rw [done]
    exact ⟨number, emptied, held⟩
  · rw [done]
    exact ⟨number, live, held⟩

/-! ## Any requests -/

theorem numberKind_run (a : Aggregator) (requests : List Request) :
    (a.run requests).numberKind = a.numberKind := by
  induction requests using List.reverseRecOn with
  | nil => rfl
  | append_singleton requests r ih => rw [run_concat, numberKind_after, ih]

theorem shape_run (a : Aggregator) (requests : List Request) :
    (a.run requests).live.shape = a.live.shape := by
  induction requests using List.reverseRecOn with
  | nil => rfl
  | append_singleton requests r ih => rw [run_concat, shape_after, ih]

theorem Keeps.run (keeps : a.Keeps kind) (suits : ∀ b ∈ a.joined requests, b.Suits kind) :
    (a.run requests).Keeps kind := by
  induction requests using List.reverseRecOn with
  | nil => exact keeps
  | append_singleton requests r ih =>
    rw [run_concat]
    refine (ih fun b before => suits b (mem_joined_concat.2 (.inl before))).after ?_
    intro b brings joins
    rw [shape_run] at joins
    exact suits b (mem_joined_concat.2 (.inr ⟨brings, joins⟩))

theorem kind_total_run (number : a.numberKind = kind) (same : a.live.total.kind = kind) :
    (a.run requests).live.total.kind = kind ↔
      ∀ b ∈ a.joined requests, b.total.kind = kind ∨ kind = .float64 := by
  induction requests using List.reverseRecOn with
  | nil => exact ⟨fun _ => List.forall_mem_nil _, fun _ => same⟩
  | append_singleton requests r ih =>
    rw [run_concat]
    by_cases before : (a.run requests).live.total.kind = kind
    · rw [kind_total_after ((numberKind_run a requests).trans number) before, shape_run]
      refine ⟨fun last b joined => ?_, fun all b brings joins => ?_⟩
      · rcases mem_joined_concat.1 joined with earlier | ⟨brings, joins⟩
        · exact ih.1 before b earlier
        · exact last b brings joins
      · exact all b (mem_joined_concat.2 (.inr ⟨brings, joins⟩))
    · -- The total was lost before; only a total of integers can be.
      have lost := mt ih.2 before
      refine iff_of_false (fun after => ?_)
        fun all => lost fun b earlier => all b (mem_joined_concat.2 (.inl earlier))
      cases kind with
      | int64 =>
        have float : (a.run requests).live.total.kind = .float64 := by
          cases total : (a.run requests).live.total.kind with
          | int64 => exact (before total).elim
          | float64 => rfl
        rw [float_after float r] at after
        cases after
      | float64 => exact lost fun b _ => .inr rfl

/-- Whatever a new aggregator is asked to do, it reports one kind of number, and its numbers, live
and held, are all of that kind as long as the aggregates that are merged into it suit that kind. The
live total is of the kind exactly as long as no float total was merged into integers: values that
update it, and what it is merged with when it is merged with itself, never change that. -/
theorem keeps_number_kind (start : Aggregator) (fresh : start.Fresh) (requests : List Request) :
    let a := start.run requests
    a.numberKind = start.numberKind ∧
    ((∀ b ∈ start.joined requests, b.Suits start.numberKind) →
      a.live.OfKind start.numberKind ∧ a.held.OfKind start.numberKind) ∧
    (a.live.total.kind = start.numberKind ↔
      ∀ b ∈ start.joined requests,
        b.total.kind = start.numberKind ∨ start.numberKind = .float64) := by
  intro a
  obtain ⟨kind, keeps⟩ := fresh.keeps
  obtain rfl := keeps.numberKind
  refine ⟨numberKind_run start requests, fun suits => ?_, ?_⟩
  · have kept := keeps.run suits
    exact ⟨kept.live, kept.held⟩
  · exact kind_total_run rfl (Aggregate.ofKind_iff.1 keeps.live).1

/-- A summary of floats takes in an integer, a summary of floats and itself, and is checkpointed. -/
theorem summary_keeps_number_kind :
    let start := ofAggregation .minMaxSumCount .float64
    let requests : List Request := [.update (.integer 2),
      .mergeValue (.minMaxSumCount ⟨.float 1.5, .float 4.0, .integer 5, 2⟩), .mergeItself,
      .mergeValue (.sum (.integer 1)), .checkpoint, .update (.float 0.5)]
    start.Fresh ∧ (∀ b ∈ start.joined requests, b.Suits start.numberKind) ∧
      (start.run requests).live.OfKind .float64 ∧ (start.run requests).held.OfKind .float64 := by
  intro start requests
  have fresh : start.Fresh := .ofAggregation .minMaxSumCount .float64
  have suits : ∀ b ∈ start.joined requests, b.Suits start.numberKind := by decide +kernel
  obtain ⟨-, kept, -⟩ := keeps_number_kind start fresh requests
  exact ⟨fresh, suits, kept suits⟩

/-- An aggregator of integers into which a sum of floats is merged reports integers and holds a float,
and starts from a float again after it is drained. -/
theorem merged_float_sum_changes_kind :
    let other := (ofAggregation .sum .float64).run [.update (.float 1.5)]
    let a := (ofAggregation .sum .int64).run [.update (.integer 2), .merge other]
    (∃ b, (ofAggregation .sum .int64).merge other = .ok b) ∧ a.numberKind = .int64 ∧
      a.live = .sum (.float 3.5) ∧ (a.run [.drain]).live = .sum (.float 0.0) ∧
      (a.run [.drain, .update (.integer 2)]).live = .sum (.float 2.0) := by
  refine ⟨⟨_, rfl⟩, rfl, ?_, ?_, ?_⟩ <;> decide +kernel

end Aggregator

end Metering
