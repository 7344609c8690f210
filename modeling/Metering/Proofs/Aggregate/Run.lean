import Mathlib.Data.List.DropRight
import Metering.Proofs.Aggregate.Parts

/-!
# Runs of an aggregator

An aggregator is asked to take in values and aggregates, to checkpoint and to be drained, in any
order. What it takes in is told from the requests alone: finite values, converted to its kind of
number, and aggregates whose configuration joins its own. Its live aggregate is always what was
taken in since it was last cleared, folded from the empty aggregate; its mark says whether that is
anything; and what it holds is the live aggregate of its last checkpoint.
-/

namespace Metering

/-- Whether an aggregate of the second configuration can be merged into one of the first. Accuracies
count as equal that are hardly apart. -/
def Aggregation.joins : Aggregation → Aggregation → Bool
  | .sum, .sum => true
  | .minMaxSumCount, .minMaxSumCount => true
  | .histogram bs, .histogram cs => Histogram.sameFloats bs cs
  | .sketch a, .sketch b => !decide (Sketch.epsilon < (a - b).abs)
  | _, _ => false

/-! ## Aggregates of one kind of number -/

namespace Aggregate

variable {a b c : Aggregate} {kind : NumberKind} {v : Number}

/-- Aggregates merge exactly if their configurations join. -/
theorem merge_ok_iff (a b : Aggregate) :
    (∃ c, a.merge b = .ok c) ↔ a.shape.joins b.shape = true := by
  cases a with
  | sum x => cases b <;> simp [merge, shape, Aggregation.joins]
  | minMaxSumCount m => cases b <;> simp [merge, shape, Aggregation.joins]
  | histogram h =>
    cases b with
    | histogram k =>
      rw [merge_histogram]
      cases same : Histogram.sameFloats h.boundaries k.boundaries <;>
        simp [shape, Aggregation.joins, same]
    | _ => simp [merge, shape, Aggregation.joins]
  | sketch s =>
    cases b with
    | sketch t =>
      rw [merge_sketch]
      by_cases apart : Sketch.epsilon < (s.accuracy - t.accuracy).abs <;>
        simp [shape, Aggregation.joins, apart]
    | _ => simp [merge, shape, Aggregation.joins]

/-- An aggregate of one kind of number; a histogram has one count more than boundaries. -/
def Formed (kind : NumberKind) : Aggregate → Prop
  | sum total => total.kind = kind
  | minMaxSumCount m => m.sum.kind = kind
  | histogram h => h.counts.length = h.boundaries.length + 1 ∧ h.sum.kind = kind
  | sketch s => s.sum.kind = kind

theorem formed_empty (kind : NumberKind) (aggregation : Aggregation) :
    (empty kind aggregation).Formed kind := by
  cases aggregation with
  | histogram boundaries => exact ⟨List.length_replicate, Number.kind_zero kind⟩
  | _ => exact Number.kind_zero kind

theorem Formed.numberKind (formed : a.Formed kind) : a.numberKind = kind := by
  cases a with
  | histogram h => exact formed.2
  | _ => exact formed

theorem Formed.reset (formed : a.Formed kind) : a.reset = empty kind a.shape := by
  cases a with
  | sum total =>
    have same : total.kind = kind := formed
    simp only [Aggregate.reset, shape, empty, same]
  | minMaxSumCount m =>
    have same : m.sum.kind = kind := formed
    simp only [Aggregate.reset, shape, empty, MinMaxSumCount.reset, same]
  | histogram h =>
    simp only [Aggregate.reset, shape, empty, Histogram.reset, Histogram.empty, List.map_const',
      formed.1, formed.2]
  | sketch s =>
    have same : s.sum.kind = kind := formed
    simp only [Aggregate.reset, shape, empty, Sketch.reset, same]

theorem Formed.update (formed : a.Formed kind) (same : v.kind = kind) : (a.update v).Formed kind := by
  have kinds : (a.update v).numberKind = kind :=
    (numberKind_update (same.trans formed.numberKind.symm)).trans formed.numberKind
  cases a with
  | histogram h => exact ⟨(List.length_modify ..).trans formed.1, kinds⟩
  | _ => exact kinds

theorem Formed.merge (formed : a.Formed kind) (formed' : b.Formed kind)
    (merged : a.merge b = .ok c) : c.Formed kind := by
  have kinds : c.numberKind = kind := by
    have left := (numberKind_eq_kind_total a).symm.trans formed.numberKind
    have right := (numberKind_eq_kind_total b).symm.trans formed'.numberKind
    rw [numberKind_eq_kind_total, (merge_keeps merged).2,
      Number.kind_add (right.trans left.symm), left]
  cases a with
  | histogram h =>
    cases b with
    | histogram k =>
      rw [merge_histogram] at merged
      split at merged
      · rename_i same
        cases merged
        refine ⟨?_, kinds⟩
        rw [addHistogram, List.length_zipWith, formed.1, formed'.1, length_of_sameFloats same,
          Nat.min_self]
      · cases merged
    | _ => cases merged
  | sum x => cases b <;> cases merged; exact kinds
  | minMaxSumCount m => cases b <;> cases merged; exact kinds
  | sketch s =>
    cases b with
    | sketch t =>
      rw [merge_sketch] at merged
      split at merged
      · cases merged
      · cases merged; exact kinds
    | _ => cases merged

end Aggregate

/-! ## Requests -/

namespace Aggregator

/-- What an aggregator can be asked to do. -/
inductive Request
  | update (value : Number)
  | merge (other : Aggregator)
  | mergeItself
  | mergeValue (value : Aggregate)
  | checkpoint
  | drain
deriving DecidableEq

/-- Does what is asked. -/
def perform (a : Aggregator) : Request → Except Error Aggregator
  | .update value => .ok (a.update value)
  | .merge other => a.merge other
  | .mergeItself => a.merge a
  | .mergeValue value => a.mergeValue value
  | .checkpoint => .ok a.checkpoint
  | .drain => .ok a.drain.2

/-- The aggregator after a request; one that is refused leaves it as it is. -/
def after (a : Aggregator) (r : Request) : Aggregator :=
  match a.perform r with
  | .ok b => b
  | .error _ => a

/-- The aggregator after some requests. -/
def run (a : Aggregator) (requests : List Request) : Aggregator := requests.foldl after a

/-- What a request brings to the live aggregate. -/
inductive Intake
  | value (v : Number)
  | aggregate (b : Aggregate)
  /-- The live aggregate once more. -/
  | itself
deriving DecidableEq

/-- An aggregate with something taken in. -/
def Intake.into (a : Aggregate) : Intake → Except Error Aggregate
  | value v => .ok (a.update v)
  | aggregate b => a.merge b
  | itself => a.merge a

/-- An aggregate with some things taken in, one after the other. -/
def gather (a : Aggregate) (intakes : List Intake) : Except Error Aggregate :=
  intakes.foldlM Intake.into a

namespace Request

/-- Whether the request empties the live aggregate. -/
def clears : Request → Bool
  | checkpoint => true
  | drain => true
  | _ => false

/-- Whether the request merges something. -/
def merges : Request → Bool
  | merge _ => true
  | mergeItself => true
  | mergeValue _ => true
  | _ => false

/-- Whether an aggregator of the configuration refuses the request. -/
def refused (aggregation : Aggregation) : Request → Bool
  | merge other => !aggregation.joins other.live.shape
  | mergeItself => !aggregation.joins aggregation
  | mergeValue value => !aggregation.joins value.shape
  | _ => false

/-- The value that a request adds, if it does and the value is finite. -/
def value? (kind : NumberKind) : Request → Option Number
  | update value => if value.isFinite then some (value.convert kind) else none
  | _ => none

/-- The aggregate that the request merges into the live one of `a`. -/
def merged? (a : Aggregator) : Request → Option Aggregate
  | merge other => some other.live
  | mergeItself => some a.live
  | mergeValue value => some value
  | _ => none

/-- What a request would bring to an aggregator of the kind. -/
def offer? (kind : NumberKind) : Request → Option Intake
  | merge other => some (.aggregate other.live)
  | mergeItself => some .itself
  | mergeValue value => some (.aggregate value)
  | r => (r.value? kind).map .value

/-- What an aggregator of the configuration and kind takes in by a request. -/
def intake? (aggregation : Aggregation) (kind : NumberKind) (r : Request) : Option Intake :=
  if r.refused aggregation then none else r.offer? kind

/-- What is merged is of one kind of number. -/
def Formed (kind : NumberKind) : Request → Prop
  | merge other => other.live.Formed kind
  | mergeValue value => value.Formed kind
  | _ => True

theorem kind_value {kind : NumberKind} {r : Request} {v : Number}
    (adds : r.value? kind = some v) : v.kind = kind := by
  cases r with
  | update value =>
    rw [value?] at adds
    split at adds
    · cases adds
      exact value.kind_convert kind
    · cases adds
  | _ => cases adds

/-- The requests since the live aggregate was last cleared. -/
def sinceCleared (requests : List Request) : List Request := requests.rtakeWhile fun r => !r.clears

/-- The values that are added since the live aggregate was last cleared. -/
def recentValues (kind : NumberKind) (requests : List Request) : List Number :=
  (sinceCleared requests).filterMap (value? kind)

/-- What is taken in since the live aggregate was last cleared. -/
def recent (aggregation : Aggregation) (kind : NumberKind) (requests : List Request) :
    List Intake :=
  (sinceCleared requests).filterMap (intake? aggregation kind)

end Request

variable {a b : Aggregator} {aggregation : Aggregation} {kind : NumberKind} {r : Request}
  {requests : List Request}

/-- An aggregator of a configuration and a kind of number. -/
structure Serves (a : Aggregator) (aggregation : Aggregation) (kind : NumberKind) : Prop where
  numberKind : a.numberKind = kind
  shape : a.live.shape = aggregation
  formed : a.live.Formed kind

theorem serves_ofAggregation (aggregation : Aggregation) (kind : NumberKind) :
    (ofAggregation aggregation kind).Serves aggregation kind :=
  ⟨Aggregate.numberKind_empty kind aggregation, Aggregate.shape_empty kind aggregation,
    Aggregate.formed_empty kind aggregation⟩

theorem after_ok (done : a.perform r = .ok b) : a.after r = b := by
  rw [after, done]

theorem after_error {e : Error} (refused : a.perform r = .error e) : a.after r = a := by
  rw [after, refused]

theorem run_concat (a : Aggregator) (requests : List Request) (r : Request) :
    a.run (requests ++ [r]) = (a.run requests).after r := by
  rw [run, List.foldl_append]
  rfl

/-! ## One request -/

theorem mergeValue_of_joins {value : Aggregate} (joins : a.live.shape.joins value.shape = true) :
    ∃ c, a.live.merge value = .ok c ∧ a.mergeValue value = .ok { a with live := c, dirty := true } := by
  obtain ⟨c, merged⟩ := (Aggregate.merge_ok_iff _ _).2 joins
  exact ⟨c, merged, by rw [mergeValue, merged]⟩

theorem mergeValue_of_apart {value : Aggregate} (apart : a.live.shape.joins value.shape = false) :
    ∃ e, a.mergeValue value = .error e := by
  cases merged : a.live.merge value with
  | error e => exact ⟨e, by rw [mergeValue, merged]⟩
  | ok c =>
    have joins := (Aggregate.merge_ok_iff _ _).1 ⟨c, merged⟩
    rw [apart] at joins
    cases joins

theorem kind_eq_of_joins {x y : Aggregate} (joins : x.shape.joins y.shape = true) :
    x.kind = y.kind := by
  cases x <;> cases y <;> first | rfl | cases joins

/-- Aggregators of two families are kept apart before their live aggregates are looked at. -/
theorem merge_of_joins {other : Aggregator} (joins : a.live.shape.joins other.live.shape = true) :
    a.merge other = a.mergeValue other.live :=
  if_pos (kind_eq_of_joins joins)

theorem merge_of_apart {other : Aggregator} (apart : a.live.shape.joins other.live.shape = false) :
    ∃ e, a.merge other = .error e := by
  unfold merge
  split
  · exact mergeValue_of_apart apart
  · exact ⟨_, rfl⟩

/-- A request to merge is done if the configurations join, and refused otherwise. -/
theorem merging_cases {b : Aggregate} (merges : r.merged? a = some b) :
    (a.live.shape.joins b.shape = true ∧ ∃ c, a.live.merge b = .ok c ∧
        a.perform r = .ok { a with live := c, dirty := true }) ∨
      (a.live.shape.joins b.shape = false ∧ ∃ e, a.perform r = .error e) := by
  cases joins : a.live.shape.joins b.shape with
  | true =>
    obtain ⟨c, merged, done⟩ := mergeValue_of_joins joins
    refine .inl ⟨rfl, c, merged, ?_⟩
    cases r <;> cases merges
    · exact (merge_of_joins joins).trans done
    · exact (merge_of_joins joins).trans done
    · exact done
  | false =>
    refine .inr ⟨rfl, ?_⟩
    cases r <;> cases merges
    · exact merge_of_apart joins
    · exact merge_of_apart joins
    · exact mergeValue_of_apart joins

/-- Whether a request to merge is refused is told by the configuration. -/
theorem Serves.merging {b : Aggregate} (serves : a.Serves aggregation kind)
    (merges : r.merged? a = some b) :
    (r.refused aggregation = true ∧ ∃ e, a.perform r = .error e) ∨
      (r.refused aggregation = false ∧ ∃ c, a.live.merge b = .ok c ∧
        a.perform r = .ok { a with live := c, dirty := true }) := by
  have refused : r.refused aggregation = !a.live.shape.joins b.shape := by
    rw [serves.shape]
    cases r <;> cases merges <;> first | rfl | rw [serves.shape]; rfl
  rcases merging_cases merges with ⟨joins, done⟩ | ⟨apart, failed⟩
  · exact .inr ⟨by rw [refused, joins]; rfl, done⟩
  · exact .inl ⟨by rw [refused, apart]; rfl, failed⟩

/-- Which requests are refused is told by the configuration. -/
theorem Serves.refused_iff (serves : a.Serves aggregation kind) (r : Request) :
    (∃ e, a.perform r = .error e) ↔ r.refused aggregation = true := by
  cases merges : r.merged? a with
  | some b =>
    rcases serves.merging merges with ⟨refused, failed⟩ | ⟨accepted, c, -, done⟩
    · exact ⟨fun _ => refused, fun _ => failed⟩
    · rw [accepted, done]
      exact ⟨nofun, nofun⟩
  | none => cases r <;> cases merges <;> exact ⟨nofun, nofun⟩

/-- What a request does to an aggregator: it empties the live aggregate, or it brings something that
is taken in and noted, or nothing changes. -/
theorem Serves.after_cases (serves : a.Serves aggregation kind) (r : Request) :
    (r.clears = true ∧
      (r = .checkpoint ∧ a.after r = a.checkpoint ∨ r = .drain ∧ a.after r = a.drain.2)) ∨
    (r.clears = false ∧ ∃ intake c, r.intake? aggregation kind = some intake ∧
      intake.into a.live = .ok c ∧ a.after r = { a with live := c, dirty := true }) ∨
    (r.clears = false ∧ r.intake? aggregation kind = none ∧ a.after r = a) := by
  cases merges : r.merged? a with
  | some b =>
    have keeps : r.clears = false := by cases r <;> cases merges <;> rfl
    rcases serves.merging merges with ⟨refused, e, failed⟩ | ⟨accepted, c, merged, done⟩
    · exact .inr (.inr ⟨keeps, by rw [Request.intake?, if_pos refused], after_error failed⟩)
    · have intake : ∃ intake, r.intake? aggregation kind = some intake ∧
          intake.into a.live = a.live.merge b := by
        rw [Request.intake?, if_neg (by rw [accepted]; exact Bool.false_ne_true)]
        cases r <;> cases merges
        · exact ⟨.aggregate _, rfl, rfl⟩
        · exact ⟨.itself, rfl, rfl⟩
        · exact ⟨.aggregate _, rfl, rfl⟩
      obtain ⟨intake, brings, into⟩ := intake
      exact .inr (.inl ⟨keeps, intake, c, brings, into.trans merged, after_ok done⟩)
  | none =>
    cases r with
    | update v =>
      have updated : a.after (.update v) = a.update v := rfl
      rw [updated, update]
      split
      · rename_i finite
        refine .inr (.inl ⟨rfl, .value (v.convert kind), _, ?_, rfl, ?_⟩)
        · simp only [Request.intake?, Request.refused, Request.offer?, Request.value?, finite]
          rfl
        · rw [serves.numberKind]
      · rename_i infinite
        refine .inr (.inr ⟨rfl, ?_, rfl⟩)
        simp only [Request.intake?, Request.refused, Request.offer?, Request.value?, infinite]
        rfl
    | checkpoint => exact .inl ⟨rfl, .inl ⟨rfl, rfl⟩⟩
    | drain => exact .inl ⟨rfl, .inr ⟨rfl, rfl⟩⟩
    | _ => cases merges

/-! ## Runs -/

/-- What is taken in leaves an aggregate of its configuration and kind. -/
theorem into_keeps {x c : Aggregate} {intake : Intake} (formed : x.Formed kind)
    (asked : r.Formed kind) (brings : r.intake? aggregation kind = some intake)
    (into : intake.into x = .ok c) : c.Formed kind ∧ c.shape = x.shape := by
  rw [Request.intake?] at brings
  split at brings
  · cases brings
  cases r with
  | update v =>
    obtain ⟨value, adds, rfl⟩ := Option.map_eq_some_iff.1 brings
    cases into
    exact ⟨formed.update (Request.kind_value adds), x.shape_update value⟩
  | merge other =>
    cases brings
    exact ⟨formed.merge asked into, (Aggregate.merge_keeps into).1⟩
  | mergeItself =>
    cases brings
    exact ⟨formed.merge formed into, (Aggregate.merge_keeps into).1⟩
  | mergeValue value =>
    cases brings
    exact ⟨formed.merge asked into, (Aggregate.merge_keeps into).1⟩
  | checkpoint => cases brings
  | drain => cases brings

theorem Serves.reset_live (serves : a.Serves aggregation kind) :
    a.live.reset = .empty kind aggregation := by
  rw [serves.formed.reset, serves.shape]

theorem Serves.cleared (serves : a.Serves aggregation kind) (same : b.numberKind = a.numberKind)
    (anew : b.live = a.live.reset) : b.Serves aggregation kind := by
  rw [serves.reset_live] at anew
  refine ⟨same.trans serves.numberKind, ?_, ?_⟩ <;> rw [anew]
  · exact Aggregate.shape_empty kind aggregation
  · exact Aggregate.formed_empty kind aggregation

theorem Serves.after (serves : a.Serves aggregation kind) (asked : r.Formed kind) :
    (a.after r).Serves aggregation kind := by
  rcases serves.after_cases r with
    ⟨-, ⟨-, done⟩ | ⟨-, done⟩⟩ | ⟨-, intake, c, brings, into, done⟩ | ⟨-, -, done⟩ <;> rw [done]
  · exact serves.cleared rfl rfl
  · exact serves.cleared rfl rfl
  · obtain ⟨formed, shape⟩ := into_keeps serves.formed asked brings into
    exact ⟨serves.numberKind, shape.trans serves.shape, formed⟩
  · exact serves

theorem Serves.run (serves : a.Serves aggregation kind) (asked : ∀ r ∈ requests, r.Formed kind) :
    (a.run requests).Serves aggregation kind := by
  induction requests using List.reverseRecOn with
  | nil => exact serves
  | append_singleton before r ih =>
    rw [run_concat]
    exact (ih fun r' member => asked r' (List.mem_append_left _ member)).after
      (asked r (List.mem_append_right _ (List.mem_singleton_self r)))

/-- Only a checkpoint replaces what is held. -/
theorem Serves.held_after (serves : a.Serves aggregation kind) (other : r ≠ .checkpoint) :
    (a.after r).held = a.held := by
  rcases serves.after_cases r with
    ⟨-, ⟨checkpoint, -⟩ | ⟨-, done⟩⟩ | ⟨-, intake, c, -, -, done⟩ | ⟨-, -, done⟩
  · exact absurd checkpoint other
  · rw [done]
    rfl
  · rw [done]
  · rw [done]

theorem Serves.held_run (serves : a.Serves aggregation kind)
    (asked : ∀ r ∈ requests, r.Formed kind) (others : .checkpoint ∉ requests) :
    (a.run requests).held = a.held := by
  induction requests using List.reverseRecOn with
  | nil => rfl
  | append_singleton before r ih =>
    have earlier : ∀ r' ∈ before, r'.Formed kind :=
      fun r' member => asked r' (List.mem_append_left _ member)
    have other : r ≠ .checkpoint := by
      rintro rfl
      exact others (List.mem_append_right _ (List.mem_singleton_self _))
    rw [run_concat, (serves.run earlier).held_after other,
      ih earlier fun member => others (List.mem_append_left _ member)]

/-- After a checkpoint, what was live is held until the next one. -/
theorem Serves.held_run_checkpoint {before after : List Request}
    (serves : a.Serves aggregation kind)
    (asked : ∀ r ∈ before ++ .checkpoint :: after, r.Formed kind) (others : .checkpoint ∉ after) :
    (a.run (before ++ .checkpoint :: after)).held = (a.run before).live := by
  have split : a.run (before ++ .checkpoint :: after) = (a.run before).checkpoint.run after := by
    rw [Aggregator.run, List.foldl_append]
    rfl
  have earlier : (a.run before).Serves aggregation kind :=
    serves.run fun r member => asked r (List.mem_append_left _ member)
  have checkpointed : (a.run before).checkpoint.Serves aggregation kind :=
    earlier.cleared rfl rfl
  rw [split, checkpointed.held_run (fun r member => asked r (List.mem_append_right _
    (List.mem_cons_of_mem _ member))) others]
  rfl

theorem Request.recent_concat (aggregation : Aggregation) (kind : NumberKind)
    (requests : List Request) (r : Request) :
    recent aggregation kind (requests ++ [r]) =
      if r.clears then []
      else recent aggregation kind requests ++ (r.intake? aggregation kind).toList := by
  rw [recent, sinceCleared, List.rtakeWhile_concat]
  cases clears : r.clears with
  | true => rfl
  | false =>
    cases brings : r.intake? aggregation kind <;> simp [recent, sinceCleared, brings]

/-- What is known of an aggregator after some requests that it got while empty. -/
structure Follows (aggregation : Aggregation) (kind : NumberKind) (requests : List Request)
    (a : Aggregator) : Prop where
  serves : a.Serves aggregation kind
  live : gather (.empty kind aggregation) (Request.recent aggregation kind requests) = .ok a.live
  dirty : a.dirty = true ↔ Request.recent aggregation kind requests ≠ []

theorem gather_concat {x c : Aggregate} {intakes : List Intake} (gathered : gather x intakes = .ok c)
    (intake : Intake) : gather x (intakes ++ [intake]) = intake.into c := by
  rw [gather, List.foldlM_append]
  change (gather x intakes >>= fun c => [intake].foldlM Intake.into c) = _
  rw [gathered]
  change (intake.into c >>= fun c => pure c) = _
  exact bind_pure _

/-- One more request is followed. -/
theorem Follows.after (follows : a.Follows aggregation kind requests) (asked : r.Formed kind) :
    (a.after r).Follows aggregation kind (requests ++ [r]) := by
  have serves := follows.serves.after asked
  have anew {b : Aggregator} (clears : r.clears = true) (live : b.live = a.live.reset)
      (clean : b.dirty = false) (serves : b.Serves aggregation kind) :
      b.Follows aggregation kind (requests ++ [r]) := by
    have none_ := Request.recent_concat aggregation kind requests r
    rw [if_pos clears] at none_
    refine ⟨serves, ?_, ?_⟩ <;> rw [none_]
    · rw [live, follows.serves.reset_live]
      rfl
    · rw [clean]
      exact ⟨nofun, fun some_ => absurd rfl some_⟩
  rcases follows.serves.after_cases r with
    ⟨clears, ⟨-, done⟩ | ⟨-, done⟩⟩ | ⟨keeps, intake, c, brings, into, done⟩ | ⟨keeps, nothing, done⟩ <;>
    rw [done] at serves ⊢
  · exact anew clears rfl rfl serves
  · exact anew clears rfl rfl serves
  · have more := Request.recent_concat aggregation kind requests r
    rw [if_neg (by rw [keeps]; exact Bool.false_ne_true), brings, Option.toList_some] at more
    refine ⟨serves, ?_, ?_⟩ <;> rw [more]
    · exact (gather_concat follows.live intake).trans into
    · exact ⟨fun _ => List.append_ne_nil_of_right_ne_nil _ (List.cons_ne_nil _ _), fun _ => rfl⟩
  · have same := Request.recent_concat aggregation kind requests r
    rw [if_neg (by rw [keeps]; exact Bool.false_ne_true), nothing, Option.toList_none,
      List.append_nil] at same
    refine ⟨serves, ?_, ?_⟩ <;> rw [same]
    · exact follows.live
    · exact follows.dirty

theorem follows_run (asked : ∀ r ∈ requests, r.Formed kind) :
    ((ofAggregation aggregation kind).run requests).Follows aggregation kind requests := by
  induction requests using List.reverseRecOn with
  | nil => exact ⟨serves_ofAggregation aggregation kind, rfl, nofun, fun some_ => absurd rfl some_⟩
  | append_singleton before r ih =>
    rw [run_concat]
    exact (ih fun r' member => asked r' (List.mem_append_left _ member)).after
      (asked r (List.mem_append_right _ (List.mem_singleton_self r)))

/-! ## Updates alone -/

theorem gather_values (x : Aggregate) (vs : List Number) :
    gather x (vs.map .value) = .ok (vs.foldl Aggregate.update x) := by
  induction vs generalizing x with
  | nil => rfl
  | cons v rest ih =>
    rw [List.map_cons, gather, List.foldlM_cons]
    exact ih (x.update v)

theorem Request.recent_of_updates (updates : ∀ r ∈ requests, r.merges = false) :
    recent aggregation kind requests = (recentValues kind requests).map .value := by
  have same : ∀ r ∈ sinceCleared requests,
      r.intake? aggregation kind = (r.value? kind).map .value := by
    intro r member
    have update := updates r ((List.rtakeWhile_suffix _ _).subset member)
    cases r <;> first | rfl | cases update
  rw [recent, recentValues, List.map_filterMap]
  exact List.filterMap_congr same

theorem Request.kind_recentValues (kind : NumberKind) (requests : List Request) :
    ∀ v ∈ recentValues kind requests, v.kind = kind := by
  intro v member
  obtain ⟨r, -, adds⟩ := List.mem_filterMap.1 member
  exact kind_value adds

/-- After updates alone, what is live is the aggregate of those since it was cleared. -/
theorem live_of_updates (updates : ∀ r ∈ requests, r.merges = false) :
    ((ofAggregation aggregation kind).run requests).live =
      .ofValues kind aggregation (Request.recentValues kind requests) := by
  have asked : ∀ r ∈ requests, r.Formed kind := by
    intro r member
    have update := updates r member
    cases r <;> first | exact trivial | cases update
  have follows : ((ofAggregation aggregation kind).run requests).Follows aggregation kind requests :=
    follows_run asked
  have live := follows.live
  rw [Request.recent_of_updates updates, gather_values] at live
  exact (Except.ok.inj live).symm

/-- Whatever an aggregator is asked to do, with aggregates of its kind of number: its live aggregate
is what it took in since it was last cleared, folded from the empty one; it is marked exactly if that
is anything; it holds what was live at its last checkpoint; and what is not finite or is refused,
because configurations do not join, changes nothing. After updates alone, what a summary of integers
holds has the number and the bounds of the values between that checkpoint and the clearing before. -/
theorem run_law (aggregation : Aggregation) (kind : NumberKind) (requests : List Request)
    (asked : ∀ r ∈ requests, r.Formed kind) :
    let start := ofAggregation aggregation kind
    let a := start.run requests
    a.Serves aggregation kind ∧
    gather (.empty kind aggregation) (Request.recent aggregation kind requests) = .ok a.live ∧
    (a.dirty = true ↔ Request.recent aggregation kind requests ≠ []) ∧
    (.checkpoint ∉ requests → a.held = .empty kind aggregation) ∧
    (∀ before after, requests = before ++ .checkpoint :: after → .checkpoint ∉ after →
      a.held = (start.run before).live) ∧
    (∀ r, (∃ e, a.perform r = .error e) ↔ r.refused aggregation = true) ∧
    (∀ r, r.refused aggregation = true → a.after r = a) ∧
    (∀ v : Number, v.isFinite = false → a.after (.update v) = a) ∧
    (aggregation = .minMaxSumCount → kind = .int64 → (∀ r ∈ requests, r.merges = false) →
      ∀ before after, requests = before ++ .checkpoint :: after → .checkpoint ∉ after →
        ∃ m, a.held = .minMaxSumCount m ∧
          m.count = (Request.recentValues kind before).length ∧
          Number.Bounds m.least m.greatest (Request.recentValues kind before)) := by
  intro start a
  have starts : start.Serves aggregation kind := serves_ofAggregation aggregation kind
  have follows : a.Follows aggregation kind requests := follows_run asked
  have holds : ∀ before after, requests = before ++ .checkpoint :: after → .checkpoint ∉ after →
      a.held = (start.run before).live := by
    rintro before after rfl others
    exact starts.held_run_checkpoint asked others
  refine ⟨follows.serves, follows.live, follows.dirty, starts.held_run asked, holds,
    follows.serves.refused_iff, fun r refused => ?_, fun v infinite => ?_, ?_⟩
  · obtain ⟨e, failed⟩ := (follows.serves.refused_iff r).2 refused
    exact after_error failed
  · exact after_ok (congrArg Except.ok (if_neg (Bool.eq_false_iff.1 infinite)))
  · rintro rfl rfl updates before after split others
    have earlier : ∀ r ∈ before, r.merges = false := by
      intro r member
      exact updates r (by rw [split]; exact List.mem_append_left _ member)
    have kinds := Request.kind_recentValues .int64 before
    have tallies := Aggregate.tallies_ofValues .minMaxSumCount kinds
      fun v member => Number.isFinite_of_integer (kinds v member)
    rw [← live_of_updates earlier, ← holds before after split others] at tallies
    have shape : a.held.shape = .minMaxSumCount := by
      rw [holds before after split others, live_of_updates earlier, Aggregate.shape_ofValues]
    cases held : a.held with
    | minMaxSumCount m =>
      rw [held] at tallies
      exact ⟨m, rfl, tallies⟩
    | _ => rw [held] at shape; cases shape

/-- A sum is merged with itself, refuses a summary and what is not finite, and is drained; a summary
is checkpointed twice. -/
theorem merged_sum_is_held_over_drain :
    let requests : List Request := [.update (.integer 3), .update (.float (0.0 / 0.0)),
      .merge (ofAggregation .minMaxSumCount .int64), .mergeItself, .checkpoint,
      .update (.float 2.5), .drain, .mergeValue (.sum (.integer 7))]
    let updates : List Request := [.update (.integer 5), .checkpoint, .update (.integer 1),
      .update (.float 4.5), .checkpoint, .update (.integer 9)]
    let sum := (ofAggregation .sum .int64).run requests
    (∀ r ∈ requests, r.Formed .int64) ∧ (∀ r ∈ updates, r.Formed .int64) ∧
      sum.live = .sum (.integer 7) ∧ sum.held = .sum (.integer 6) ∧ sum.dirty = true ∧
      ∃ m, ((ofAggregation .minMaxSumCount .int64).run updates).held = .minMaxSumCount m ∧
        m.count = 2 ∧ Number.Bounds m.least m.greatest [.integer 1, .integer 4] := by
  intro requests updates sum
  have asked : ∀ r ∈ requests, r.Formed .int64 := by
    simp only [requests, List.forall_mem_cons]
    exact ⟨trivial, trivial, rfl, trivial, trivial, trivial, trivial, rfl, List.forall_mem_nil _⟩
  have asked' : ∀ r ∈ updates, r.Formed .int64 := by
    simp only [updates, List.forall_mem_cons]
    exact ⟨trivial, trivial, trivial, trivial, trivial, trivial, List.forall_mem_nil _⟩
  obtain ⟨-, live, marked, -, held, -⟩ := run_law .sum .int64 requests asked
  obtain ⟨-, -, -, -, -, -, -, -, summary⟩ := run_law .minMaxSumCount .int64 updates asked'
  have recent : Request.recent .sum .int64 requests = [.aggregate (.sum (.integer 7))] := by
    decide +kernel
  have earlier : ((ofAggregation .sum .int64).run (requests.take 4)).live = .sum (.integer 6) := by
    decide +kernel
  have values : Request.recentValues .int64 (updates.take 4) = [.integer 1, .integer 4] := by
    decide +kernel
  rw [recent] at live marked
  refine ⟨asked, asked', (Except.ok.inj live).symm, ?_, marked.2 (List.cons_ne_nil _ _), ?_⟩
  · exact (held (requests.take 4) (requests.drop 5) rfl (by simp [requests])).trans earlier
  · obtain ⟨m, summarized, count, bounds⟩ := summary rfl rfl (by simp [updates, Request.merges])
      (updates.take 4) (updates.drop 5) rfl (by simp [updates])
    rw [values] at count bounds
    exact ⟨m, summarized, count, bounds⟩

end Aggregator

end Metering
