import Metering.Proofs.Binary64.Arithmetic
import Metering.Proofs.Processor.Configured
import Metering.Proofs.Processor.Stateless

/-!
# Refused records

A processor makes the entry of a series before it knows whether the record fits. That leaves nothing
behind only because a new entry, which is configured as its record, always takes that record in. So
an entry has the configuration of the first record of its series since the processor last forgot
(`Mode.configuration`), for as long as it is kept; a record is refused if it clashes with that, and
then its series has an entry already, which stays as it is.
-/

namespace Metering

namespace Aggregation

/-- How the configurations of an aggregate and of one that is merged into it clash, with the error
that tells of it. Boundaries are compared as numbers, accuracies by the difference of floats. -/
inductive Clash : Aggregation → Aggregation → Error → Prop
  | kind {own other : Aggregation} (differ : own.kind ≠ other.kind) :
    Clash own other (.kindMismatch own.kind other.kind)
  | boundaries {own other : List Float} (differ : own.map Binary64.value ≠ other.map Binary64.value) :
    Clash (.histogram own) (.histogram other) (.incompatible (.boundaries own other))
  | accuracy {own other : Float} (differ : Sketch.epsilon < (own - other).abs) :
    Clash (.sketch own) (.sketch other) (.incompatible (.accuracy own other))

theorem validate_histogram {boundaries : List Float} :
    (histogram boundaries).validate = .ok () ↔ ∀ b ∈ boundaries, b.isFinite = true := by
  rw [validate, ← List.all_eq_true]
  split <;> simp_all

end Aggregation

/-- Finite floats are equal place by place if they are the same numbers. -/
theorem Histogram.sameFloats_iff {bs cs : List Float} (finite : ∀ b ∈ bs, b.isFinite = true)
    (finite' : ∀ c ∈ cs, c.isFinite = true) :
    sameFloats bs cs = true ↔ bs.map Binary64.value = cs.map Binary64.value := by
  induction bs generalizing cs with
  | nil => cases cs <;> simp [sameFloats]
  | cons b rest ih =>
    cases cs with
    | nil => simp [sameFloats]
    | cons c rest' =>
      have left := Binary64.denotes_of_isFinite (finite b List.mem_cons_self)
      have right := Binary64.denotes_of_isFinite (finite' c List.mem_cons_self)
      have heads : (b == c) = true ↔ Binary64.value b = Binary64.value c := by
        rw [Binary64.beq_iff, left.place, right.place, WithBot.coe_inj, WithTop.coe_inj]
        simp only [left.number, right.number, true_and]
      rw [sameFloats, Bool.and_eq_true, heads,
        ih (fun b' member => finite b' (List.mem_cons_of_mem _ member))
          fun c' member => finite' c' (List.mem_cons_of_mem _ member),
        List.map_cons, List.map_cons, List.cons.injEq]

namespace Aggregate

variable {a b : Aggregate}

theorem kind_shape (a : Aggregate) : a.shape.kind = a.kind := by
  cases a <;> rfl

theorem merge_of_kind_ne (differ : a.kind ≠ b.kind) :
    a.merge b = .error (.kindMismatch a.kind b.kind) := by
  cases a <;> cases b <;> first | rfl | exact absurd rfl differ

/-- An aggregate is not merged into another exactly if their configurations clash. -/
theorem merge_eq_error_iff (accepted : a.shape.validate = .ok ())
    (accepted' : b.shape.validate = .ok ()) (e : Error) :
    a.merge b = .error e ↔ a.shape.Clash b.shape e := by
  by_cases differ : a.kind = b.kind
  · cases a with
    | sum x =>
      cases b with
      | sum y =>
        refine iff_of_false (fun merged => ?_) fun clash => ?_
        · cases merged
        · cases clash with
          | kind apart => exact apart rfl
      | _ => cases differ
    | minMaxSumCount m =>
      cases b with
      | minMaxSumCount n =>
        refine iff_of_false (fun merged => ?_) fun clash => ?_
        · cases merged
        · cases clash with
          | kind apart => exact apart rfl
      | _ => cases differ
    | histogram h =>
      cases b with
      | histogram k =>
        have same := Histogram.sameFloats_iff (Aggregation.validate_histogram.1 accepted)
          (Aggregation.validate_histogram.1 accepted')
        rw [merge_histogram]
        constructor
        · intro merged
          split at merged
          · cases merged
          · rename_i apart
            cases merged
            exact .boundaries fun equal => apart (same.2 equal)
        · intro clash
          cases clash with
          | kind apart => exact absurd rfl apart
          | boundaries apart => rw [if_neg fun equal => apart (same.1 equal)]
      | _ => cases differ
    | sketch s =>
      cases b with
      | sketch t =>
        rw [merge_sketch]
        constructor
        · intro merged
          split at merged
          · rename_i apart
            cases merged
            exact .accuracy apart
          · cases merged
        · intro clash
          cases clash with
          | kind apart => exact absurd rfl apart
          | accuracy apart => rw [if_pos apart]
      | _ => cases differ
  · rw [merge_of_kind_ne differ, ← kind_shape, ← kind_shape] at *
    constructor
    · intro merged
      cases merged
      exact .kind differ
    · intro clash
      generalize a.shape = own, b.shape = other at clash differ
      cases clash with
      | kind _ => rfl
      | boundaries _ => exact absurd rfl differ
      | accuracy _ => exact absurd rfl differ

end Aggregate

namespace Tracked

variable {t : Tracked} {shape : Aggregation} {r : Record}

/-- All that an entry keeps is configured alike, also what it holds of the cycle before. -/
structure Alike (t : Tracked) (shape : Aggregation) : Prop extends t.Shaped shape where
  held : t.current.held.shape = shape

theorem alike_start (mode : Processor.Mode) (r : Record) : (start mode r).Alike r.value.shape :=
  ⟨shaped_start mode r, r.value.shape_reset⟩

/-- An entry refuses a record exactly if their configurations clash. -/
theorem Alike.merge_eq_error_iff (alike : t.Alike shape) (accepted : shape.validate = .ok ())
    (accepted' : r.value.shape.validate = .ok ()) (e : Error) :
    t.merge r = .error e ↔ shape.Clash r.value.shape e := by
  have live := alike.live
  rw [← live, ← Aggregate.merge_eq_error_iff (live ▸ accepted) accepted']
  rcases t.merge_cases r with ⟨live, into, fits, -⟩ | ⟨e', into, refused, -⟩
  · rw [into, fits]
    exact iff_of_false (fun found => by cases found) fun found => by cases found
  · rw [into, refused]
    exact ⟨fun found => by cases found; rfl, fun found => by cases found; rfl⟩

/-- A record leaves the configuration of an entry, whether it is taken in or not. -/
theorem Alike.absorb (alike : t.Alike shape) (r : Record) : (t.absorb r).Alike shape := by
  rcases t.merge_cases r with ⟨live, into, -, absorbed⟩ | ⟨e, -, -, absorbed⟩
  · rw [absorbed]
    exact ⟨⟨(Aggregate.merge_keeps into).1.trans alike.live, alike.total⟩, alike.held⟩
  · rw [absorbed]
    exact alike

theorem Alike.settle (alike : t.Alike shape) (fits : shape.Fits shape) : t.settle.Alike shape :=
  ⟨alike.toShaped.settle fits, alike.live⟩

/-- A new entry takes in the record that it is made for. -/
theorem merge_start (mode : Processor.Mode) (accepted : r.value.shape.validate = .ok ()) :
    ∃ t, (start mode r).merge r = .ok t := by
  obtain ⟨t, merged, -⟩ := (shaped_start mode r).merge (Aggregation.fits_self accepted) rfl
  exact ⟨t, merged⟩

end Tracked

namespace Processor

variable {mode : Mode} {p : Processor} {known : SeriesKey → Option Aggregation}
  {history : List Call} {r : Record}

/-! ## What is tracked -/

/-- The record that a call offers, if it offers one. -/
def Call.offer? : Call → Option Record
  | .process r => some r
  | .checkpoint => none
  | .finish => none

/-- Whether a call ends a cycle. -/
def Call.finishes : Call → Bool
  | .process _ => false
  | .checkpoint => false
  | .finish => true

/-- The records that some calls offer. -/
def offers (history : List Call) : List Record := history.filterMap Call.offer?

/-- Of some calls, those that were made since the processor last forgot: all of them with memory, and
without it those after the last end of a cycle. -/
def Mode.recent : Mode → List Call → List Call
  | .stateful, history => history
  | .stateless, history => (history.reverse.takeWhile fun c => !c.finishes).reverse

/-- The configuration that a series is tracked with: that of its first record since the processor
last forgot. -/
def Mode.configuration (mode : Mode) (history : List Call) (k : SeriesKey) : Option Aggregation :=
  ((offers (mode.recent history)).find? fun r => r.key = k).map fun r => r.value.shape

theorem Mode.recent_concat {c : Call} (goes_on : c.finishes = false) (mode : Mode)
    (history : List Call) : mode.recent (history ++ [c]) = mode.recent history ++ [c] := by
  cases mode with
  | stateful => rfl
  | stateless =>
    simp only [recent, List.reverse_append, List.reverse_singleton, List.singleton_append]
    rw [List.takeWhile_cons_of_pos (by rw [goes_on]; rfl), List.reverse_cons]

theorem Mode.recent_finish (history : List Call) :
    Mode.stateless.recent (history ++ [.finish]) = [] := by
  simp [recent, Call.finishes]

theorem Mode.mem_of_recent {mode : Mode} {c : Call} (member : c ∈ mode.recent history) :
    c ∈ history := by
  cases mode with
  | stateful => exact member
  | stateless =>
    exact List.mem_reverse.1 ((List.takeWhile_sublist _).subset (List.mem_reverse.1 member))

theorem offers_append (before after : List Call) :
    offers (before ++ after) = offers before ++ offers after :=
  List.filterMap_append

/-- A series is tracked with the configuration of a record. -/
theorem Mode.exists_of_configuration {k : SeriesKey} {shape : Aggregation}
    (tracked : mode.configuration history k = some shape) :
    ∃ r ∈ offers history, r.value.shape = shape := by
  obtain ⟨r, found, same⟩ := Option.map_eq_some_iff.1 tracked
  obtain ⟨c, member, offered⟩ := List.mem_filterMap.1 (List.mem_of_find?_eq_some found)
  exact ⟨r, List.mem_filterMap.2 ⟨c, Mode.mem_of_recent member, offered⟩, same⟩

/-- A record makes its series tracked, unless it is. -/
theorem Mode.configuration_process (mode : Mode) (history : List Call) (r : Record) (k : SeriesKey) :
    mode.configuration (history ++ [.process r]) k =
      if r.key = k then some ((mode.configuration history k).getD r.value.shape)
      else mode.configuration history k := by
  have offered : offers [.process r] = [r] := rfl
  simp only [configuration, Mode.recent_concat (c := .process r) rfl, offers_append, offered,
    List.find?_append]
  by_cases at_ : r.key = k
  · rw [if_pos at_, List.find?_cons_of_pos (by simpa using at_)]
    cases (offers (mode.recent history)).find? fun r => r.key = k <;> rfl
  · rw [if_neg at_, List.find?_cons_of_neg (by simpa using at_), List.find?_nil, Option.or_none]

theorem Mode.configuration_checkpoint (mode : Mode) (history : List Call) :
    mode.configuration (history ++ [.checkpoint]) = mode.configuration history := by
  have offered : offers [.checkpoint] = [] := rfl
  funext k
  simp only [configuration, Mode.recent_concat (c := .checkpoint) rfl, offers_append, offered,
    List.append_nil]

/-- The end of a cycle makes a processor without memory forget. -/
theorem Mode.configuration_finish (mode : Mode) (history : List Call) :
    mode.configuration (history ++ [.finish]) =
      match mode with
      | .stateless => fun _ => none
      | .stateful => mode.configuration history := by
  funext k
  cases mode with
  | stateless =>
    rw [configuration, recent_finish]
    rfl
  | stateful =>
    have offered : offers [.finish] = [] := rfl
    simp only [configuration, recent, offers_append, offered, List.append_nil]

/-! ## Entries follow what was asked -/

/-- The entries are those of the series that are tracked, with their configurations. -/
def Follows (p : Processor) (known : SeriesKey → Option Aggregation) : Prop :=
  ∀ k, Option.Rel Tracked.Alike (p.series.get? k) (known k)

/-- The entry for a record has the configuration of its series, or of the record if it is the
first. -/
theorem Follows.entry (follows : p.Follows known) (r : Record) :
    (p.entry r).Alike ((known r.key).getD r.value.shape) := by
  have tracked := follows r.key
  rw [Processor.entry]
  generalize p.series.get? r.key = t, known r.key = shape at tracked ⊢
  cases tracked with
  | some alike => exact alike
  | none => exact Tracked.alike_start p.mode r

theorem Follows.process (follows : p.Follows known) (r : Record) :
    (p.process r).2.Follows fun k =>
      if r.key = k then some ((known k).getD r.value.shape) else known k := by
  intro k
  rw [process_eq]
  dsimp only
  by_cases at_ : r.key = k
  · subst at_
    rw [if_pos rfl, Keyed.get?_insert_self]
    exact .some ((follows.entry r).absorb r)
  · rw [if_neg at_, Keyed.get?_insert_of_ne _ _ at_]
    exact follows k

/-- What changes all entries and keeps their configurations leaves what is tracked. -/
theorem Follows.map (follows : p.Follows known) {f : Tracked → Tracked}
    (keeps : ∀ k shape, known k = some shape → ∀ t : Tracked, t.Alike shape → (f t).Alike shape) :
    ({ p with series := p.series.map f } : Processor).Follows known := by
  intro k
  have tracked := follows k
  have kept := keeps k
  rw [Keyed.get?_map]
  generalize p.series.get? k = t, known k = shape at tracked kept ⊢
  cases tracked with
  | some alike => exact .some (kept _ rfl _ alike)
  | none => exact .none

theorem Follows.checkpoint (follows : p.Follows known)
    (accepted : ∀ k shape, known k = some shape → shape.validate = .ok ()) :
    p.checkpoint.2.Follows known :=
  follows.map fun k shape tracked _ alike =>
    alike.settle (Aggregation.fits_self (accepted k shape tracked))

theorem Follows.finish (follows : p.Follows known) :
    p.finish.Follows (match p.mode with
      | .stateless => fun _ => none
      | .stateful => known) := by
  rw [Processor.finish]
  cases p.mode with
  | stateless => exact fun _ => .none
  | stateful => exact follows.map fun _ _ _ _ alike => ⟨⟨alike.live, alike.total⟩, alike.held⟩

/-- Each request leaves the entries those of the series that are then tracked. -/
theorem Follows.ask (follows : p.Follows (p.mode.configuration history))
    (accepted : ∀ r ∈ offers history, r.value.shape.validate = .ok ()) (c : Call) :
    (p.ask c).2.Follows (p.mode.configuration (history ++ [c])) := by
  cases c with
  | process r =>
    rw [funext (p.mode.configuration_process history r)]
    exact follows.process r
  | checkpoint =>
    rw [p.mode.configuration_checkpoint history]
    refine follows.checkpoint fun k shape tracked => ?_
    obtain ⟨r, member, rfl⟩ := Mode.exists_of_configuration tracked
    exact accepted r member
  | finish =>
    rw [p.mode.configuration_finish history]
    exact follows.finish

theorem askAll_append (before after : List Call) : ∀ p : Processor,
    p.askAll (before ++ after) = ((p.askAll before).1 ++ ((p.askAll before).2.askAll after).1,
      ((p.askAll before).2.askAll after).2) := by
  induction before with
  | nil => exact fun _ => rfl
  | cons c rest ih =>
    intro p
    simp only [List.cons_append, askAll, ih]

/-- After any requests, the entries are those of the series that the requests say are tracked. -/
theorem follows_askAll (mode : Mode) (history : List Call)
    (accepted : ∀ r ∈ offers history, r.value.shape.validate = .ok ()) :
    ((empty mode).askAll history).2.Follows (mode.configuration history) := by
  induction history using List.reverseRecOn with
  | nil => cases mode <;> exact fun _ => .none
  | append_singleton history c ih =>
    have earlier : ∀ r ∈ offers history, r.value.shape.validate = .ok () := fun r member =>
      accepted r (by rw [offers_append]; exact List.mem_append_left _ member)
    have follows := ih earlier
    have same : ((empty mode).askAll history).2.mode = mode := mode_askAll history (empty mode)
    rw [askAll_append]
    generalize ((empty mode).askAll history).2 = p at follows same
    subst same
    exact follows.ask earlier c

/-! ## Refusals -/

/-- A record is refused exactly if it clashes with the configuration that its series is tracked
with. -/
theorem Follows.process_eq_error_iff (follows : p.Follows known)
    (accepted : ∀ k shape, known k = some shape → shape.validate = .ok ())
    (accepted' : r.value.shape.validate = .ok ()) (e : Error) :
    (p.process r).1 = .error e ↔ ∃ shape, known r.key = some shape ∧ shape.Clash r.value.shape e := by
  have refused : (p.process r).1 = .error e ↔ (p.entry r).merge r = .error e := by
    rw [Processor.process]
    cases (p.entry r).merge r with
    | ok t => exact iff_of_false (fun found => by cases found) fun found => by cases found
    | error e' => exact ⟨fun found => by cases found; rfl, fun found => by cases found; rfl⟩
  have tracked := follows r.key
  have valid := accepted r.key
  rw [refused, Processor.entry]
  generalize p.series.get? r.key = t, known r.key = shape at tracked valid ⊢
  cases tracked with
  | @some t shape alike =>
    rw [Option.getD_some, alike.merge_eq_error_iff (valid shape rfl) accepted']
    constructor
    · exact fun clash => ⟨shape, rfl, clash⟩
    · rintro ⟨_, same, clash⟩
      cases same
      exact clash
  | none =>
    obtain ⟨t, merged⟩ := Tracked.merge_start p.mode accepted'
    rw [Option.getD_none, merged]
    refine iff_of_false (fun found => ?_) ?_
    · cases found
    · rintro ⟨_, unknown, -⟩
      cases unknown

/-- A refused record leaves a processor with an entry for its series as it is. -/
theorem process_of_refused {t : Tracked} {e : Error} (present : p.series.get? r.key = some t)
    (refused : (p.process r).1 = .error e) : (p.process r).2 = p := by
  have entry : p.entry r = t := by rw [Processor.entry, present, Option.getD_some]
  rw [process_eq, entry]
  rcases t.merge_cases r with ⟨live, -, fits, -⟩ | ⟨e', -, -, absorbed⟩
  · rw [Processor.process, entry, fits] at refused
    cases refused
  · rw [absorbed, Keyed.insert_of_get? present]

/-- After any requests, with or without memory, the entries are those of the series of which a record
came since the processor last forgot, each with the configuration of the first. A record is refused
exactly if it clashes with the entry of its series, and then it leaves no trace: the processor is as
it was, and whatever is asked afterwards is answered as if the record had never come. -/
theorem refused_record_leaves_no_trace (mode : Mode) (history : List Call) (r : Record)
    (accepted : ∀ r' ∈ r :: offers history, r'.value.shape.validate = .ok ()) :
    let p := ((empty mode).askAll history).2
    (∀ k, Option.Rel Tracked.Alike (p.series.get? k) (mode.configuration history k)) ∧
      (∀ e, (p.process r).1 = .error e ↔
        ∃ shape, mode.configuration history r.key = some shape ∧ shape.Clash r.value.shape e) ∧
      ∀ e, (p.process r).1 = .error e → (p.process r).2 = p ∧
        ∀ more, ∃ answers last,
          (empty mode).askAll (history ++ more) =
            (((empty mode).askAll history).1 ++ answers, last) ∧
          (empty mode).askAll (history ++ .process r :: more) =
            (((empty mode).askAll history).1 ++ .processed (.error e) :: answers, last) := by
  intro p
  have earlier : ∀ r' ∈ offers history, r'.value.shape.validate = .ok () :=
    fun r' member => accepted r' (List.mem_cons_of_mem _ member)
  have follows : p.Follows (mode.configuration history) := follows_askAll mode history earlier
  have clashes := follows.process_eq_error_iff (r := r) (fun k shape tracked => by
    obtain ⟨r', member, rfl⟩ := Mode.exists_of_configuration tracked
    exact earlier r' member) (accepted r List.mem_cons_self)
  refine ⟨follows, clashes, fun e refused => ?_⟩
  have same : (p.process r).2 = p := by
    obtain ⟨shape, tracked, -⟩ := (clashes e).1 refused
    have entry := follows r.key
    rw [tracked] at entry
    cases present : p.series.get? r.key with
    | none =>
      rw [present] at entry
      cases entry
    | some t => exact process_of_refused present refused
  refine ⟨same, fun more => ⟨(p.askAll more).1, (p.askAll more).2, askAll_append history more _, ?_⟩⟩
  have step : p.askAll (.process r :: more) =
      (.processed (.error e) :: (p.askAll more).1, (p.askAll more).2) := by
    simp only [askAll, ask, refused, same]
  rw [askAll_append, step]

/-- In a processor with memory, a cycle after its first record, a histogram of other boundaries is
refused, and so is a sum for a series of sketches. -/
theorem later_misfits_leave_no_trace :
    let record : String → Aggregate → Int → Record := fun name value time =>
      ⟨⟨name, "", "", .valueRecorder, .int64, true⟩, "", value, ⟨time⟩⟩
    let history : List Call := [.process (record "sizes" (.histogram ⟨[2.0], [1, 0], .integer 1, 1⟩) 1),
      .process (record "delays" (.sketch (.empty 0.5 .int64)) 2), .checkpoint, .finish]
    let narrow := record "sizes" (.histogram ⟨[1.0, 2.0], [0, 1, 0], .integer 1, 1⟩) 3
    let counted := record "delays" (.sum (.integer 5)) 4
    let p := ((empty .stateful).askAll history).2
    (∀ r ∈ narrow :: counted :: offers history, r.value.shape.validate = .ok ()) ∧
      (p.process narrow = (.error (.incompatible (.boundaries [2.0] [1.0, 2.0])), p)) ∧
      p.process counted = (.error (.kindMismatch .sketch .sum), p) := by
  intro record history narrow counted p
  have accepted : ∀ r ∈ narrow :: counted :: offers history, r.value.shape.validate = .ok () := by
    decide +kernel
  have earlier := fun r member => accepted r (List.mem_cons_of_mem _ (List.mem_cons_of_mem _ member))
  obtain ⟨-, wide, stays⟩ := refused_record_leaves_no_trace .stateful history narrow
    (List.forall_mem_cons.2 ⟨accepted narrow (by simp), earlier⟩)
  obtain ⟨-, other, stays'⟩ := refused_record_leaves_no_trace .stateful history counted
    (List.forall_mem_cons.2 ⟨accepted counted (by simp), earlier⟩)
  have boundaries := (wide _).2 ⟨.histogram [2.0], by decide +kernel, .boundaries (by simp)⟩
  have kinds := (other _).2 ⟨.sketch 0.5, by decide +kernel, .kind (by decide)⟩
  exact ⟨accepted, Prod.ext boundaries (stays _ boundaries).1, Prod.ext kinds (stays' _ kinds).1⟩

end Processor

end Metering
