import Metering.Controller
import Metering.Proofs.Keyed

/-!
# Cycles of a processor

In a cycle a processor is given records, closes its books with a checkpoint and makes ready for the
next cycle. Seen from one key, only the records of that key matter: they are merged one after the
other into the entry of the key.
-/

namespace Metering

namespace Tracked

/-- The entry after a record was handed to it, which it may refuse. -/
def absorb (t : Tracked) (r : Record) : Tracked := ((t.merge r).toOption).getD t

theorem descriptor_absorb (t : Tracked) (r : Record) : (t.absorb r).descriptor = t.descriptor := by
  unfold absorb merge
  cases t.current.mergeValue r.value <;> rfl

/-- A record that fits is merged. -/
theorem absorb_of_merge {t : Tracked} {r : Record} {live : Aggregate}
    (merged : t.current.live.merge r.value = .ok live) :
    t.absorb r =
      { t with
        current := { t.current with live, dirty := true }
        timestamp := t.timestamp.latest r.timestamp
        updated := true } := by
  simp only [absorb, merge, Aggregator.mergeValue, merged]
  rfl

end Tracked

namespace Processor

variable {p : Processor} {k : SeriesKey} {r : Record} {rs : List Record}

/-- A cycle: the batch that is reported for some records, and the processor after it. -/
def cycle (p : Processor) (rs : List Record) : List Record × Processor :=
  let (batch, p) := (Controller.processAll p rs).2.checkpoint
  (batch, p.finish)

/-- The batches of some cycles. -/
def batches (p : Processor) : List (List Record) → List (List Record)
  | [] => []
  | rs :: rest => (p.cycle rs).1 :: (p.cycle rs).2.batches rest

/-- Ticks are cycles of what is collected. -/
theorem tick_cycle {ε : Type} [Exporter ε] (clock : Nat → Timestamp) (c : Controller ε)
    (p : Provider) :
    (c.tick clock p).1.batch = (c.processor.cycle (p.collect clock c.meter).1).1 ∧
      (c.tick clock p).2.1.processor = (c.processor.cycle (p.collect clock c.meter).1).2 :=
  ⟨rfl, rfl⟩

/-! ## Processing -/

theorem process_eq (p : Processor) (r : Record) :
    (p.process r).2 = { p with series := p.series.insert r.key ((p.entry r).absorb r) } := by
  unfold process Tracked.absorb
  cases (p.entry r).merge r with
  | ok t => rfl
  | error e => rfl

/-- The entry of a key after the records of that key. -/
def absorbAll (mode : Mode) (t : Option Tracked) (rs : List Record) : Option Tracked :=
  rs.foldl (fun t r => some ((t.getD (Tracked.start mode r)).absorb r)) t

theorem absorbAll_cons (mode : Mode) (t : Option Tracked) (r : Record) (rs : List Record) :
    absorbAll mode t (r :: rs) =
      some ((r :: rs).foldl Tracked.absorb (t.getD (Tracked.start mode r))) := by
  rw [absorbAll, List.foldl_cons, List.foldl_cons]
  generalize (t.getD (Tracked.start mode r)).absorb r = t'
  induction rs generalizing t' with
  | nil => rfl
  | cons r' rest ih => exact ih (t'.absorb r')

theorem processAll_cons (p : Processor) (r : Record) (rs : List Record) :
    (Controller.processAll p (r :: rs)).2 = (Controller.processAll (p.process r).2 rs).2 := by
  rw [Controller.processAll]
  dsimp only
  split <;> rfl

theorem mode_processAll (rs : List Record) : ∀ p : Processor,
    (Controller.processAll p rs).2.mode = p.mode := by
  induction rs with
  | nil => exact fun _ => rfl
  | cons r rest ih =>
    intro p
    rw [processAll_cons, ih, process_eq]

/-- Records of other keys make no difference to a key. -/
theorem get?_processAll (k : SeriesKey) (rs : List Record) : ∀ p : Processor,
    (Controller.processAll p rs).2.series.get? k =
      absorbAll p.mode (p.series.get? k) (rs.filter fun r => r.key = k) := by
  induction rs with
  | nil => exact fun _ => rfl
  | cons r rest ih =>
    intro p
    rw [processAll_cons, ih, process_eq]
    by_cases at_ : r.key = k
    · subst at_
      rw [List.filter_cons_of_pos (by simp), Keyed.get?_insert_self]
      rfl
    · rw [List.filter_cons_of_neg (by simpa using at_), Keyed.get?_insert_of_ne _ _ at_]

/-! ## Checkpoints -/

/-- The record that a checkpoint reports of a key, if it reports one. -/
def reported (p : Processor) (k : SeriesKey) : Option Record :=
  (p.series.get? k).bind fun t => recordOf k t.settle

/-- Every entry is of the instrument of its key. -/
def Labelled (p : Processor) : Prop :=
  ∀ k t, p.series.get? k = some t → t.descriptor.name = k.name

theorem labelled_empty (mode : Mode) : (empty mode).Labelled :=
  fun _ _ found => nomatch found

/-- Every entry has a descriptor that suits its key. -/
def Described (suits : SeriesKey → Descriptor → Prop) (p : Processor) : Prop :=
  ∀ k t, p.series.get? k = some t → suits k t.descriptor

theorem described_empty (suits : SeriesKey → Descriptor → Prop) (mode : Mode) :
    (empty mode).Described suits :=
  fun _ _ found => nomatch found

/-- An entry has the descriptor of a record of its key. -/
theorem described_processAll {suits : SeriesKey → Descriptor → Prop} (rs : List Record) :
    ∀ {p : Processor}, p.Described suits → (∀ r ∈ rs, suits r.key r.descriptor) →
      (Controller.processAll p rs).2.Described suits := by
  induction rs with
  | nil => exact fun described _ => described
  | cons r rest ih =>
    intro p described own
    rw [processAll_cons]
    refine ih (fun k t found => ?_) fun r' later => own r' (List.mem_cons_of_mem r later)
    rw [process_eq] at found
    by_cases at_ : r.key = k
    · subst at_
      rw [Keyed.get?_insert_self] at found
      cases found
      rw [Tracked.descriptor_absorb, entry]
      cases present : p.series.get? r.key with
      | none => exact own r List.mem_cons_self
      | some t => exact described r.key t present
    · rw [Keyed.get?_insert_of_ne _ _ at_] at found
      exact described k t found

theorem labelled_processAll (rs : List Record) {p : Processor} (labelled : p.Labelled) :
    (Controller.processAll p rs).2.Labelled := by
  have described : p.Described fun k d => d.name = k.name := labelled
  exact described_processAll rs described fun _ _ => rfl

theorem key_of_recordOf {t : Tracked} (name : t.descriptor.name = k.name)
    (reports : recordOf k t = some r) : r.key = k := by
  obtain ⟨value, -, rfl⟩ := Option.map_eq_some_iff.1 reports
  rw [Record.key, Record.name, name]

theorem checkpoint_eq (p : Processor) :
    p.checkpoint.1 = p.series.toList.filterMap fun e => recordOf e.1 e.2.settle := by
  have mapped : (p.series.map Tracked.settle).toList =
      p.series.toList.map fun e => (e.1, e.2.settle) := rfl
  rw [checkpoint]
  simp only [mapped, List.filterMap_map]
  rfl

theorem filter_checkpoint (labelled : p.Labelled) (k : SeriesKey) :
    (p.checkpoint.1.filter fun r => r.key = k) = (p.reported k).toList := by
  rw [checkpoint_eq]
  refine Keyed.filter_filterMap fun k' t r found reports => ?_
  have name : t.settle.descriptor.name = k'.name := labelled k' t found
  simp [key_of_recordOf name reports]

/-- A checkpoint reports the keys in ascending order. -/
theorem ascending_checkpoint (labelled : p.Labelled) :
    (p.checkpoint.1.map Record.key).Pairwise fun a b => compare a b = .lt := by
  rw [checkpoint_eq, List.pairwise_map]
  have named : p.series.entries.Pairwise fun a b => compare a.1 b.1 = .lt ∧
      a.2.descriptor.name = a.1.name ∧ b.2.descriptor.name = b.1.name :=
    p.series.ascending.imp_of_mem fun {a b} left right order =>
      ⟨order, labelled a.1 a.2 ((p.series.mem_entries_iff ..).1 left),
        labelled b.1 b.2 ((p.series.mem_entries_iff ..).1 right)⟩
  refine named.filterMap _ fun a b both r made r' made' => ?_
  rw [key_of_recordOf (t := a.2.settle) both.2.1 made,
    key_of_recordOf (t := b.2.settle) both.2.2 made']
  exact both.1

/-- A cycle reports of a key what its entry has to report after the records. -/
theorem filter_cycle (labelled : p.Labelled) (rs : List Record) (k : SeriesKey) :
    (p.cycle rs).1.filter (fun r => r.key = k) =
      ((Controller.processAll p rs).2.reported k).toList :=
  filter_checkpoint (labelled_processAll rs labelled) k

theorem ascending_cycle (labelled : p.Labelled) (rs : List Record) :
    ((p.cycle rs).1.map Record.key).Pairwise fun a b => compare a b = .lt :=
  ascending_checkpoint (labelled_processAll rs labelled)

/-- With memory, the end of a cycle closes the books of every entry. -/
theorem get?_cycle_stateful (mode : p.mode = .stateful) (k : SeriesKey) (rs : List Record) :
    (p.cycle rs).2.series.get? k =
      ((Controller.processAll p rs).2.series.get? k).map fun t => { t.settle with updated := false } := by
  have mode' : (Controller.processAll p rs).2.mode = .stateful := (mode_processAll rs p).trans mode
  simp only [cycle, checkpoint, finish, mode', Keyed.get?_map, Option.map_map]
  rfl

theorem mode_cycle (p : Processor) (rs : List Record) : (p.cycle rs).2.mode = p.mode := by
  have mode := mode_processAll rs p
  simp only [cycle, checkpoint, finish]
  split <;> exact mode

theorem described_cycle {suits : SeriesKey → Descriptor → Prop} (described : p.Described suits)
    (own : ∀ r ∈ rs, suits r.key r.descriptor) : (p.cycle rs).2.Described suits := by
  intro k t found
  have processed := described_processAll rs described own
  simp only [cycle, checkpoint, finish] at found
  split at found
  · cases found
  · rw [Keyed.get?_map, Keyed.get?_map] at found
    obtain ⟨t', settled, rfl⟩ := Option.map_eq_some_iff.1 found
    obtain ⟨t'', present, rfl⟩ := Option.map_eq_some_iff.1 settled
    exact processed k t'' present

theorem labelled_cycle (labelled : p.Labelled) (rs : List Record) : (p.cycle rs).2.Labelled := by
  have described : p.Described fun k d => d.name = k.name := labelled
  exact described_cycle described fun _ _ => rfl

/-- What is reported has the labels of a key and a descriptor that suits it. -/
theorem described_batches {suits : SeriesKey → Descriptor → Prop} (cs : List (List Record)) :
    ∀ {p : Processor}, p.Described suits → (∀ r ∈ cs.flatten, suits r.key r.descriptor) →
      ∀ batch ∈ p.batches cs, ∀ r ∈ batch, ∃ k, r.labels = k.labels ∧ suits k r.descriptor := by
  induction cs with
  | nil => exact fun _ _ _ none_ => nomatch none_
  | cons rs rest ih =>
    intro p described own batch member r among
    rw [List.flatten_cons, List.forall_mem_append] at own
    rcases List.mem_cons.1 member with rfl | later
    · have processed := described_processAll rs described own.1
      rw [cycle, checkpoint_eq, List.mem_filterMap] at among
      obtain ⟨e, entry, reports⟩ := among
      obtain ⟨value, -, rfl⟩ := Option.map_eq_some_iff.1 reports
      exact ⟨e.1, rfl, processed e.1 e.2 ((Keyed.mem_entries_iff ..).1 entry)⟩
    · exact ih (described_cycle described own.1) own.2 batch later r among

end Processor

end Metering
