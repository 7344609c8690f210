import Mathlib.Algebra.Order.BigOperators.Group.List
import Mathlib.Algebra.Order.Group.Nat
import Metering.Proofs.Provider.Calls
import Metering.Proofs.Provider.Without

/-!
# Collections with thinned scripts

A collection runs callbacks, and a callback may use the instrument that is left out. Where a `Course`
foretells what the callbacks will have done when all is over, the scripts without those actions lead
from the provider without the instrument to what the whole scripts lead to, without the instrument:
`Omits` says so of a collection, and `omits_collectWithin` proves it at every depth of nesting.
-/

namespace Metering

/-- A map of lighter values weighs less. -/
theorem Keyed.sum_values_mapWithKey_le {κ ν : Type} [Ord κ] (m : Keyed κ ν) {f : κ → ν → ν}
    {weight : ν → Nat} (lighter : ∀ k v, weight (f k v) ≤ weight v) :
    ((m.mapWithKey f).values.map weight).sum ≤ (m.values.map weight).sum := by
  rw [values, values, mapWithKey, List.map_map, List.map_map, List.map_map]
  exact List.sum_le_sum fun e _ => lighter e.1 e.2

namespace Provider

variable {clock : Nat → Timestamp} {nested : Collection} {course : Course} {out id : InstrumentId}
  {p q r : Provider} {a : Action}

/-! ## Foretelling -/

/-- What a course tells is what the journal says, and the instrument is disabled. -/
structure Foretells (course : Course) (out : InstrumentId) (p : Provider) : Prop where
  off : p.Off out
  told : ∀ run ∈ p.journal, course run.instrument run.call = run.did

/-- What is foretold of the end is foretold of all that comes before. -/
theorem Foretells.before (foretells : Foretells course out q) (numbers : Numbers p q)
    (stays : ∀ i, p.instrument? out = some i →
      ∃ j, q.instrument? out = some j ∧ j.descriptor = i.descriptor) : Foretells course out p where
  off i found := by
    obtain ⟨j, present, descriptor⟩ := stays i found
    rw [← descriptor]
    exact foretells.off j present
  told run member := by
    obtain ⟨-, runs, journal, -⟩ := numbers
    exact foretells.told run (journal ▸ List.mem_append_left _ member)

theorem did_of_find? {runs : List CallbackRun} {run : CallbackRun}
    (apart : runs.Pairwise fun run run' => run.instrument = run'.instrument → run.call ≠ run'.call)
    (member : run ∈ runs) :
    runs.find? (fun run' => run'.instrument = run.instrument ∧ run'.call = run.call) = some run := by
  induction runs with
  | nil => cases member
  | cons first rest ih =>
    obtain ⟨distinct, others⟩ := List.pairwise_cons.1 apart
    rcases List.mem_cons.1 member with rfl | later
    · exact List.find?_cons_of_pos (by simp)
    · rw [List.find?_cons_of_neg, ih others later]
      simpa using distinct run later

/-- The journal tells what it foretells, because each call is noted once. -/
theorem foretells_course (numbers : Numbers .empty p) (off : p.Off out) :
    Foretells p.course out p where
  off := off
  told run member := by
    obtain ⟨-, runs, journal, -, apart⟩ := numbers
    have whole : p.journal = runs := journal.trans (List.nil_append runs)
    rw [Provider.course, whole, did_of_find? apart (whole ▸ member)]
    rfl

/-- One thing leads to another in the course of a collection. -/
structure Leads (clock : Nat → Timestamp) (p q : Provider) : Prop where
  reach : Reach clock (fun _ => True) p q
  numbers : Numbers p q

theorem Leads.foretells (leads : Leads clock p q) (foretells : Foretells course out q) :
    Foretells course out p :=
  foretells.before leads.numbers fun _ found =>
    (leads.reach.descriptor found).imp fun _ facts => ⟨facts.1, facts.2.1⟩

section Leads

variable (leads : ∀ meter p, Leads clock p (nested meter p).2)

include leads

theorem leads_actAll (owner : InstrumentId) (actions : List Action) (p : Provider) :
    Leads clock p (p.actAll nested owner actions).2 where
  reach := reach_actAll (fun meter p _ _ => (leads meter p).reach) owner actions p.within_all
    fun _ _ => trivial
  numbers := numbers_actAll (fun meter p => (leads meter p).numbers) owner actions p

theorem leads_collectEach (reading : Nat) (meter : String) (names : List String) (p : Provider) :
    Leads clock p (p.collectEach clock nested reading meter names).2 where
  reach := reach_collectEach (fun meter p _ _ => (leads meter p).reach) reading trivial names
    p.within_all
  numbers := numbers_collectEach clock (fun meter p => (leads meter p).numbers) reading meter names p

end Leads

theorem leads_collectWithin (clock : Nat → Timestamp) (depth : Nat) (meter : String)
    (p : Provider) : Leads clock p (collectWithin clock depth meter p).2 where
  reach := sound_collectWithin clock (fun _ => True) depth meter p trivial p.within_all
  numbers := numbering_collectWithin clock depth meter p

/-! ## Callbacks -/

/-- A collection that does the same, and returns the same, without the instrument. -/
def Omits (course : Course) (out : InstrumentId) (nested : Collection) : Prop :=
  ∀ meter p, Foretells course out (nested meter p).2 →
    nested meter (p.without course out) =
      ((nested meter p).1, (nested meter p).2.without course out)

/-- An action that came to a value for the instrument changes nothing besides. -/
theorem without_act_self (off : p.Off out) {owner : InstrumentId}
    (here : (p.act nested owner a).1.isOn out = true) :
    (p.act nested owner a).2.without course out = p.without course out := by
  cases a with
  | observe value labels => exact without_record_self off (of_decide_eq_true here)
  | update tag value labels =>
    simp only [act] at here ⊢
    cases tagged : p.tags.get? tag with
    | none => rfl
    | some id =>
      rw [tagged] at here
      exact without_record_self off (u := ⟨id, value, labels⟩) (of_decide_eq_true here)
  | create tag meter d choice script => cases here
  | collect meter => cases here

theorem act_without (omits : Omits course out nested) {owner : InstrumentId}
    (foretells : Foretells course out (p.act nested owner a).2)
    (other : (p.act nested owner a).1.isOn out = false) :
    (p.without course out).act nested owner (a.without course out) =
      ((p.act nested owner a).1, (p.act nested owner a).2.without course out) := by
  cases a with
  | observe value labels =>
    simp only [act, Action.without]
    rw [record_without p (u := ⟨owner, value, labels⟩) (of_decide_eq_false other)]
  | update tag value labels =>
    simp only [act, Action.without] at other ⊢
    have tags : (p.without course out).tags.get? tag = p.tags.get? tag := rfl
    rw [tags]
    cases tagged : p.tags.get? tag with
    | none => rfl
    | some id =>
      rw [tagged] at other
      simp only
      rw [record_without p (u := ⟨id, value, labels⟩) (of_decide_eq_false other)]
  | create tag meter d choice script =>
    have created := create_without course out p tag meter d choice script
    simp only [act, Action.without]
    rw [scriptLeft] at created
    rw [created]
  | collect meter =>
    simp only [act, Action.without]
    rw [omits meter p foretells]

theorem actAll_without (leads : ∀ meter p, Leads clock p (nested meter p).2)
    (omits : Omits course out nested) (owner : InstrumentId) (actions : List Action) :
    ∀ {p : Provider}, Foretells course out (p.actAll nested owner actions).2 →
      (p.without course out).actAll nested owner
          (callWithout course out (p.actAll nested owner actions).1 actions) =
        ((p.actAll nested owner actions).1.filter fun done => !done.isOn out,
          (p.actAll nested owner actions).2.without course out) := by
  induction actions with
  | nil =>
    intro p _
    rw [callWithout]
    rfl
  | cons a rest ih =>
    intro p foretells
    have others := ih (p := (p.act nested owner a).2) foretells
    have after : Foretells course out (p.act nested owner a).2 :=
      (leads_actAll leads owner rest _).foretells foretells
    have first : Leads clock p (p.act nested owner a).2 := leads_actAll leads owner [a] p
    have before : Foretells course out p := first.foretells after
    have unfolded : p.actAll nested owner (a :: rest) =
        ((p.act nested owner a).1 :: ((p.act nested owner a).2.actAll nested owner rest).1,
          ((p.act nested owner a).2.actAll nested owner rest).2) := rfl
    rw [unfolded]
    by_cases here : (p.act nested owner a).1.isOn out = true
    · rw [callWithout_cons_self here, List.filter_cons_of_neg (by simp [here]),
        ← without_act_self before.off here, others]
    · have other := Bool.eq_false_of_not_eq_true here
      rw [callWithout_cons_of_not here, List.filter_cons_of_pos (by simp [other]), actAll]
      simp only
      rw [act_without omits after other, others]

/-- What is left of the next call are its actions without those that came to the instrument. A
backlog is reported for its own instrument. -/
theorem next_without (other : id ≠ out) (c : Callback)
    (told : course id c.calls = (p.actAll nested id c.next.1).1) :
    (c.without course out id).next.1 =
      callWithout course out (p.actAll nested id c.next.1).1 c.next.1 := by
  obtain ⟨tag, calls, source⟩ := c
  cases source with
  | script calls =>
    cases calls with
    | nil =>
      rw [← told]
      exact (callWithout.eq_1 ..).symm
    | cons call rest =>
      rw [← told]
      rfl
  | backlog pending =>
    simp [Callback.without, Callback.next, actAll, act, callWithout, Done.isOn, other, Action.without]

theorem runCallback_of_some {i : Instrument} {c : Callback} (found : p.instrument? id = some i)
    (observer : i.callback = some c) (nested : Collection) (reading : Nat) :
    p.runCallback nested reading id =
      let acted :=
        (p.modify id fun i => { i with callback := some c.next.2 }).actAll nested id c.next.1
      { acted.2 with journal := acted.2.journal ++ [⟨c.tag, c.calls, reading, id, acted.1⟩] } := by
  rw [runCallback, found, Option.bind_some, observer]

theorem runCallback_without (leads : ∀ meter p, Leads clock p (nested meter p).2)
    (omits : Omits course out nested) (reading : Nat) (other : id ≠ out)
    (foretells : Foretells course out (p.runCallback nested reading id)) :
    (p.without course out).runCallback nested reading id =
      (p.runCallback nested reading id).without course out := by
  have left := instrument?_without course out p id
  cases found : p.instrument? id with
  | none =>
    rw [found] at left
    rw [runCallback_of_none nested reading (by rw [left]; rfl),
      runCallback_of_none nested reading (by rw [found]; rfl)]
  | some i =>
    rw [found, Option.map_some, Instrument.without_of_ne other] at left
    cases observer : i.callback with
    | none =>
      rw [runCallback_of_none nested reading (by rw [left, Option.bind_some, observer]; rfl),
        runCallback_of_none nested reading (by rw [found, Option.bind_some, observer])]
    | some c =>
      have thinned : ({ i with callback := i.callback.map (Callback.without course out id) } :
          Instrument).callback = some (c.without course out id) := by
        rw [observer]
        rfl
      rw [runCallback_of_some found observer] at foretells ⊢
      rw [runCallback_of_some left thinned]
      -- The provider once the call has begun, and what the call comes to.
      let begun := p.modify id fun i => { i with callback := some c.next.2 }
      have told : course id c.calls = (begun.actAll nested id c.next.1).1 :=
        foretells.told ⟨c.tag, c.calls, reading, id, _⟩
          (List.mem_append_right _ (List.mem_singleton_self _))
      have advanced : begun.without course out = (p.without course out).modify id fun i =>
          { i with callback := some (c.without course out id).next.2 } := by
        refine without_modify fun j _ => ?_
        rw [Instrument.without_of_ne other, Instrument.without_of_ne other, Callback.next_without]
        rfl
      have acted := actAll_without leads omits id c.next.1 (p := begun)
        ⟨foretells.off, fun run member => foretells.told run (List.mem_append_left _ member)⟩
      rw [← advanced, next_without other c told, acted]
      simp only [without, List.map_append, List.map_cons, List.map_nil]
      rw [Callback.tag_without, Callback.calls_without]
      rfl

/-! ## Collections -/

theorem sweep_without (clock : Nat → Timestamp) (reading : Nat) (other : id ≠ out) (p : Provider) :
    (p.without course out).sweep clock reading id =
      ((p.sweep clock reading id).1, (p.sweep clock reading id).2.without course out) := by
  unfold sweep
  rw [instrument?_without]
  cases found : p.instrument? id with
  | none => rfl
  | some i =>
    rw [Option.map_some, Instrument.without_of_ne other]
    have swept : (p.modify id fun _ => (i.sweep (clock reading)).2).without course out =
        (p.without course out).modify id fun _ =>
          (i.sweep (clock reading)).2.without course out id :=
      without_modify fun _ _ => rfl
    simp only
    rw [without_note_of_ne _ (e := .swept reading id (i.sweep (clock reading)).1) other, swept,
      Instrument.without_of_ne other]
    rfl

/-- A sweep keeps every instrument and its descriptor. -/
theorem descriptor_sweep (clock : Nat → Timestamp) (reading : Nat) (id : InstrumentId)
    (p : Provider) (i : Instrument) (found : p.instrument? out = some i) :
    ∃ j, (p.sweep clock reading id).2.instrument? out = some j ∧ j.descriptor = i.descriptor := by
  cases present : p.instrument? id with
  | none => exact ⟨i, by rw [sweep, present]; exact found, rfl⟩
  | some k =>
    obtain ⟨-, puts, -⟩ := sweep_of_some clock reading present
    by_cases here : out = id
    · subst here
      cases found.symm.trans present
      exact ⟨_, puts.self, rfl⟩
    · exact ⟨i, (puts.other here).trans found, rfl⟩

theorem collectInstrument_without (leads : ∀ meter p, Leads clock p (nested meter p).2)
    (omits : Omits course out nested) (reading : Nat) (id : InstrumentId)
    (foretells : Foretells course out (p.collectInstrument clock nested reading id).2) :
    (p.without course out).collectInstrument clock nested reading id =
      ((p.collectInstrument clock nested reading id).1,
        (p.collectInstrument clock nested reading id).2.without course out) := by
  have enabled : ((p.without course out).instrument? id).any (·.descriptor.enabled) =
      (p.instrument? id).any (·.descriptor.enabled) := by
    rw [instrument?_without, Option.any_map]
    simp only [Instrument.descriptor_without]
  have leadsTo : Leads clock p (p.collectInstrument clock nested reading id).2 :=
    leads_collectEach leads reading id.meter [id.name] p
  have before : Foretells course out p := leadsTo.foretells foretells
  unfold collectInstrument at foretells ⊢
  rw [enabled]
  by_cases on : (p.instrument? id).any (·.descriptor.enabled) = true
  · rw [if_pos on] at foretells
    have other : id ≠ out := by
      rintro rfl
      obtain ⟨i, found, enabled⟩ := (Option.any_eq_true _ _).1 on
      rw [before.off i found] at enabled
      cases enabled
    have called : Foretells course out (p.runCallback nested reading id) :=
      foretells.before (numbers_sweep clock reading id _) (descriptor_sweep clock reading id _)
    rw [if_pos on, if_pos on, runCallback_without leads omits reading other called,
      sweep_without clock reading other]
  · rw [if_neg on, if_neg on]

theorem collectEach_without (leads : ∀ meter p, Leads clock p (nested meter p).2)
    (omits : Omits course out nested) (reading : Nat) (meter : String) (names : List String) :
    ∀ {p : Provider}, Foretells course out (p.collectEach clock nested reading meter names).2 →
      (p.without course out).collectEach clock nested reading meter names =
        ((p.collectEach clock nested reading meter names).1,
          (p.collectEach clock nested reading meter names).2.without course out) := by
  induction names with
  | nil => exact fun _ => rfl
  | cons name rest ih =>
    intro p foretells
    have others := ih (p := (p.collectInstrument clock nested reading ⟨meter, name⟩).2) foretells
    have after := (leads_collectEach leads reading meter rest _).foretells foretells
    simp only [collectEach]
    rw [collectInstrument_without leads omits reading ⟨meter, name⟩ after, others]

theorem omits_collectMeter (leads : ∀ meter p, Leads clock p (nested meter p).2)
    (omits : Omits course out nested) : Omits course out (collectMeter clock nested) := by
  intro meter p foretells
  have each := collectEach_without leads omits p.readings meter ((p.use meter).meter meter).names
    (p := { p.use meter with readings := p.readings + 1 }) foretells
  simp only [collectMeter]
  rw [← without_use, names_without]
  exact each

/-- However deep collections are nested, they do the same without the instrument. -/
theorem omits_collectWithin (clock : Nat → Timestamp) (course : Course) (out : InstrumentId)
    (depth : Nat) : Omits course out (collectWithin clock depth) := by
  induction depth with
  | zero => exact fun _ _ _ => rfl
  | succ depth ih => exact omits_collectMeter (leads_collectWithin clock depth) ih

/-- There are not more collections to come without the instrument. -/
theorem collections_without (p : Provider) :
    (p.without course out).collections ≤ p.collections := by
  refine p.meters.sum_values_mapWithKey_le fun name m => ?_
  exact m.instruments.sum_values_mapWithKey_le fun inner i => i.collections_without ⟨name, inner⟩

/-- A collection of what is left is what is left of the collection. -/
theorem collect_without (clock : Nat → Timestamp) (meter : String)
    (foretells : Foretells course out (p.collect clock meter).2) :
    (p.without course out).collect clock meter =
      ((p.collect clock meter).1, (p.collect clock meter).2.without course out) := by
  have enough : (p.without course out).depth ≤ p.depth := Nat.succ_le_succ p.collections_without
  rw [← collectWithin_eq_collect clock meter enough]
  exact omits_collectWithin clock course out p.depth meter p foretells

end Provider

end Metering
