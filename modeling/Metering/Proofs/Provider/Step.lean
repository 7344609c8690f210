import Mathlib.Logic.Relation
import Metering.Proofs.Provider.View

/-!
# Collections as sequences of steps

A collection runs callbacks, and callbacks record, create instruments and collect again.
`Step clock meters p q` is one of the things that can happen to a provider on the way, where
`meters` says which meters are collected, and `Reach` is its reflexive-transitive closure. Every
collection is such a sequence of steps (`reach_collect`), however callbacks are nested in it.

`Step.change` reads a step through `instrument?` and `history`: it leaves the instruments as they
are, or creates one, advances one callback, records one value, or sweeps one instrument. An
invariant of these five is an invariant of every collection.
-/

namespace Metering

/-! ## The meters that scripts collect -/

mutual

/-- The meters that an action can lead to collecting. -/
def Action.targets : Action → List String
  | .observe _ _ => []
  | .update _ _ _ => []
  | .create _ _ _ _ script => scriptTargets script
  | .collect meter => [meter]

/-- The meters that the actions of one call can lead to collecting. -/
def callTargets : List Action → List String
  | [] => []
  | a :: rest => a.targets ++ callTargets rest

/-- The meters that the calls of a script can lead to collecting. -/
def scriptTargets : List (List Action) → List String
  | [] => []
  | call :: rest => callTargets call ++ scriptTargets rest

end

/-- The meters that the calls to come can lead to collecting. -/
def Callback.targets (c : Callback) : List String :=
  match c.source with
  | .script calls => scriptTargets calls
  | .backlog _ => []

theorem Callback.targets_next {c : Callback} {meter : String}
    (target : meter ∈ callTargets c.next.1 ∨ meter ∈ c.next.2.targets) : meter ∈ c.targets := by
  obtain ⟨tag, calls, source⟩ := c
  cases source with
  | script calls =>
    cases calls with
    | nil => simp [next, targets, callTargets, scriptTargets] at target
    | cons call rest => simpa [next, targets, scriptTargets] using target
  | backlog pending => simp [next, targets, callTargets, Action.targets] at target

namespace Provider

variable {clock : Nat → Timestamp} {meters : String → Prop} {p q : Provider} {id : InstrumentId}

/-- Every collection that a callback can lead to is one of the given meters. -/
def Within (meters : String → Prop) (p : Provider) : Prop :=
  ∀ id i c, p.instrument? id = some i → i.callback = some c → ∀ m ∈ c.targets, meters m

theorem within_all (p : Provider) : p.Within fun _ => True :=
  fun _ _ _ _ _ _ _ => trivial

/-! ## Steps -/

/-- What can happen to a provider in the course of a collection. -/
inductive Step (clock : Nat → Timestamp) (meters : String → Prop) : Provider → Provider → Prop
  | use (p : Provider) (name : String) : Step clock meters p (p.use name)
  | create (p : Provider) (tag meter : String) (d : Descriptor) (choice : Option Aggregation)
    (script : List (List Action)) :
    (∀ m ∈ scriptTargets script, meters m) →
    Step clock meters p (p.create tag meter d choice script).2
  | record (p : Provider) (u : Update) : Step clock meters p (p.record u).2
  /-- A callback has been called. -/
  | advance {p : Provider} {id : InstrumentId} {i : Instrument} {c : Callback} :
    p.instrument? id = some i → i.callback = some c →
    Step clock meters p (p.modify id fun i => { i with callback := some c.next.2 })
  /-- The run of a callback has ended. -/
  | journal (p : Provider) (run : CallbackRun) :
    Step clock meters p { p with journal := p.journal ++ [run] }
  | read (p : Provider) : Step clock meters p { p with readings := p.readings + 1 }
  | sweep {p : Provider} {id : InstrumentId} {i : Instrument} (reading : Nat) :
    p.instrument? id = some i → i.descriptor.enabled = true → meters id.meter →
    Step clock meters p (p.sweep clock reading id).2

/-- What a sequence of steps can lead to. -/
abbrev Reach (clock : Nat → Timestamp) (meters : String → Prop) : Provider → Provider → Prop :=
  Relation.ReflTransGen (Step clock meters)

/-- A step as it is seen through the instruments and the history. -/
inductive Change (clock : Nat → Timestamp) (meters : String → Prop) (p q : Provider) : Prop
  | same : q.instrument? = p.instrument? → q.history = p.history → Change clock meters p q
  | created (meter : String) (d : Descriptor) (choice : Option Aggregation)
    (callback : Option Callback) :
    Meter.check d (aggregationFor d.kind choice) = .ok () →
    (∀ c, callback = some c → ∀ m ∈ c.targets, meters m) →
    p.instrument? ⟨meter, d.name⟩ = none →
    Puts p q ⟨meter, d.name⟩ (.new d (aggregationFor d.kind choice) callback) →
    q.history = p.history → Change clock meters p q
  | advanced (id : InstrumentId) (i : Instrument) (c : Callback) :
    p.instrument? id = some i → i.callback = some c →
    Puts p q id { i with callback := some c.next.2 } →
    q.history = p.history → Change clock meters p q
  | accepted (id : InstrumentId) (i : Instrument) (value : Number) (labels : LabelSet) :
    p.instrument? id = some i → i.descriptor.check value = .ok () →
    Puts p q id (i.recordChecked value labels) →
    q.history = .accepted id labels.canonical value :: p.history → Change clock meters p q
  | swept (reading : Nat) (id : InstrumentId) (i : Instrument) :
    p.instrument? id = some i → i.descriptor.enabled = true → meters id.meter →
    Puts p q id (i.sweep (clock reading)).2 →
    q.history = .swept reading id (i.sweep (clock reading)).1 :: p.history →
    Change clock meters p q

theorem change_record (clock : Nat → Timestamp) (meters : String → Prop) (p : Provider)
    (u : Update) : Change clock meters p (p.record u).2 := by
  rcases p.record_spec u with ⟨e, refused⟩ | ⟨i, found, checked, _, puts, noted⟩
  · rw [refused]
    exact .same rfl rfl
  · exact .accepted u.instrument i u.value u.labels found checked puts noted

theorem Step.change (step : Step clock meters p q) : Change clock meters p q := by
  cases step with
  | use name => exact .same (p.instrument?_use name) rfl
  | create tag meter d choice script inside =>
    rcases p.create_spec tag meter d choice script with
      ⟨e, -, unchanged⟩ | ⟨-, checked, free, puts, noted⟩
    · rw [unchanged]
      exact .same (p.instrument?_use meter) rfl
    · refine .created meter d choice _ checked (fun c made => ?_) free puts noted
      split at made
      · cases made
      · cases made
        exact inside
  | record u => exact change_record clock meters p u
  | @advance id i c found called =>
    exact .advanced id i c found called (puts_modify found _) rfl
  | journal run => exact .same rfl rfl
  | read => exact .same rfl rfl
  | @sweep id i reading found enabled inside =>
    obtain ⟨_, puts, noted⟩ := sweep_of_some clock reading found
    exact .swept reading id i found enabled inside puts noted

/-- A change leaves callbacks as they are, advances one or makes one. -/
theorem Change.within (change : Change clock meters p q) (inside : p.Within meters) :
    q.Within meters := by
  intro id' i' c' found' called'
  -- Where the change puts an instrument, it has the callback `c₀` of that instrument.
  have spread : ∀ {id i}, Puts p q id i →
      (∀ c, i.callback = some c → ∀ m ∈ c.targets, meters m) → ∀ m ∈ c'.targets, meters m := by
    intro id i puts allowed
    by_cases at_ : id' = id
    · subst at_
      rw [puts.self] at found'
      cases found'
      exact allowed c' called'
    · rw [puts.other at_] at found'
      exact inside id' i' c' found' called'
  cases change with
  | same instruments _ => exact inside id' i' c' (instruments ▸ found') called'
  | created meter d choice callback _ allowed _ puts _ => exact spread puts allowed
  | advanced id i c found called puts _ =>
    refine spread puts fun c₁ advanced m target => ?_
    cases advanced
    exact inside id i c found called m (Callback.targets_next (Or.inr target))
  | accepted id i value labels found _ puts _ =>
    refine spread puts fun c₁ kept => ?_
    rw [Instrument.callback_recordChecked] at kept
    exact inside id i c₁ found kept
  | swept reading id i found _ _ puts _ =>
    exact spread puts fun c₁ kept => inside id i c₁ found kept

theorem Reach.within (reach : Reach clock meters p q) (inside : p.Within meters) :
    q.Within meters := by
  induction reach with
  | refl => exact inside
  | tail _ step ih => exact step.change.within ih

/-! ## Collections -/

/-- A collection of one of the given meters is a sequence of steps. -/
def Sound (clock : Nat → Timestamp) (meters : String → Prop) (nested : Collection) : Prop :=
  ∀ meter p, meters meter → p.Within meters → Reach clock meters p (nested meter p).2

variable {nested : Collection}

theorem reach_act (sound : Sound clock meters nested) (inside : p.Within meters)
    (owner : InstrumentId) (a : Action) (allowed : ∀ m ∈ a.targets, meters m) :
    Reach clock meters p (p.act nested owner a).2 := by
  cases a with
  | observe value labels => exact .single (.record p _)
  | update tag value labels =>
    simp only [act]
    cases p.tags.get? tag with
    | none => exact .refl
    | some id => exact .single (.record p ⟨id, value, labels⟩)
  | create tag meter d choice script =>
    exact .single (.create p tag meter d choice script fun m target =>
      allowed m (by rwa [Action.targets]))
  | collect meter =>
    exact sound meter p (allowed meter (by rw [Action.targets]; exact List.mem_singleton_self _))
      inside

theorem reach_actAll (sound : Sound clock meters nested) (owner : InstrumentId)
    (actions : List Action) :
    ∀ {p : Provider}, p.Within meters → (∀ m ∈ callTargets actions, meters m) →
      Reach clock meters p (p.actAll nested owner actions).2 := by
  induction actions with
  | nil => exact fun _ _ => .refl
  | cons a rest ih =>
    intro p inside allowed
    have first : Reach clock meters p (p.act nested owner a).2 :=
      reach_act sound inside owner a fun m target =>
        allowed m (by rw [callTargets]; exact List.mem_append_left _ target)
    have others : Reach clock meters (p.act nested owner a).2
        ((p.act nested owner a).2.actAll nested owner rest).2 :=
      ih (first.within inside) fun m target =>
        allowed m (by rw [callTargets]; exact List.mem_append_right _ target)
    exact first.trans others

/-- Running a callback advances it, does its actions and notes the run. -/
theorem reach_runCallback (sound : Sound clock meters nested) (inside : p.Within meters)
    (reading : Nat) (id : InstrumentId) :
    Reach clock meters p (p.runCallback nested reading id) := by
  unfold runCallback
  cases found : p.instrument? id with
  | none => exact .refl
  | some i =>
    cases called : i.callback with
    | none => rw [Option.bind_some, called]
    | some c =>
      rw [Option.bind_some, called]
      have advanced : Reach clock meters p
          (p.modify id fun i => { i with callback := some c.next.2 }) :=
        .single (.advance found called)
      have acted := reach_actAll sound id c.next.1 (advanced.within inside) fun m target =>
        inside id i c found called m (Callback.targets_next (Or.inl target))
      exact (advanced.trans acted).tail (.journal _ _)

theorem reach_sweep (reading : Nat) (id : InstrumentId)
    (enabled : (p.instrument? id).any (·.descriptor.enabled) = true) (allowed : meters id.meter) :
    Reach clock meters p (p.sweep clock reading id).2 := by
  obtain ⟨i, found, on⟩ := (Option.any_eq_true _ _).1 enabled
  exact .single (.sweep reading found on allowed)

/-- No step makes an instrument disappear or changes its descriptor. -/
theorem Change.descriptor (change : Change clock meters p q) {i : Instrument}
    (found : p.instrument? id = some i) :
    ∃ j, q.instrument? id = some j ∧ j.descriptor = i.descriptor ∧
      j.aggregation = i.aggregation := by
  have spread : ∀ {id' i' j}, p.instrument? id' = some i' → Puts p q id' j →
      j.descriptor = i'.descriptor → j.aggregation = i'.aggregation →
      ∃ j, q.instrument? id = some j ∧ j.descriptor = i.descriptor ∧
        j.aggregation = i.aggregation := by
    intro id' i' j present puts descriptor aggregation
    by_cases at_ : id = id'
    · subst at_
      rw [found] at present
      cases present
      exact ⟨j, puts.self, descriptor, aggregation⟩
    · exact ⟨i, (puts.other at_).trans found, rfl, rfl⟩
  cases change with
  | same instruments _ => exact ⟨i, instruments ▸ found, rfl, rfl⟩
  | created meter d choice callback _ _ free puts _ =>
    have other : id ≠ ⟨meter, d.name⟩ := by
      rintro rfl
      rw [found] at free
      cases free
    exact ⟨i, (puts.other other).trans found, rfl, rfl⟩
  | advanced id' i' c present _ puts _ => exact spread present puts rfl rfl
  | accepted id' i' value labels present _ puts _ => exact spread present puts (by simp) (by simp)
  | swept reading id' i' present _ _ puts _ => exact spread present puts rfl rfl

theorem Reach.descriptor (reach : Reach clock meters p q) {i : Instrument}
    (found : p.instrument? id = some i) :
    ∃ j, q.instrument? id = some j ∧ j.descriptor = i.descriptor ∧
      j.aggregation = i.aggregation := by
  induction reach with
  | refl => exact ⟨i, found, rfl, rfl⟩
  | tail _ step ih =>
    obtain ⟨j, present, descriptor, aggregation⟩ := ih
    obtain ⟨k, after, sameDescriptor, sameAggregation⟩ := step.change.descriptor present
    exact ⟨k, after, sameDescriptor.trans descriptor, sameAggregation.trans aggregation⟩

theorem reach_collectInstrument (sound : Sound clock meters nested) (inside : p.Within meters)
    (reading : Nat) (id : InstrumentId) (allowed : meters id.meter) :
    Reach clock meters p (p.collectInstrument clock nested reading id).2 := by
  unfold collectInstrument
  by_cases enabled : (p.instrument? id).any (·.descriptor.enabled) = true
  · rw [if_pos enabled]
    have called := reach_runCallback sound inside reading id
    obtain ⟨i, found, on⟩ := (Option.any_eq_true _ _).1 enabled
    obtain ⟨j, present, descriptor, -⟩ := called.descriptor found
    refine called.trans (reach_sweep reading id ?_ allowed)
    rw [present, Option.any_some, descriptor]
    exact on
  · rw [if_neg enabled]

theorem reach_collectEach (sound : Sound clock meters nested) (reading : Nat) {meter : String}
    (allowed : meters meter) (names : List String) :
    ∀ {p : Provider}, p.Within meters →
      Reach clock meters p (p.collectEach clock nested reading meter names).2 := by
  induction names with
  | nil => exact fun _ => .refl
  | cons name rest ih =>
    intro p inside
    have first := reach_collectInstrument sound inside reading ⟨meter, name⟩ allowed
    exact first.trans (ih (first.within inside))

theorem sound_collectMeter (sound : Sound clock meters nested) :
    Sound clock meters (collectMeter clock nested) := by
  intro meter p allowed inside
  have used : Reach clock meters p { p.use meter with readings := p.readings + 1 } :=
    (Relation.ReflTransGen.single (.use p meter)).tail (.read _)
  exact used.trans (reach_collectEach sound p.readings allowed _ (used.within inside))

/-- However deep collections are nested, what they do is a sequence of steps. -/
theorem sound_collectWithin (clock : Nat → Timestamp) (meters : String → Prop) (depth : Nat) :
    Sound clock meters (collectWithin clock depth) := by
  induction depth with
  | zero => exact fun _ _ _ _ => .refl
  | succ depth ih => exact sound_collectMeter ih

theorem reach_collect (clock : Nat → Timestamp) {meter : String} (allowed : meters meter)
    (inside : p.Within meters) : Reach clock meters p (p.collect clock meter).2 :=
  sound_collectWithin clock meters p.depth meter p allowed inside

end Provider

end Metering
