import Metering.Proofs.Keyed
import Metering.Proofs.Provider.View

/-!
# Collections are nested without a bound

A collection is defined by the depth to which collections are nested, and `Provider.depth` counts the
collections that callbacks can still lead to. Each of these is used up when its callback is called,
before the nested collection begins, and nothing that a callback does adds to them. So no collection
ever reaches the bound: it does the same at any greater depth (`collectWithin_eq_collect`), and the
collections nested in it are collections without a bound themselves (`collect_eq`).
-/

namespace Metering

/-- The calls to come and those of the next call share the collections they can lead to. -/
theorem Callback.collections_next (c : Callback) :
    callCollections c.next.1 + c.next.2.collections = c.collections := by
  obtain ⟨tag, calls, source⟩ := c
  cases source with
  | script calls =>
    cases calls with
    | nil => rfl
    | cons call rest => rfl
  | backlog pending => rfl

/-- The collections that the callback of an instrument can still lead to. -/
def Instrument.collections (i : Instrument) : Nat := (i.callback.map Callback.collections).getD 0

theorem Meter.collections_insert (m : Meter) (name : String) (i : Instrument) :
    Meter.collections ⟨m.instruments.insert name i⟩ +
        ((m.get? name).map Instrument.collections).getD 0 = m.collections + i.collections :=
  Keyed.sum_values_insert m.instruments name i Instrument.collections

/-- A new instrument brings the collections of its callback. -/
theorem Meter.collections_register {m m' : Meter} {d : Descriptor} {a : Aggregation}
    {callback : Option Callback} (registered : m.register d a callback = .ok m') :
    m'.collections ≤ m.collections + (callback.map Callback.collections).getD 0 := by
  unfold Meter.register at registered
  split at registered
  · cases registered
  · split at registered
    · cases registered
    · cases registered
      have inserted := Meter.collections_insert m d.name (.new d a callback)
      have brought : (Instrument.new d a callback).collections =
          (callback.map Callback.collections).getD 0 := rfl
      omega

namespace Provider

variable {clock : Nat → Timestamp} {p q : Provider} {id : InstrumentId} {i : Instrument}

/-- The collections that callbacks can still lead to. -/
def collections (p : Provider) : Nat := (p.meters.values.map Meter.collections).sum

/-! ## What changes the collections to come -/

theorem collections_of_meters (same : q.meters = p.meters) : q.collections = p.collections :=
  congrArg (fun meters : Keyed String Meter => (meters.values.map Meter.collections).sum) same

/-- The provider with another meter under a name. -/
def withMeter (p : Provider) (name : String) (m : Meter) : Provider :=
  { p with meters := p.meters.insert name m }

/-- The collections of the other meter take the place of those of the former. -/
theorem collections_withMeter (p : Provider) (name : String) (m : Meter) :
    (p.withMeter name m).collections + (p.meter name).collections =
      p.collections + m.collections := by
  have former : ((p.meters.get? name).map Meter.collections).getD 0 = (p.meter name).collections := by
    rw [meter]
    cases p.meters.get? name <;> rfl
  have inserted := Keyed.sum_values_insert p.meters name m Meter.collections
  rw [former] at inserted
  exact inserted

theorem use_eq (p : Provider) (name : String) : p.use name = p.withMeter name (p.meter name) := by
  have same : (p.meters.upsert name fun m => m.getD .empty) =
      p.meters.insert name (p.meter name) := by
    refine Keyed.ext_get? fun name' => ?_
    by_cases at_ : name = name'
    · subst at_
      rw [Keyed.get?_upsert_self, Keyed.get?_insert_self, meter]
    · rw [Keyed.get?_upsert_of_ne _ _ at_, Keyed.get?_insert_of_ne _ _ at_]
  rw [use, same, withMeter]

theorem collections_use (p : Provider) (name : String) :
    (p.use name).collections = p.collections := by
  have inserted := p.collections_withMeter name (p.meter name)
  rw [use_eq]
  omega

/-- With a change of an instrument, its collections change. -/
theorem collections_modify (found : p.instrument? id = some i) (f : Instrument → Instrument) :
    (p.modify id f).collections + i.collections = p.collections + (f i).collections := by
  cases held : p.meters.get? id.meter with
  | none =>
    rw [instrument?, meter, held] at found
    cases found
  | some m =>
    have here : p.meter id.meter = m := by rw [meter, held, Option.getD_some]
    have registered : m.get? id.name = some i := here ▸ found
    have changed : m.modify id.name f = ⟨m.instruments.insert id.name (f i)⟩ :=
      congrArg Meter.mk (Keyed.modify_eq_insert registered f)
    have modified : p.modify id f =
        p.withMeter id.meter ⟨m.instruments.insert id.name (f i)⟩ := by
      rw [modify, Keyed.modify_eq_insert held, changed, withMeter]
    have outer := p.collections_withMeter id.meter ⟨m.instruments.insert id.name (f i)⟩
    have inner := Meter.collections_insert m id.name (f i)
    rw [registered, Option.map_some, Option.getD_some] at inner
    rw [modified]
    rw [here] at outer
    omega

theorem collections_record (p : Provider) (u : Update) :
    (p.record u).2.collections = p.collections := by
  unfold record
  cases found : p.instrument? u.instrument with
  | none => rfl
  | some i =>
    simp only [Instrument.record]
    split
    · rename_i j recorded
      split at recorded
      · cases recorded
        have changed := collections_modify found fun _ => i.recordChecked u.value u.labels
        have callback : (i.recordChecked u.value u.labels).collections = i.collections := by
          rw [Instrument.collections, Instrument.callback_recordChecked, Instrument.collections]
        have same : (p.modify u.instrument fun _ =>
            i.recordChecked u.value u.labels).collections = p.collections := by omega
        exact same
      · cases recorded
    · rfl

/-- A new instrument brings the collections of its script. -/
theorem collections_create (p : Provider) (tag meter : String) (d : Descriptor)
    (choice : Option Aggregation) (script : List (List Action)) :
    (p.create tag meter d choice script).2.collections ≤
      p.collections + scriptCollections script := by
  unfold create
  simp only [meter_use]
  have used := p.collections_use meter
  split
  · rename_i m registered
    have outer := (p.use meter).collections_withMeter meter m
    have inner := Meter.collections_register registered
    have brought : ((if d.kind.isSynchronous then none else
        some (Callback.ofScript tag script)).map Callback.collections).getD 0 ≤
          scriptCollections script := by
      split
      · exact Nat.zero_le _
      · exact Nat.le_refl _
    rw [meter_use] at outer
    change ((p.use meter).withMeter meter m).collections ≤ _
    omega
  · change (p.use meter).collections ≤ _
    omega

theorem collections_sweep (clock : Nat → Timestamp) (reading : Nat) (id : InstrumentId)
    (p : Provider) : (p.sweep clock reading id).2.collections = p.collections := by
  unfold sweep
  cases found : p.instrument? id with
  | none => rfl
  | some i =>
    have changed := collections_modify found fun _ => (i.sweep (clock reading)).2
    have callback : (i.sweep (clock reading)).2.collections = i.collections := rfl
    have same : (p.modify id fun _ => (i.sweep (clock reading)).2).collections = p.collections := by
      omega
    exact same

/-! ## Two bounds that are not reached -/

/-- Two kinds of collection do the same as long as less than `bound` collections are to come, and
leave no more of them to come. -/
def Agree (bound : Nat) (nested nested' : Collection) : Prop :=
  ∀ meter p, p.collections < bound → nested meter p = nested' meter p ∧
    (nested meter p).2.collections ≤ p.collections

variable {bound reading : Nat} {nested nested' : Collection}

/-- An action uses up the collections that it can lead to. -/
theorem Agree.act (agree : Agree bound nested nested') (owner : InstrumentId) (a : Action)
    (within : p.collections + a.collections ≤ bound) :
    p.act nested owner a = p.act nested' owner a ∧
      (p.act nested owner a).2.collections ≤ p.collections + a.collections := by
  cases a with
  | observe value labels => exact ⟨rfl, Nat.le_of_eq (p.collections_record _)⟩
  | update tag value labels =>
    refine ⟨rfl, ?_⟩
    simp only [Provider.act]
    split
    · exact Nat.le_of_eq (p.collections_record _)
    · exact Nat.le_refl _
  | create tag meter d choice script => exact ⟨rfl, p.collections_create tag meter d choice script⟩
  | collect meter =>
    obtain ⟨same, fewer⟩ := agree meter p within
    simp only [Provider.act]
    rw [← same]
    exact ⟨rfl, Nat.le_succ_of_le fewer⟩

theorem Agree.actAll (agree : Agree bound nested nested') (owner : InstrumentId)
    (actions : List Action) :
    ∀ {p : Provider}, p.collections + callCollections actions ≤ bound →
      p.actAll nested owner actions = p.actAll nested' owner actions ∧
        (p.actAll nested owner actions).2.collections ≤
          p.collections + callCollections actions := by
  induction actions with
  | nil => exact fun _ => ⟨rfl, Nat.le_refl _⟩
  | cons a rest ih =>
    intro p within
    have total : callCollections (a :: rest) = a.collections + callCollections rest := rfl
    obtain ⟨same, fewer⟩ := agree.act (p := p) owner a (by omega)
    obtain ⟨sameRest, fewerRest⟩ := ih (p := (p.act nested owner a).2) (by omega)
    simp only [Provider.actAll]
    rw [← same, ← sameRest]
    refine ⟨rfl, ?_⟩
    omega

/-- Calling a callback takes the collections of the call from those to come. -/
theorem Agree.runCallback (agree : Agree bound nested nested') (reading : Nat) (id : InstrumentId)
    (within : p.collections ≤ bound) :
    p.runCallback nested reading id = p.runCallback nested' reading id ∧
      (p.runCallback nested reading id).collections ≤ p.collections := by
  unfold Provider.runCallback
  cases found : p.instrument? id with
  | none => exact ⟨rfl, Nat.le_refl _⟩
  | some i =>
    cases called : i.callback with
    | none =>
      rw [Option.bind_some, called]
      exact ⟨rfl, Nat.le_refl _⟩
    | some c =>
      rw [Option.bind_some, called]
      have advanced := collections_modify found fun i => { i with callback := some c.next.2 }
      have before : i.collections = c.collections := by
        rw [Instrument.collections, called, Option.map_some, Option.getD_some]
      have after : Instrument.collections { i with callback := some c.next.2 } =
          c.next.2.collections := rfl
      have shared := c.collections_next
      obtain ⟨same, fewer⟩ := agree.actAll
        (p := p.modify id fun i => { i with callback := some c.next.2 }) id c.next.1 (by omega)
      simp only
      rw [← same]
      refine ⟨rfl, ?_⟩
      refine Nat.le_trans (Nat.le_of_eq (collections_of_meters rfl)) (Nat.le_trans fewer ?_)
      omega

theorem Agree.collectInstrument (agree : Agree bound nested nested') (clock : Nat → Timestamp)
    (reading : Nat) (id : InstrumentId) (within : p.collections ≤ bound) :
    p.collectInstrument clock nested reading id = p.collectInstrument clock nested' reading id ∧
      (p.collectInstrument clock nested reading id).2.collections ≤ p.collections := by
  unfold Provider.collectInstrument
  split
  · obtain ⟨same, fewer⟩ := agree.runCallback reading id within
    rw [← same]
    exact ⟨rfl, Nat.le_trans (Nat.le_of_eq (collections_sweep clock reading id _)) fewer⟩
  · exact ⟨rfl, Nat.le_refl _⟩

theorem Agree.collectEach (agree : Agree bound nested nested') (clock : Nat → Timestamp)
    (reading : Nat) (meter : String) (names : List String) :
    ∀ {p : Provider}, p.collections ≤ bound →
      p.collectEach clock nested reading meter names =
          p.collectEach clock nested' reading meter names ∧
        (p.collectEach clock nested reading meter names).2.collections ≤ p.collections := by
  induction names with
  | nil => exact fun _ => ⟨rfl, Nat.le_refl _⟩
  | cons name rest ih =>
    intro p within
    obtain ⟨same, fewer⟩ := agree.collectInstrument clock reading ⟨meter, name⟩ within
    obtain ⟨sameRest, fewerRest⟩ := ih (Nat.le_trans fewer within)
    simp only [Provider.collectEach]
    rw [← same, ← sameRest]
    exact ⟨rfl, Nat.le_trans fewerRest fewer⟩

theorem Agree.collectMeter (agree : Agree bound nested nested') (clock : Nat → Timestamp) :
    Agree (bound + 1) (collectMeter clock nested) (collectMeter clock nested') := by
  intro meter p within
  have used := p.collections_use meter
  have read : collections { p.use meter with readings := p.readings + 1 } = p.collections := used
  obtain ⟨same, fewer⟩ := agree.collectEach clock p.readings meter
    ((p.use meter).meter meter).names (p := { p.use meter with readings := p.readings + 1 })
    (by omega)
  exact ⟨same, Nat.le_trans fewer (Nat.le_of_eq read)⟩

/-- Bounds on the depth do not matter as long as fewer collections are to come. -/
theorem agree_collectWithin (clock : Nat → Timestamp) (bound : Nat) :
    ∀ {depth depth' : Nat}, bound ≤ depth → bound ≤ depth' →
      Agree bound (collectWithin clock depth) (collectWithin clock depth') := by
  induction bound with
  | zero => exact fun _ _ _ _ within => absurd within (Nat.not_lt_zero _)
  | succ bound ih =>
    intro depth depth' enough enough'
    obtain ⟨depth, rfl⟩ := Nat.exists_eq_succ_of_ne_zero (Nat.ne_zero_of_lt enough)
    obtain ⟨depth', rfl⟩ := Nat.exists_eq_succ_of_ne_zero (Nat.ne_zero_of_lt enough')
    exact (ih (Nat.le_of_succ_le_succ enough) (Nat.le_of_succ_le_succ enough')).collectMeter clock

/-- At every depth that leaves room for the collections to come, a collection is the same. -/
theorem collectWithin_eq_collect (clock : Nat → Timestamp) (meter : String) {depth : Nat}
    (enough : p.depth ≤ depth) : collectWithin clock depth meter p = p.collect clock meter :=
  (agree_collectWithin clock p.depth enough (Nat.le_refl _) meter p (Nat.lt_succ_self _)).1

/-- A collection in which the nested collections are collections. -/
theorem collect_eq (clock : Nat → Timestamp) (meter : String) (p : Provider) :
    p.collect clock meter = collectMeter clock (collect clock) meter p := by
  have nested : Agree p.collections (collectWithin clock p.collections) (collect clock) := by
    intro meter q within
    have enough : q.depth ≤ p.collections := within
    refine ⟨collectWithin_eq_collect clock meter enough, ?_⟩
    exact (agree_collectWithin clock p.collections (Nat.le_refl _) (Nat.le_refl _) meter q within).2
  exact (nested.collectMeter clock meter p (Nat.lt_succ_self _)).1

end Provider

end Metering
