import Metering.Proofs.Turn
import Metering.Proofs.Session
import Metering.Proofs.Provider.Readings

/-!
# Which series are registered

Only a sweep removes a series, it removes one only if no handle is on it, and it takes a record from
it first. A series that is registered later under the same labels has a later birth, so no handle
comes to refer to another series than its own.
-/

namespace Metering

namespace Instrument

variable {i j : Instrument} {l : String} {s : Series}

/-- What a sweep does not keep has no references and has been reported. -/
theorem keeps_or_reported_of_sweep (time : Timestamp) (found : i.series.get? l = some s) :
    (i.sweep time).2.series.get? l = some s.drained ∨
      s.refs = 0 ∧ (i.sweep time).2.series.get? l = none ∧
        i.recordOf time s ∈ (i.sweep time).1 := by
  have after := get?_sweep i time l
  rw [found, Option.filter_some] at after
  by_cases unused : s.refs = 0
  · rw [if_neg (by simpa using unused)] at after
    exact Or.inr ⟨unused, after, (i.mem_records_sweep_iff time _).2 ⟨l, s, found, rfl⟩⟩
  · rw [if_pos (by simpa using Nat.pos_of_ne_zero unused)] at after
    exact Or.inl after

/-- Whatever series there is under some labels, it was made later than `born`. -/
structure After (i : Instrument) (l : String) (born : Nat) : Prop where
  swept : born < i.sweeps
  later : ∀ s, i.series.get? l = some s → born < s.born

theorem After.keeps {born : Nat} (after : i.After l born) (keeps : i.Keeps j) :
    j.After l born where
  swept := keeps.sweeps ▸ after.swept
  later s' found := by
    cases before : i.series.get? l with
    | none =>
      rw [keeps.made l s' found before]
      exact after.swept
    | some s =>
      obtain ⟨s'', found', same⟩ := keeps.kept l s before
      rw [found] at found'
      cases found'
      rw [same]
      exact after.later s before

theorem After.sweep {born : Nat} (after : i.After l born) (time : Timestamp) :
    (i.sweep time).2.After l born where
  swept := Nat.lt_succ_of_lt after.swept
  later s found := by
    rw [get?_sweep] at found
    obtain ⟨s', kept, rfl⟩ := Option.map_eq_some_iff.1 found
    exact after.later s' (Option.filter_eq_some_iff.1 kept).1

/-- A turn keeps the series, or is a sweep. -/
theorem Turn.keeps_or_swept {clock : Nat → Timestamp} {meters : String → Prop} {raw : Prop}
    {id : InstrumentId} {e : Option Event} (turn : i.Turn clock meters raw id j e) :
    i.Keeps j ∨ ∃ reading, j = (i.sweep (clock reading)).2 ∧
      e = some (.swept reading id (i.sweep (clock reading)).1) := by
  cases turn with
  | kept keeps _ => exact Or.inl keeps
  | used _ keeps => exact Or.inl keeps
  | accepted _ _ _ keeps _ _ => exact Or.inl keeps
  | swept reading _ _ => exact Or.inr ⟨reading, rfl, rfl⟩

end Instrument

namespace Client

variable {clock : Nat → Timestamp} {meters : String → Prop} {raw : Prop} {c c' c'' : Client}
  {id : InstrumentId} {i : Instrument} {l : String} {s : Series}

theorem Linked.after {born : Nat} (linked : c.Linked) (reach : Reach clock meters raw c c')
    (found : c.provider.instrument? id = some i) (after : i.After l born) :
    ∃ j, c'.provider.instrument? id = some j ∧ j.After l born := by
  induction reach with
  | refl => exact ⟨i, found, after⟩
  | tail earlier step ih =>
    obtain ⟨j, present, later⟩ := ih
    obtain ⟨k, e, present', turn, -⟩ := ((linked.reach earlier).move step).turn present
    rcases turn.keeps_or_swept with keeps | ⟨reading, rfl, -⟩
    · exact ⟨k, present', later.keeps keeps⟩
    · exact ⟨_, present', later.sweep _⟩

/-- A step keeps a series, or is a sweep that finds no handle on it and reports it. What is later
registered under its labels is not that series. -/
theorem Linked.keeps_or_reported (linked : c.Linked) (step : Step clock meters raw c c')
    (found : c.provider.series? id l = some s) :
    (∃ s', c'.provider.series? id l = some s' ∧ s'.born = s.born) ∨
      holders c.handles id l = 0 ∧
      (∃ i reading records, c.provider.instrument? id = some i ∧
        c'.provider.notes id = .swept reading id records :: c.provider.notes id ∧
        i.recordOf (clock reading) s ∈ records) ∧
      ∀ c'', Reach clock meters raw c' c'' →
        ∀ s', c''.provider.series? id l = some s' → s.born < s'.born := by
  obtain ⟨i, present, registered⟩ := Provider.series?_eq_some_iff.1 found
  have links := linked.linked id i present
  obtain ⟨j, e, present', turn, noted⟩ := (linked.move step).turn present
  rcases turn.keeps_or_swept with keeps | ⟨reading, rfl, rfl⟩
  · obtain ⟨s', kept, born⟩ := keeps.kept l s registered
    exact Or.inl ⟨s', Provider.series?_eq_some_iff.2 ⟨j, present', kept⟩, born⟩
  · rcases Instrument.keeps_or_reported_of_sweep (clock reading) registered with
      kept | ⟨unused, gone, reported⟩
    · exact Or.inl ⟨_, Provider.series?_eq_some_iff.2 ⟨_, present', kept⟩, rfl⟩
    · refine Or.inr ⟨(links.refs l s registered).symm.trans unused,
        ⟨i, reading, _, present, noted, reported⟩, fun c'' reach s' found' => ?_⟩
      have after : (i.sweep (clock reading)).2.After l s.born :=
        ⟨Nat.lt_succ_of_le (links.born l s registered), fun s' found' => by
          rw [gone] at found'
          cases found'⟩
      obtain ⟨k, presentLater, later⟩ := (linked.step step).after reach present' after
      obtain ⟨k', presentLater', registeredLater⟩ := Provider.series?_eq_some_iff.1 found'
      rw [presentLater] at presentLater'
      cases presentLater'
      exact later.later s' registeredLater

end Client

/-! ## Sessions -/

/-- Whatever a session did, and at every moment of what it does next: each handle refers to the
series that is registered under its labels, and handles on the same labels of an instrument to the
same one; a series has as many references as there are handles on it; and a step removes a series
only if it is a sweep that finds no handle on it and takes a record from it, which the collection
with the sweep's reading returns. -/
theorem Session.handle_series_registered (clock : Nat → Timestamp) (ops : List Operation)
    (c : Client)
    (reach : Client.Reach clock (fun _ => True) True (Session.empty.run clock ops).2.client c) :
    (∀ h ∈ c.handles, ∃ s, c.provider.seriesOf? h = some s ∧
      c.provider.series? h.instrument h.labels = some s ∧ s.labels.canonical = h.labels) ∧
    (∀ id l s, c.provider.series? id l = some s → s.refs = holders c.handles id l) ∧
    (∀ h ∈ c.handles, ∀ h' ∈ c.handles, h.instrument = h'.instrument → h.labels = h'.labels →
      h = h') ∧
    (∀ c', Client.Step clock (fun _ => True) True c c' →
      ∀ id l s, c.provider.series? id l = some s →
        (∃ s', c'.provider.series? id l = some s' ∧ s'.born = s.born) ∨
        holders c.handles id l = 0 ∧
        (∃ i reading records, c.provider.instrument? id = some i ∧
          c'.provider.notes id = .swept reading id records :: c.provider.notes id ∧
          i.recordOf (clock reading) s ∈ records) ∧
        ∀ c'', Client.Reach clock (fun _ => True) True c' c'' →
          ∀ s', c''.provider.series? id l = some s' → s.born < s'.born) ∧
    (∀ depth meter, c.provider.Takes meter c.provider.readings
      (Provider.collectWithin clock depth meter c.provider).1
      (Provider.collectWithin clock depth meter c.provider).2) := by
  have linked : c.Linked :=
    (Client.linked_empty.reach (Session.empty.reach_run_all ops)).reach reach
  have registered : ∀ h ∈ c.handles, ∃ i s, c.provider.instrument? h.instrument = some i ∧
      i.series.get? h.labels = some s ∧ s.born = h.born := by
    intro h held
    obtain ⟨i, s, found, present⟩ := linked.series held
    exact ⟨i, s, found, Instrument.seriesOf?_eq_some_iff.1 present⟩
  refine ⟨fun h held => ?_, fun id l s found => ?_, fun h held h' held' ids labels => ?_,
    fun c' step id l s found => linked.keeps_or_reported step found,
    fun depth meter => Provider.exact_collectWithin clock depth meter c.provider⟩
  · obtain ⟨i, s, found, present, born⟩ := registered h held
    refine ⟨s, ?_, Provider.series?_eq_some_iff.2 ⟨i, found, present⟩,
      (linked.linked _ i found).labels _ s present⟩
    rw [Provider.seriesOf?_of_some found]
    exact Instrument.seriesOf?_eq_some_iff.2 ⟨present, born⟩
  · obtain ⟨i, present, registered⟩ := Provider.series?_eq_some_iff.1 found
    exact (linked.linked id i present).refs l s registered
  · obtain ⟨i, s, found, present, born⟩ := registered h held
    obtain ⟨i', s', found', present', born'⟩ := registered h' held'
    rw [← ids, found] at found'
    cases found'
    rw [← labels, present] at present'
    cases present'
    obtain ⟨id, l, b⟩ := h
    obtain ⟨id', l', b'⟩ := h'
    simp only at ids labels born born'
    rw [ids, labels, ← born, ← born']

/-- A counter whose series was bound, cloned and collected keeps it for the one handle left. -/
theorem Session.bound_series_registered :
    let c := (Session.empty.run (fun _ => default)
      [.create "c" "m" ⟨"hits", "", "", .counter, .int64, true⟩ none [], .bind "c" .empty "h",
        .clone "h" "g", .boundUpdate "h" (.integer 5), .release "g", .collect "m" none]).2.client
    c.handles = [⟨⟨"m", "hits"⟩, "", 0⟩] ∧
      ∃ s, c.provider.series? ⟨"m", "hits"⟩ "" = some s ∧ s.refs = 1 := by
  intro c
  have handles : c.handles = [⟨⟨"m", "hits"⟩, "", 0⟩] := by decide +kernel
  obtain ⟨registered, counted, -⟩ := Session.handle_series_registered (fun _ => default)
    [.create "c" "m" ⟨"hits", "", "", .counter, .int64, true⟩ none [], .bind "c" .empty "h",
      .clone "h" "g", .boundUpdate "h" (.integer 5), .release "g", .collect "m" none] c .refl
  obtain ⟨s, -, found, -⟩ := registered ⟨⟨"m", "hits"⟩, "", 0⟩ (by rw [handles]; decide)
  refine ⟨handles, s, found, ?_⟩
  rw [counted _ _ s found, handles]
  decide

end Metering
