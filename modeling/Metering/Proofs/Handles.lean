import Metering.Proofs.Client

/-!
# Handles and the series they refer to

An instrument drops series that nothing refers to, so its handles stay good only because the number
of references of each series is the number of handles on it. `Instrument.Linked` says so of one
instrument; each operation keeps it, and `Client.Linked` follows every step of a program.
-/

namespace Metering

/-- How many of some handles are on the series of some labels. -/
def holders (hs : List Handle) (id : InstrumentId) (l : String) : Nat :=
  hs.countP fun h => h.instrument = id ∧ h.labels = l

section Holders

variable {hs : List Handle} {h : Handle} {id : InstrumentId} {l : String}

theorem holders_cons_self (hs : List Handle) (h : Handle) :
    holders (h :: hs) h.instrument h.labels = holders hs h.instrument h.labels + 1 := by
  rw [holders, List.countP_cons_of_pos (by simp)]
  rfl

theorem holders_cons_of_ne (hs : List Handle) (other : ¬ (h.instrument = id ∧ h.labels = l)) :
    holders (h :: hs) id l = holders hs id l := by
  rw [holders, List.countP_cons_of_neg (by simpa using other)]
  rfl

theorem holders_pos (held : h ∈ hs) : 0 < holders hs h.instrument h.labels :=
  List.countP_pos_iff.2 ⟨h, held, by simp⟩

theorem exists_of_holders_pos (some_ : 0 < holders hs id l) :
    ∃ h ∈ hs, h.instrument = id ∧ h.labels = l := by
  obtain ⟨h, held, on⟩ := List.countP_pos_iff.1 some_
  exact ⟨h, held, by simpa using on⟩

theorem holders_perm {hs' : List Handle} (perm : hs.Perm hs') : holders hs id l = holders hs' id l :=
  perm.countP_eq _

end Holders

/-! ## One instrument -/

/-- The handles on an instrument and its series belong together: each handle refers to a series
that is registered, and each series counts the handles on it. -/
structure Instrument.Linked (i : Instrument) (id : InstrumentId) (hs : List Handle) : Prop where
  held : ∀ h ∈ hs, h.instrument = id → ∃ s, i.seriesOf? h = some s
  refs : ∀ l s, i.series.get? l = some s → s.refs = holders hs id l
  labels : ∀ l s, i.series.get? l = some s → s.labels.canonical = l
  born : ∀ l s, i.series.get? l = some s → s.born ≤ i.sweeps

namespace Instrument.Linked

variable {i : Instrument} {id : InstrumentId} {hs hs' : List Handle} {h : Handle} {s : Series}

theorem new (d : Descriptor) (a : Aggregation) (callback : Option Callback)
    (unused : ∀ h ∈ hs, h.instrument ≠ id) : (Instrument.new d a callback).Linked id hs where
  held h held on := absurd on (unused h held)
  refs _ _ found := nomatch found
  labels _ _ found := nomatch found
  born _ _ found := nomatch found

/-- Handles on other instruments make no difference. -/
theorem cons_of_ne (linked : i.Linked id hs) (other : h.instrument ≠ id) : i.Linked id (h :: hs) where
  held h' held on := by
    rcases List.mem_cons.1 held with rfl | held
    · exact absurd on other
    · exact linked.held h' held on
  refs l s found := by
    rw [holders_cons_of_ne hs fun on => other on.1]
    exact linked.refs l s found
  labels := linked.labels
  born := linked.born

theorem of_cons_of_ne (linked : i.Linked id (h :: hs)) (other : h.instrument ≠ id) :
    i.Linked id hs where
  held h' held on := linked.held h' (List.mem_cons_of_mem _ held) on
  refs l s found := by
    rw [← holders_cons_of_ne hs fun on => other on.1]
    exact linked.refs l s found
  labels := linked.labels
  born := linked.born

theorem perm (linked : i.Linked id hs) (perm : hs.Perm hs') : i.Linked id hs' where
  held h held on := linked.held h (perm.mem_iff.2 held) on
  refs l s found := (linked.refs l s found).trans (holders_perm perm)
  labels := linked.labels
  born := linked.born

/-- Labels under which nothing is registered have no handles. -/
theorem holders_eq_zero (linked : i.Linked id hs) {l : String} (absent : i.series.get? l = none) :
    holders hs id l = 0 := by
  refine Nat.eq_zero_of_not_pos fun some_ => ?_
  obtain ⟨h, held, on, rfl⟩ := exists_of_holders_pos some_
  obtain ⟨s, found⟩ := linked.held h held on
  rw [(seriesOf?_eq_some_iff.1 found).1] at absent
  cases absent

theorem refs_seriesFor (linked : i.Linked id hs) (labels : LabelSet) :
    (i.seriesFor labels).refs = holders hs id labels.canonical := by
  cases found : i.series.get? labels.canonical with
  | none => rw [seriesFor_of_none found, linked.holders_eq_zero found]; rfl
  | some s => rw [seriesFor_of_some found, linked.refs _ s found]

theorem labels_seriesFor (linked : i.Linked id hs) (labels : LabelSet) :
    (i.seriesFor labels).labels.canonical = labels.canonical := by
  cases found : i.series.get? labels.canonical with
  | none => rw [seriesFor_of_none found]; rfl
  | some s => rw [seriesFor_of_some found, linked.labels _ s found]

theorem born_seriesFor (linked : i.Linked id hs) (labels : LabelSet) :
    (i.seriesFor labels).born ≤ i.sweeps := by
  cases found : i.series.get? labels.canonical with
  | none => rw [seriesFor_of_none found]; exact Nat.le_refl _
  | some s => rw [seriesFor_of_some found]; exact linked.born _ s found

/-- Putting a series under some labels keeps the links, if it has the references and the birth that
the handles on it expect. -/
theorem put {j : Instrument} (linked : i.Linked id hs) (sweeps : j.sweeps = i.sweeps)
    (l : String) (self : j.series.get? l = some s)
    (other : ∀ l', l ≠ l' → j.series.get? l' = i.series.get? l')
    (refs : s.refs = holders hs' id l) (labels : s.labels.canonical = l) (born : s.born ≤ i.sweeps)
    (counts : ∀ l', l ≠ l' → holders hs' id l' = holders hs id l')
    (handles : ∀ h ∈ hs', h.instrument = id → (h.labels = l → h.born = s.born) ∧
      (h.labels ≠ l → h ∈ hs)) : j.Linked id hs' where
  held h held on := by
    obtain ⟨same, elsewhere⟩ := handles h held on
    by_cases at_ : h.labels = l
    · exact ⟨s, seriesOf?_eq_some_iff.2 ⟨at_ ▸ self, (same at_).symm⟩⟩
    · obtain ⟨s', found⟩ := linked.held h (elsewhere at_) on
      obtain ⟨present, bornAt⟩ := seriesOf?_eq_some_iff.1 found
      exact ⟨s', seriesOf?_eq_some_iff.2 ⟨(other _ (Ne.symm at_)).trans present, bornAt⟩⟩
  refs l' s' found := by
    by_cases at_ : l = l'
    · subst at_
      rw [self] at found
      cases found
      exact refs
    · rw [other l' at_] at found
      rw [counts l' at_]
      exact linked.refs l' s' found
  labels l' s' found := by
    by_cases at_ : l = l'
    · subst at_
      rw [self] at found
      cases found
      exact labels
    · rw [other l' at_] at found
      exact linked.labels l' s' found
  born l' s' found := by
    rw [sweeps]
    by_cases at_ : l = l'
    · subst at_
      rw [self] at found
      cases found
      exact born
    · rw [other l' at_] at found
      exact linked.born l' s' found

/-- The handles on the series of some labels were made when that series was. -/
theorem born_of_held (linked : i.Linked id hs) (held : h ∈ hs) (on : h.instrument = id)
    (labels : LabelSet) (at_ : h.labels = labels.canonical) :
    h.born = (i.seriesFor labels).born := by
  obtain ⟨s, found⟩ := linked.held h held on
  obtain ⟨present, born⟩ := seriesOf?_eq_some_iff.1 found
  rw [at_] at present
  rw [seriesFor_of_some present, born]

theorem bind (linked : i.Linked id hs) (labels : LabelSet) :
    (i.bind labels).Linked id (⟨id, labels.canonical, (i.seriesFor labels).born⟩ :: hs) := by
  refine linked.put rfl labels.canonical (get?_bind_self i labels)
    (fun l' other => get?_bind_of_ne i labels other) ?_ (linked.labels_seriesFor labels)
    (linked.born_seriesFor labels) (fun l' other => ?_) fun h held on => ⟨fun at_ => ?_, fun at_ => ?_⟩
  · have counted := holders_cons_self hs ⟨id, labels.canonical, (i.seriesFor labels).born⟩
    rw [counted, ← linked.refs_seriesFor labels]
    rfl
  · exact holders_cons_of_ne hs fun on => other on.2
  · rcases List.mem_cons.1 held with rfl | held
    · rfl
    · exact linked.born_of_held held on labels at_
  · rcases List.mem_cons.1 held with rfl | held
    · exact absurd rfl at_
    · exact held

theorem recordChecked (linked : i.Linked id hs) (value : Number) (labels : LabelSet) :
    (i.recordChecked value labels).Linked id hs := by
  cases enabled : i.descriptor.enabled with
  | false =>
    rw [recordChecked_of_disabled enabled]
    exact linked
  | true =>
    exact linked.put (by simp) labels.canonical (get?_recordChecked_self enabled value labels)
      (fun l' other => get?_recordChecked_of_ne i value other) (linked.refs_seriesFor labels)
      (linked.labels_seriesFor labels) (linked.born_seriesFor labels) (fun _ _ => rfl)
      fun h held on => ⟨linked.born_of_held held on labels, fun _ => held⟩

/-- Changing the series of a handle keeps the links, if the handles change with its references. -/
theorem modifyHeld (linked : i.Linked id hs) (found : i.seriesOf? h = some s) {f : Series → Series}
    (labels : (f s).labels = s.labels) (born : (f s).born = s.born)
    (refs : (f s).refs = holders hs' id h.labels)
    (counts : ∀ l', h.labels ≠ l' → holders hs' id l' = holders hs id l')
    (handles : ∀ h' ∈ hs', h' = h ∨ h' ∈ hs) : (i.modifyHeld h f).Linked id hs' := by
  obtain ⟨present, bornAt⟩ := seriesOf?_eq_some_iff.1 found
  refine linked.put rfl h.labels (get?_modifyHeld_self found f)
    (fun l' other => get?_modifyHeld_of_ne i f other) refs
    ((congrArg LabelSet.canonical labels).trans (linked.labels _ s present))
    (born ▸ linked.born _ s present) counts fun h' held on => ⟨fun at_ => ?_, fun at_ => ?_⟩
  · rw [born]
    rcases handles h' held with rfl | held
    · exact bornAt.symm
    · obtain ⟨s', found'⟩ := linked.held h' held on
      obtain ⟨present', bornAt'⟩ := seriesOf?_eq_some_iff.1 found'
      rw [at_, present] at present'
      cases present'
      exact bornAt'.symm
  · rcases handles h' held with rfl | held
    · exact absurd rfl at_
    · exact held

/-- A series with handles on it has references, so a sweep keeps it. -/
theorem sweep (linked : i.Linked id hs) (time : Timestamp) : (i.sweep time).2.Linked id hs where
  held h held on := by
    obtain ⟨s, found⟩ := linked.held h held on
    obtain ⟨present, born⟩ := seriesOf?_eq_some_iff.1 found
    have counted : 0 < s.refs := by
      rw [linked.refs _ s present, ← on]
      exact holders_pos held
    refine ⟨s.drained, seriesOf?_eq_some_iff.2 ⟨?_, born⟩⟩
    rw [get?_sweep, present, Option.filter_some, if_pos (by simpa using counted), Option.map_some]
  refs l s found := by
    rw [get?_sweep] at found
    obtain ⟨s', kept, rfl⟩ := Option.map_eq_some_iff.1 found
    exact linked.refs l s' (Option.filter_eq_some_iff.1 kept).1
  labels l s found := by
    rw [get?_sweep] at found
    obtain ⟨s', kept, rfl⟩ := Option.map_eq_some_iff.1 found
    exact linked.labels l s' (Option.filter_eq_some_iff.1 kept).1
  born l s found := by
    rw [get?_sweep] at found
    obtain ⟨s', kept, rfl⟩ := Option.map_eq_some_iff.1 found
    exact Nat.le_succ_of_le (linked.born l s' (Option.filter_eq_some_iff.1 kept).1)

end Instrument.Linked

/-! ## A client -/

namespace Client

variable {clock : Nat → Timestamp} {meters : String → Prop} {raw : Prop} {c c' : Client}
  {p q : Provider} {hs hs' : List Handle} {id : InstrumentId} {i : Instrument}

/-- The handles of a program and the series of the provider belong together. -/
structure Linked (c : Client) : Prop where
  known : ∀ h ∈ c.handles, ∃ i, c.provider.instrument? h.instrument = some i
  linked : ∀ id i, c.provider.instrument? id = some i → i.Linked id c.handles

theorem linked_empty : Linked ⟨.empty, []⟩ where
  known _ held := nomatch held
  linked _ _ found := nomatch found

/-- A change of one instrument keeps the links, if it keeps those of the instrument and concerns
no handles on others. -/
theorem Linked.put (linked : Linked ⟨p, hs⟩) (puts : p.Puts q id i) (self : i.Linked id hs')
    (others : ∀ id' (j : Instrument), id' ≠ id → j.Linked id' hs → j.Linked id' hs')
    (known : ∀ h ∈ hs', h.instrument = id ∨ h ∈ hs) : Linked ⟨q, hs'⟩ where
  known h held := by
    by_cases at_ : h.instrument = id
    · exact ⟨i, at_ ▸ puts.self⟩
    · rcases known h held with on | held
      · exact absurd on at_
      · obtain ⟨j, found⟩ := linked.known h held
        exact ⟨j, (puts.other at_).trans found⟩
  linked id' j found := by
    by_cases at_ : id' = id
    · subst at_
      rw [puts.self] at found
      cases found
      exact self
    · rw [puts.other at_] at found
      exact others id' j at_ (linked.linked id' j found)

theorem Linked.put_same (linked : Linked ⟨p, hs⟩) (puts : p.Puts q id i) (self : i.Linked id hs) :
    Linked ⟨q, hs⟩ :=
  linked.put puts self (fun _ _ _ other => other) fun _ held => Or.inr held

/-- No step of a collection and no one-shot update breaks a link. -/
theorem Linked.change (linked : Linked ⟨p, hs⟩) (change : p.Change clock meters q) :
    Linked ⟨q, hs⟩ := by
  cases change with
  | same instruments _ =>
    exact ⟨fun h held => instruments ▸ linked.known h held,
      fun id i found => linked.linked id i (instruments ▸ found)⟩
  | created meter d choice callback _ _ free puts _ =>
    refine linked.put_same puts (.new d _ callback fun h held on => ?_)
    obtain ⟨i, found⟩ := linked.known h held
    rw [on, free] at found
    cases found
  | advanced id i c found _ puts _ =>
    obtain ⟨held, refs, labels, born⟩ := linked.linked id i found
    exact linked.put_same puts ⟨held, refs, labels, born⟩
  | accepted id i value labels found _ puts _ =>
    exact linked.put_same puts ((linked.linked id i found).recordChecked value labels)
  | swept reading id i found _ _ puts _ =>
    exact linked.put_same puts ((linked.linked id i found).sweep (clock reading))

/-- The series of a handle, with the instrument that has it. -/
theorem Linked.series (linked : Linked ⟨p, hs⟩) {h : Handle} (held : h ∈ hs) :
    ∃ i s, p.instrument? h.instrument = some i ∧ i.seriesOf? h = some s := by
  obtain ⟨i, found⟩ := linked.known h held
  obtain ⟨s, present⟩ := (linked.linked _ i found).held h held rfl
  exact ⟨i, s, found, present⟩

/-- Changing the series of a handle keeps the links, if it keeps the references. -/
theorem Linked.modifyHeld (linked : Linked ⟨p, hs⟩) {h : Handle} (held : h ∈ hs)
    {f : Series → Series} (labels : ∀ s, (f s).labels = s.labels)
    (born : ∀ s, (f s).born = s.born) (refs : ∀ s, (f s).refs = s.refs) :
    Linked ⟨p.modifyHeld h f, hs⟩ := by
  obtain ⟨i, s, found, present⟩ := linked.series held
  have self := linked.linked _ i found
  refine linked.put_same (Provider.puts_modify found fun i => i.modifyHeld h f) ?_
  exact self.modifyHeld present (labels s) (born s)
    ((refs s).trans (self.refs _ s (Instrument.seriesOf?_eq_some_iff.1 present).1))
    (fun _ _ => rfl) fun _ held => Or.inr held

theorem Linked.retain (linked : Linked ⟨p, hs⟩) {h : Handle} (held : h ∈ hs) :
    Linked ⟨p.retain h, h :: hs⟩ := by
  obtain ⟨i, s, found, present⟩ := linked.series held
  have self := linked.linked _ i found
  refine linked.put (Provider.puts_modify found fun i => i.modifyHeld h Series.retain) ?_
    (fun id' j other at_ => at_.cons_of_ne (Ne.symm other)) fun h' held => ?_
  · refine self.modifyHeld present rfl rfl ?_ (fun l' other => holders_cons_of_ne hs fun on =>
      other on.2) fun h' held => List.mem_cons.1 held
    rw [holders_cons_self, ← self.refs _ s (Instrument.seriesOf?_eq_some_iff.1 present).1]
    rfl
  · rcases List.mem_cons.1 held with rfl | held
    · exact Or.inl rfl
    · exact Or.inr held

/-- A handle that is released gives back a reference that the series has. -/
theorem Linked.release {h : Handle} (linked : Linked ⟨p, h :: hs⟩) :
    Linked ⟨p.release h, hs⟩ := by
  obtain ⟨i, s, found, present⟩ := linked.series List.mem_cons_self
  have self := linked.linked _ i found
  refine linked.put (Provider.puts_modify found fun i => i.modifyHeld h Series.release) ?_
    (fun id' j other at_ => at_.of_cons_of_ne (Ne.symm other))
    fun h' held => Or.inr (List.mem_cons_of_mem _ held)
  refine self.modifyHeld present rfl rfl ?_ (fun l' other => (holders_cons_of_ne hs fun on =>
    other on.2).symm) fun h' held => Or.inr (List.mem_cons_of_mem _ held)
  have counted := self.refs _ s (Instrument.seriesOf?_eq_some_iff.1 present).1
  rw [holders_cons_self] at counted
  rw [Series.release, counted, Nat.add_sub_cancel]

theorem Linked.update (linked : Linked ⟨p, hs⟩) {h : Handle} (held : h ∈ hs) (value : Number) :
    Linked ⟨(p.recordHeld h value).2, hs⟩ := by
  rcases p.recordHeld_spec h value with ⟨e, refused⟩ | ⟨i, found, _, _, puts, _⟩
  · rw [refused]
    exact linked
  · have self := linked.linked _ i found
    refine linked.put_same puts ?_
    split
    · obtain ⟨s, present⟩ := self.held h held rfl
      exact self.modifyHeld present rfl rfl
        (self.refs _ s (Instrument.seriesOf?_eq_some_iff.1 present).1) (fun _ _ => rfl)
        fun _ held => Or.inr held
    · exact self

theorem Linked.step (linked : c.Linked) (step : Step clock meters raw c c') : c'.Linked := by
  cases step with
  | provider step => exact linked.change step.change
  | tag tag id => exact ⟨linked.known, linked.linked⟩
  | @bind p hs id i labels found =>
    rw [Provider.bind_of_some found]
    refine linked.put (Provider.puts_modify found fun i => i.bind labels)
      ((linked.linked id i found).bind labels) (fun id' j other at_ => at_.cons_of_ne (Ne.symm other))
      fun h held => ?_
    rcases List.mem_cons.1 held with rfl | held
    · exact Or.inl rfl
    · exact Or.inr held
  | clone held => exact linked.retain held
  | release h => exact linked.release
  | update value held => exact linked.update held value
  | raw _ held _ _ => exact linked.modifyHeld held (fun _ => rfl) (fun _ => rfl) fun _ => rfl
  | order perm =>
    exact ⟨fun h held => linked.known h (perm.mem_iff.2 held),
      fun id i found => (linked.linked id i found).perm perm⟩

theorem Linked.reach (linked : c.Linked) (reach : Reach clock meters raw c c') : c'.Linked := by
  induction reach with
  | refl => exact linked
  | tail _ step ih => exact ih.step step

end Client

end Metering
