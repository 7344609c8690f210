import Metering.Labels
import Metering.Proofs.Provider.View

/-!
# Canonical texts of labels

A canonical text can be read back: the backslash of an escape is special itself, so a special
character that stands alone ends the key or value before it. Two label sets therefore share a
canonical text only if they are the same map, and as series are found by canonical texts, they
reach the same series only then. What a map has of the pairs that it was made of is the last value
of each key.
-/

namespace Metering

namespace LabelSet

variable {rest rest' : List Char} {c : Char} {pair pair' : String × String}

/-! ## Reading a canonical text -/

theorem isSpecial_backslash : isSpecial '\\' = true := by decide

theorem isSpecial_colon : isSpecial ':' = true := by decide

theorem isSpecial_comma : isSpecial ',' = true := by decide

theorem escape_cons_of_special (special : isSpecial c = true) (s : List Char) :
    escape (c :: s) = '\\' :: c :: escape s := by
  rw [escape, if_pos special]

theorem escape_cons_of_plain (plain : ¬ isSpecial c = true) (s : List Char) :
    escape (c :: s) = c :: escape s := by
  rw [escape, if_neg plain]

/-- What is escaped does not begin as the separator that ends it. -/
theorem escape_cons_append_ne {e : Char} (special : isSpecial e = true) (other : e ≠ '\\')
    (s : List Char) : escape (c :: s) ++ rest ≠ e :: rest' := by
  intro same
  by_cases at_ : isSpecial c = true
  · rw [escape_cons_of_special at_] at same
    exact other (List.cons.inj same).1.symm
  · rw [escape_cons_of_plain at_] at same
    exact at_ ((List.cons.inj same).1 ▸ special)

/-- What is escaped ends at the first separator that stands alone. -/
theorem escape_append_inj {e : Char} (special : isSpecial e = true) (other : e ≠ '\\') :
    ∀ {s t : List Char}, escape s ++ e :: rest = escape t ++ e :: rest' → s = t ∧ rest = rest' := by
  intro s
  induction s with
  | nil =>
    intro t same
    cases t with
    | nil => exact ⟨rfl, (List.cons.inj same).2⟩
    | cons d t => exact absurd same.symm (escape_cons_append_ne special other t)
  | cons c s ih =>
    intro t same
    cases t with
    | nil => exact absurd same (escape_cons_append_ne special other s)
    | cons d t =>
      by_cases left : isSpecial c = true
      · by_cases right : isSpecial d = true
        · rw [escape_cons_of_special left, escape_cons_of_special right] at same
          obtain ⟨-, after⟩ := List.cons.inj same
          obtain ⟨rfl, tails⟩ := List.cons.inj after
          obtain ⟨rfl, ends⟩ := ih tails
          exact ⟨rfl, ends⟩
        · rw [escape_cons_of_special left, escape_cons_of_plain right] at same
          exact absurd ((List.cons.inj same).1 ▸ isSpecial_backslash) right
      · by_cases right : isSpecial d = true
        · rw [escape_cons_of_plain left, escape_cons_of_special right] at same
          exact absurd ((List.cons.inj same).1 ▸ isSpecial_backslash) left
        · rw [escape_cons_of_plain left, escape_cons_of_plain right] at same
          obtain ⟨rfl, tails⟩ := List.cons.inj same
          obtain ⟨rfl, ends⟩ := ih tails
          exact ⟨rfl, ends⟩

theorem canonicalPair_append (pair : String × String) (rest : List Char) :
    canonicalPair pair ++ rest =
      escape pair.1.toList ++ ':' :: (escape pair.2.toList ++ ',' :: rest) := by
  simp only [canonicalPair, List.append_assoc, List.cons_append, List.nil_append]

theorem canonicalPair_append_ne_nil (pair : String × String) (rest : List Char) :
    canonicalPair pair ++ rest ≠ [] := by
  rw [canonicalPair_append]
  exact List.append_ne_nil_of_right_ne_nil _ (List.cons_ne_nil _ _)

/-- A label can be read off the front of a canonical text. -/
theorem canonicalPair_append_inj
    (same : canonicalPair pair ++ rest = canonicalPair pair' ++ rest') :
    pair = pair' ∧ rest = rest' := by
  rw [canonicalPair_append, canonicalPair_append] at same
  obtain ⟨keys, after⟩ := escape_append_inj isSpecial_colon (by decide) same
  obtain ⟨values, ends⟩ := escape_append_inj isSpecial_comma (by decide) after
  exact ⟨Prod.ext (String.toList_inj.1 keys) (String.toList_inj.1 values), ends⟩

theorem flatMap_canonicalPair_inj : ∀ {ps qs : List (String × String)},
    ps.flatMap canonicalPair = qs.flatMap canonicalPair → ps = qs := by
  intro ps
  induction ps with
  | nil =>
    intro qs same
    cases qs with
    | nil => rfl
    | cons q qs => exact absurd same.symm (canonicalPair_append_ne_nil q _)
  | cons p ps ih =>
    intro qs same
    cases qs with
    | nil => exact absurd same (canonicalPair_append_ne_nil p _)
    | cons q qs =>
      rw [List.flatMap_cons, List.flatMap_cons] at same
      obtain ⟨rfl, others⟩ := canonicalPair_append_inj same
      rw [ih others]

/-- A canonical text stands for one label set. -/
theorem canonical_inj {l l' : LabelSet} : l.canonical = l'.canonical ↔ l = l' := by
  refine ⟨fun same => ?_, congrArg canonical⟩
  obtain ⟨⟨entries, ascending⟩⟩ := l
  obtain ⟨⟨entries', ascending'⟩⟩ := l'
  obtain rfl : entries = entries' := flatMap_canonicalPair_inj (String.ofList_injective same)
  rfl

theorem eq_iff_get? {l l' : LabelSet} : l = l' ↔ ∀ key, l.get? key = l'.get? key := by
  refine ⟨fun same _ => by rw [same], fun same => ?_⟩
  obtain ⟨pairs⟩ := l
  obtain ⟨pairs'⟩ := l'
  exact congrArg mk (Keyed.ext_get? same)

/-! ## The last values -/

/-- The value that is given to a key last. -/
def lastValue (pairs : List (String × String)) (key : String) : Option String :=
  (pairs.filter fun pair => pair.1 = key).getLast?.map Prod.snd

theorem get?_ofList (pairs : List (String × String)) (key : String) :
    (ofList pairs).get? key = lastValue pairs key :=
  Keyed.get?_ofList pairs key

/-- Labels are among the pairs that they are made of. -/
theorem mem_of_mem_ofList {pairs : List (String × String)} (member : pair ∈ (ofList pairs).toList) :
    pair ∈ pairs := by
  have found : (ofList pairs).get? pair.1 = some pair.2 := (Keyed.mem_entries_iff ..).1 member
  rw [get?_ofList, lastValue] at found
  obtain ⟨last, ends, value⟩ := Option.map_eq_some_iff.1 found
  obtain ⟨among, key⟩ := List.mem_filter.1 (List.mem_of_getLast? ends)
  rw [← Prod.ext (of_decide_eq_true key) value]
  exact among

/-! ## Characters -/

theorem mem_escape {s : List Char} (member : c ∈ escape s) : c = '\\' ∨ c ∈ s := by
  induction s with
  | nil => cases member
  | cons d s ih =>
    have deeper : c ∈ escape s → c = '\\' ∨ c ∈ d :: s :=
      fun later => (ih later).imp_right (List.mem_cons_of_mem d)
    rw [escape] at member
    split at member
    · rcases List.mem_cons.1 member with rfl | member
      · exact Or.inl rfl
      · exact (List.mem_cons.1 member).elim (fun same => Or.inr (same ▸ List.mem_cons_self)) deeper
    · exact (List.mem_cons.1 member).elim (fun same => Or.inr (same ▸ List.mem_cons_self)) deeper

/-- A canonical text has the characters of its labels, and special ones. -/
theorem mem_canonical {l : LabelSet} (member : c ∈ l.canonical.toList) :
    isSpecial c = true ∨ ∃ pair ∈ l.toList, c ∈ pair.1.toList ∨ c ∈ pair.2.toList := by
  rw [canonical, String.toList_ofList] at member
  obtain ⟨pair, among, member⟩ := List.mem_flatMap.1 member
  rw [canonicalPair, List.mem_append, List.mem_cons, List.mem_append, List.mem_singleton] at member
  have escaped : ∀ {s : String}, c ∈ escape s.toList → isSpecial c = true ∨ c ∈ s.toList := by
    intro s held
    rcases mem_escape held with rfl | held
    · exact Or.inl isSpecial_backslash
    · exact Or.inr held
  rcases member with key | rfl | value | rfl
  · exact (escaped key).imp_right fun held => ⟨pair, among, Or.inl held⟩
  · exact Or.inl isSpecial_colon
  · exact (escaped value).imp_right fun held => ⟨pair, among, Or.inr held⟩
  · exact Or.inl isSpecial_comma

end LabelSet

/-! ## Reaching a series -/

/-- Handles that are taken one after the other are on one series if their labels are the same. -/
theorem Provider.bind_bind_eq_iff (p : Provider) (id : InstrumentId) (l l' : LabelSet) :
    (p.bind id l).1 = ((p.bind id l).2.bind id l').1 ↔ l.canonical = l'.canonical := by
  refine ⟨fun same => congrArg Handle.labels same, fun same => ?_⟩
  rw [LabelSet.canonical_inj] at same
  subst same
  cases found : p.instrument? id with
  | none =>
    have nowhere : ∀ q : Provider, (q.instrument? id = none) →
        (q.bind id l).1 = ⟨id, l.canonical, 0⟩ ∧ (q.bind id l).2.instrument? id = none := by
      intro q absent
      have still : (q.modify id fun i => i.bind l).instrument? id = none := by
        rw [instrument?_modify, if_pos rfl, absent, Option.map_none]
      refine ⟨?_, still⟩
      rw [bind, still]
      rfl
    obtain ⟨first, absent⟩ := nowhere p found
    rw [first, (nowhere _ absent).1]
  | some i =>
    have after : (p.modify id fun i => i.bind l).instrument? id = some (i.bind l) := by
      rw [instrument?_modify, if_pos rfl, found, Option.map_some]
    rw [bind_of_some found, bind_of_some after,
      Instrument.seriesFor_of_some (i.get?_bind_self l)]
    rfl

/-- Taking a handle under some labels changes the series of these labels. -/
theorem Instrument.get?_bind_eq_iff (i : Instrument) (l l' : LabelSet) :
    (i.bind l).series.get? l'.canonical = i.series.get? l'.canonical ↔
      l.canonical ≠ l'.canonical := by
  refine ⟨fun same at_ => ?_, fun other => i.get?_bind_of_ne l other⟩
  rw [← at_, get?_bind_self] at same
  have counted := congrArg Series.refs (seriesFor_of_some same.symm)
  exact absurd counted (Nat.ne_of_lt (Nat.lt_succ_self _))

/-- Two lists of pairs have the same canonical text exactly if they give every key the same last
value, or none. Two label sets reach the same series of an instrument exactly if they are the same
map: handles under them are on one series, and a handle under one is a reference to the series of
the other. -/
theorem LabelSet.canonical_identifies (ps qs : List (String × String)) :
    ((ofList ps).canonical = (ofList qs).canonical ↔
      ∀ key, lastValue ps key = lastValue qs key) ∧
    ∀ l l' : LabelSet,
      (∀ (p : Provider) (id : InstrumentId), (p.bind id l).1 = ((p.bind id l).2.bind id l').1 ↔
        ∀ key, l.get? key = l'.get? key) ∧
      ∀ i : Instrument, (i.bind l).series.get? l'.canonical ≠ i.series.get? l'.canonical ↔
        ∀ key, l.get? key = l'.get? key := by
  have maps : ∀ l l' : LabelSet, l.canonical = l'.canonical ↔ ∀ key, l.get? key = l'.get? key :=
    fun l l' => canonical_inj.trans eq_iff_get?
  refine ⟨?_, fun l l' => ⟨fun p id => ?_, fun i => ?_⟩⟩
  · rw [maps]
    simp only [get?_ofList]
  · exact (p.bind_bind_eq_iff id l l').trans (maps l l')
  · rw [ne_eq, i.get?_bind_eq_iff, not_not, maps]

end Metering
