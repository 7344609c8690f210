import Metering.Aggregate.Histogram
import Metering.Arguments
import Metering.Proofs.Binary64.Order

/-!
# The bucket of a value

Among ascending boundaries the search by halving ends at the first boundary above the value. What
every round of it keeps is `Frames`: the boundaries before the part that is left are at most the
value, and those after it are not.
-/

namespace Metering.Histogram

/-- Boundaries that are numbers, each at most those after it. -/
structure Ascending (boundaries : List Float) : Prop where
  numbers : ∀ b ∈ boundaries, b.isNaN = false
  sorted : boundaries.Pairwise (· ≤ ·)

variable {boundaries : List Float} {x y : Float} {i j base size : Nat}

theorem reaches_iff : reaches boundaries x i = true ↔ ∃ b, boundaries[i]? = some b ∧ b ≤ x := by
  rw [reaches]
  split
  · rename_i b found
    constructor
    · intro below
      exact ⟨b, found, of_decide_eq_true below⟩
    · rintro ⟨b', found', below⟩
      obtain rfl := Option.some.inj (found.symm.trans found')
      exact decide_eq_true below
  · rename_i none_
    constructor
    · intro impossible
      cases impossible
    · rintro ⟨b, found, -⟩
      rw [none_] at found
      cases found

theorem lt_length_of_reaches (at_ : reaches boundaries x i = true) : i < boundaries.length := by
  obtain ⟨b, found, -⟩ := reaches_iff.1 at_
  exact (List.getElem?_eq_some_iff.1 found).1

/-- A value that reaches a boundary reaches all boundaries before it. -/
theorem Ascending.reaches_of_le (ascending : Ascending boundaries)
    (later : reaches boundaries x j = true) (le : i ≤ j) : reaches boundaries x i = true := by
  rcases Nat.eq_or_lt_of_le le with rfl | less
  · exact later
  · obtain ⟨b, found, below⟩ := reaches_iff.1 later
    obtain ⟨inside, rfl⟩ := List.getElem?_eq_some_iff.1 found
    have inside' : i < boundaries.length := less.trans inside
    have sorted := List.pairwise_iff_getElem.1 ascending.sorted i j inside' inside less
    exact reaches_iff.2 ⟨boundaries[i], List.getElem?_eq_getElem inside',
      Binary64.le_trans sorted below⟩

/-- The value reaches every boundary before `base`, and none `size` places further on. -/
structure Frames (boundaries : List Float) (x : Float) (base size : Nat) : Prop where
  before : ∀ j < base, reaches boundaries x j = true
  after : ∀ j, base + size ≤ j → reaches boundaries x j = false

theorem frames_all (boundaries : List Float) (x : Float) :
    Frames boundaries x 0 boundaries.length := by
  refine ⟨fun j less => absurd less (Nat.not_lt_zero j), fun j beyond => ?_⟩
  rw [← Bool.not_eq_true]
  intro at_
  have inside := lt_length_of_reaches at_
  omega

/-- A round that finds a boundary at most the value goes on behind it. -/
theorem Frames.upper (frames : Frames boundaries x base size) (ascending : Ascending boundaries)
    {half : Nat} (inside : half ≤ size) (at_ : reaches boundaries x (base + half) = true) :
    Frames boundaries x (base + half) (size - half) := by
  refine ⟨fun j less => ascending.reaches_of_le at_ (Nat.le_of_lt less), fun j beyond => ?_⟩
  exact frames.after j (by omega)

/-- A round that finds a boundary above the value, or none, leaves out what comes after it. -/
theorem Frames.lower (frames : Frames boundaries x base size) (ascending : Ascending boundaries)
    {half : Nat} (inside : half + half ≤ size) (at_ : ¬ reaches boundaries x (base + half) = true) :
    Frames boundaries x base (size - half) := by
  refine ⟨frames.before, fun j beyond => ?_⟩
  rw [← Bool.not_eq_true]
  intro later
  exact at_ (ascending.reaches_of_le later (by omega))

/-- The search ends where the boundaries at most the value end. -/
theorem frames_search (ascending : Ascending boundaries) (frames : Frames boundaries x base size) :
    Frames boundaries x (search boundaries x base size) 0 := by
  induction size using Nat.strongRecOn generalizing base with
  | _ size ih =>
    rw [search]
    by_cases small : size ≤ 1
    · rw [if_pos small]
      by_cases at_ : reaches boundaries x base = true
      · rw [if_pos at_]
        refine ⟨fun j less => ?_, fun j beyond => frames.after j (by omega)⟩
        exact ascending.reaches_of_le at_ (by omega)
      · rw [if_neg at_]
        refine ⟨frames.before, fun j beyond => ?_⟩
        rw [← Bool.not_eq_true]
        intro later
        exact at_ (ascending.reaches_of_le later beyond)
    · rw [if_neg small]
      dsimp only
      by_cases at_ : reaches boundaries x (base + size / 2) = true
      · rw [if_pos at_]
        exact ih _ (by omega) (frames.upper ascending (by omega) at_)
      · rw [if_neg at_]
        exact ih _ (by omega) (frames.lower ascending (by omega) at_)

theorem Frames.beyond (frames : Frames boundaries x i 0) (le : i ≤ j) :
    reaches boundaries x j = false :=
  frames.after j le

theorem Frames.le_length (frames : Frames boundaries x i 0) : i ≤ boundaries.length := by
  rw [← Nat.not_lt]
  intro outside
  exact Nat.lt_irrefl _ (lt_length_of_reaches (frames.before _ outside))

/-- Only one place parts the boundaries at most the value from the others. -/
theorem Frames.unique (frames : Frames boundaries x i 0) (frames' : Frames boundaries x j 0) :
    i = j := by
  rcases Nat.lt_trichotomy i j with less | same | greater
  · have not_ := frames.beyond (Nat.le_refl i)
    rw [frames'.before i less] at not_
    cases not_
  · exact same
  · have not_ := frames'.beyond (Nat.le_refl j)
    rw [frames.before j greater] at not_
    cases not_

/-- Whatever the order of the boundaries, the search does not leave them. -/
theorem search_le_length (x : Float) (inside : base + size ≤ boundaries.length) :
    search boundaries x base size ≤ boundaries.length := by
  induction size using Nat.strongRecOn generalizing base with
  | _ size ih =>
    rw [search]
    by_cases small : size ≤ 1
    · rw [if_pos small]
      by_cases at_ : reaches boundaries x base = true
      · rw [if_pos at_]
        exact Nat.succ_le_of_lt (lt_length_of_reaches at_)
      · rw [if_neg at_]
        omega
    · rw [if_neg small]
      dsimp only
      by_cases at_ : reaches boundaries x (base + size / 2) = true
      · rw [if_pos at_]
        exact ih _ (by omega) (by omega)
      · rw [if_neg at_]
        exact ih _ (by omega) (by omega)

variable {h : Histogram}

theorem bucketIndex_le_length (h : Histogram) (x : Float) :
    h.bucketIndex x ≤ h.boundaries.length :=
  search_le_length x (by omega)

theorem frames_bucketIndex (ascending : Ascending h.boundaries) (x : Float) :
    Frames h.boundaries x (h.bucketIndex x) 0 :=
  frames_search ascending (frames_all h.boundaries x)

/-- A value at most another has a bucket at most that of the other. -/
theorem bucketIndex_le (ascending : Ascending h.boundaries) (le : x ≤ y) :
    h.bucketIndex x ≤ h.bucketIndex y := by
  rw [← Nat.not_lt]
  intro greater
  have at_ := (frames_bucketIndex ascending x).before _ greater
  obtain ⟨b, found, below⟩ := reaches_iff.1 at_
  have at_' := reaches_iff.2 ⟨b, found, Binary64.le_trans below le⟩
  rw [(frames_bucketIndex ascending y).beyond (Nat.le_refl _)] at at_'
  cases at_'

/-- Bucket `i` holds the values from the boundary before it, if there is one, up to the boundary
after it, if there is one. -/
structure InBucket (boundaries : List Float) (i : Nat) (x : Float) : Prop where
  index : i ≤ boundaries.length
  from_ : i = 0 ∨ ∃ b, boundaries[i - 1]? = some b ∧ b ≤ x
  upTo : i = boundaries.length ∨ ∃ b, boundaries[i]? = some b ∧ x < b

/-- A value that does not reach a boundary is below it. -/
theorem Ascending.lt_iff_not_reaches (ascending : Ascending boundaries) (number : x.isNaN = false)
    (inside : i < boundaries.length) : x < boundaries[i] ↔ reaches boundaries x i = false := by
  have boundary := ascending.numbers boundaries[i] (List.getElem_mem inside)
  rw [← Binary64.not_le boundary number, ← Bool.not_eq_true, not_iff_not, reaches_iff]
  constructor
  · exact fun below => ⟨_, List.getElem?_eq_getElem inside, below⟩
  · rintro ⟨b, found, below⟩
    obtain ⟨_, rfl⟩ := List.getElem?_eq_some_iff.1 found
    exact below

/-- A value is in a bucket if the boundaries it reaches are those before the bucket. -/
theorem Ascending.inBucket_iff (ascending : Ascending boundaries) (number : x.isNaN = false) :
    InBucket boundaries i x ↔ Frames boundaries x i 0 := by
  constructor
  · rintro ⟨index, from_, upTo⟩
    constructor
    · intro j less
      rcases from_ with rfl | below
      · cases less
      · exact ascending.reaches_of_le (reaches_iff.2 below) (by omega)
    · intro j beyond
      rw [← Bool.not_eq_true]
      intro later
      have at_ : reaches boundaries x i = true := ascending.reaches_of_le later beyond
      rcases upTo with rfl | ⟨b, found, above⟩
      · exact Nat.lt_irrefl _ (lt_length_of_reaches at_)
      · obtain ⟨inside, rfl⟩ := List.getElem?_eq_some_iff.1 found
        rw [(ascending.lt_iff_not_reaches number inside).1 above] at at_
        cases at_
  · intro frames
    refine ⟨frames.le_length, ?_, ?_⟩
    · rcases Nat.eq_zero_or_pos i with none_ | some_
      · exact .inl none_
      · exact .inr (reaches_iff.1 (frames.before (i - 1) (by omega)))
    · rcases Nat.eq_or_lt_of_le frames.le_length with last | inside
      · exact .inl last
      · exact .inr ⟨boundaries[i], List.getElem?_eq_getElem inside,
          (ascending.lt_iff_not_reaches number inside).2 (frames.beyond (Nat.le_refl i))⟩

/-- The first boundary above a value, or the end of the boundaries, parts them. -/
theorem Ascending.frames_findIdx (ascending : Ascending boundaries) (number : x.isNaN = false) :
    Frames boundaries x (boundaries.findIdx (x < ·)) 0 := by
  constructor
  · intro j less
    have inside : j < boundaries.length := less.trans_le List.findIdx_le_length
    have not_ := List.not_of_lt_findIdx less
    rw [← Bool.not_eq_false, ← ascending.lt_iff_not_reaches number inside]
    exact of_decide_eq_false not_
  · intro j beyond
    rw [← Bool.not_eq_true]
    intro later
    have at_ := ascending.reaches_of_le later beyond
    have inside := lt_length_of_reaches at_
    have above : x < boundaries[boundaries.findIdx (x < ·)] :=
      of_decide_eq_true (List.findIdx_getElem (w := inside))
    rw [(ascending.lt_iff_not_reaches number inside).1 above] at at_
    cases at_

theorem bucketIndex_eq_findIdx (ascending : Ascending h.boundaries) (number : x.isNaN = false) :
    h.bucketIndex x = h.boundaries.findIdx (x < ·) :=
  (frames_bucketIndex ascending x).unique (ascending.frames_findIdx number)

/-! ## Boundaries of the command line -/

/-- Floats that increase from each to the next increase altogether. -/
theorem pairwise_of_isIncreasing : ∀ {bs : List Float}, (∀ b ∈ bs, b.isNaN = false) →
    Arguments.isIncreasing bs = true → bs.Pairwise (· ≤ ·)
  | [], _, _ => .nil
  | [b], _, _ => List.pairwise_singleton _ b
  | a :: b :: rest, numbers, increasing => by
    rw [Arguments.isIncreasing, Bool.and_eq_true, Bool.not_eq_true',
      decide_eq_false_iff_not] at increasing
    obtain ⟨apart, increasing⟩ := increasing
    have first := numbers a List.mem_cons_self
    have second := numbers b (List.mem_cons_of_mem _ List.mem_cons_self)
    have less : a ≤ b :=
      (Binary64.le_total first second).resolve_right apart
    have sorted := pairwise_of_isIncreasing
      (fun c member => numbers c (List.mem_cons_of_mem _ member)) increasing
    refine List.pairwise_cons.2 ⟨fun c member => ?_, sorted⟩
    rcases List.mem_cons.1 member with rfl | later
    · exact less
    · exact Binary64.le_trans less (List.rel_of_pairwise_cons sorted later)

/-- Boundaries that the command line accepts ascend. -/
theorem ascending_of_validate {a : Arguments} (accepted : a.validate = .ok ()) :
    Ascending a.boundaries := by
  rw [Arguments.validate] at accepted
  split at accepted
  · cases accepted
  · rename_i finite
    split at accepted
    · cases accepted
    · rename_i increasing
      have numbers : ∀ b ∈ a.boundaries, b.isNaN = false := by
        intro b member
        have all := List.all_eq_true.1 (by simpa using finite) b member
        exact Binary64.number_of_isFinite all
      exact ⟨numbers, pairwise_of_isIncreasing numbers (by simpa using increasing)⟩

/-- The boundaries that the command line accepts ascend. Among ascending boundaries the search finds
the first boundary above the value, or the end of the boundaries; no other bucket holds the value,
and no larger value has a bucket before it. -/
theorem bucketIndex_spec :
    (∀ a : Arguments, a.validate = .ok () → Ascending a.boundaries) ∧
      ∀ h : Histogram, Ascending h.boundaries →
        (∀ x : Float, x.isNaN = false →
          h.bucketIndex x = h.boundaries.findIdx (x < ·) ∧
            ∀ i, InBucket h.boundaries i x ↔ i = h.bucketIndex x) ∧
          ∀ x y : Float, x ≤ y → h.bucketIndex x ≤ h.bucketIndex y := by
  refine ⟨fun a accepted => ascending_of_validate accepted, fun h ascending => ⟨?_, ?_⟩⟩
  · intro x number
    refine ⟨bucketIndex_eq_findIdx ascending number, fun i => ?_⟩
    rw [ascending.inBucket_iff number]
    constructor
    · intro frames
      exact frames.unique (frames_bucketIndex ascending x)
    · rintro rfl
      exact frames_bucketIndex ascending x
  · intro x y le
    exact bucketIndex_le ascending le

/-- A value equal to a repeated boundary is in the bucket behind the last of its copies. -/
theorem bucketIndex_of_repeated :
    Ascending { Arguments.default with boundaries := [0.5, 1.0] }.boundaries ∧
      (empty [0.0, 1.0, 1.0, 2.5] .float64).bucketIndex 1.0 = 3 ∧
        (InBucket [0.0, 1.0, 1.0, 2.5] 3 1.0 ∧ ¬ InBucket [0.0, 1.0, 1.0, 2.5] 2 1.0) ∧
          (empty [0.0, 1.0, 1.0, 2.5] .float64).bucketIndex (-3.0) ≤
            (empty [0.0, 1.0, 1.0, 2.5] .float64).bucketIndex 1.0 := by
  have accepted : { Arguments.default with boundaries := [0.5, 1.0] }.validate = .ok () := by
    decide +kernel
  have ascending : Ascending [0.0, 1.0, 1.0, 2.5] := ⟨by decide +kernel, by decide +kernel⟩
  obtain ⟨commandLine, search⟩ := bucketIndex_spec
  obtain ⟨places, monotone⟩ := search (empty [0.0, 1.0, 1.0, 2.5] .float64) ascending
  obtain ⟨first, unique⟩ := places 1.0 (by decide +kernel)
  have third : (empty [0.0, 1.0, 1.0, 2.5] .float64).bucketIndex 1.0 = 3 :=
    first.trans (by decide +kernel)
  refine ⟨commandLine _ accepted, third, ⟨(unique 3).2 third.symm, fun held => ?_⟩,
    monotone _ _ (by decide +kernel)⟩
  have second := (unique 2).1 held
  omega

end Metering.Histogram
