import Metering.Proofs.Number.Order

/-!
# Comparing numbers of two kinds

An integer and a float compare as floats, so an integer first becomes the float nearest to it, while
two integers compare exactly. Less than stays transitive all the same. At most does not: a float can
stand between two integers in the wrong order that both become it (`Blurs`), and nothing else breaks
the order (`not_le_of_le_of_le_iff`). The smaller and the larger of two numbers inherit this. They
are the choices of a rule by which one number beats another, so the winner of some numbers is beaten
by none of them as soon as beating is transitive (`not_beaten_foldl_choose`).
-/

namespace Metering

/-! ## Choosing by a rule -/

section Choose

variable {α : Type} {beats : α → α → Prop} [DecidableRel beats] {a b c x : α} {xs : List α}

/-- The second of two if it beats the first, and the first otherwise. -/
def choose (beats : α → α → Prop) [DecidableRel beats] (a b : α) : α := if beats b a then b else a

theorem choose_eq_or (beats : α → α → Prop) [DecidableRel beats] (a b : α) :
    choose beats a b = a ∨ choose beats a b = b := by
  unfold choose
  split
  · exact .inr rfl
  · exact .inl rfl

/-- Which two of three are chosen from first matters only if the last beats the first, though
neither of them is told apart from the one between. -/
theorem choose_assoc (trans : ∀ a b c, beats c b → beats b a → beats c a)
    (plain : ¬ (¬ beats b a ∧ ¬ beats c b ∧ beats c a)) :
    choose beats (choose beats a b) c = choose beats a (choose beats b c) := by
  by_cases second : beats b a
  · by_cases third : beats c b
    · simp only [choose, second, third, trans a b c third second, if_true]
    · simp only [choose, second, third, if_true, if_false]
  · by_cases third : beats c b
    · simp only [choose, second, third, if_true, if_false]
    · have last : ¬ beats c a := fun last => plain ⟨second, third, last⟩
      simp only [choose, second, third, last, if_false]

/-- The winner of some values is one of them, and none of them beats it. -/
theorem not_beaten_foldl_choose (trans : ∀ a b c, beats c b → beats b a → beats c a)
    (irrefl : ∀ a, ¬ beats a a) (xs : List α) (a : α) :
    xs.foldl (choose beats) a ∈ a :: xs ∧
      ∀ x ∈ a :: xs, ¬ beats x (xs.foldl (choose beats) a) := by
  induction xs using List.reverseRecOn with
  | nil =>
    refine ⟨List.mem_singleton_self a, fun x member => ?_⟩
    rw [List.mem_singleton.1 member]
    exact irrefl a
  | append_singleton xs y ih =>
    obtain ⟨among, unbeaten⟩ := ih
    rw [List.foldl_append, List.foldl_cons, List.foldl_nil, ← List.cons_append]
    generalize xs.foldl (choose beats) a = winner at among unbeaten
    unfold choose
    split
    · rename_i better
      refine ⟨List.mem_append_right _ (List.mem_singleton_self y), fun x member beaten => ?_⟩
      rcases List.mem_append.1 member with first | last
      · exact unbeaten x first (trans _ _ _ beaten better)
      · rw [List.mem_singleton.1 last] at beaten
        exact irrefl y beaten
    · rename_i worse
      refine ⟨List.mem_append_left _ among, fun x member beaten => ?_⟩
      rcases List.mem_append.1 member with first | last
      · exact unbeaten x first beaten
      · rw [List.mem_singleton.1 last] at beaten
        exact worse beaten

end Choose

namespace Number

variable {a b c : Number} {x y : Float} {o : Ordering} {vs ws : List Number}

/-- The first number is known to be below the second. -/
instance : LT Number where
  lt a b := a.compare? b = some .lt

/-- The first number is known to be at most the second. -/
instance : LE Number where
  le a b := a.compare? b = some .lt ∨ a.compare? b = some .eq

instance : DecidableLT Number := fun a b =>
  inferInstanceAs (Decidable (a.compare? b = some .lt))

instance : DecidableLE Number := fun a b =>
  inferInstanceAs (Decidable (a.compare? b = some .lt ∨ a.compare? b = some .eq))

/-! ## What a comparison tells -/

theorem compareFloats?_eq_some_iff : compareFloats? x y = some o ↔
    x.isNaN = false ∧ y.isNaN = false ∧ compare (Binary64.place x) (Binary64.place y) = o := by
  constructor
  · intro compared
    have numbers : x.isNaN = false ∧ y.isNaN = false := by
      unfold compareFloats? at compared
      split at compared
      · rename_i less
        exact ⟨(Binary64.lt_iff.1 less).1, (Binary64.lt_iff.1 less).2.1⟩
      · split at compared
        · rename_i same
          exact ⟨(Binary64.beq_iff.1 same).1, (Binary64.beq_iff.1 same).2.1⟩
        · split at compared
          · rename_i greater
            exact ⟨(Binary64.lt_iff.1 greater).2.1, (Binary64.lt_iff.1 greater).1⟩
          · cases compared
    rw [compareFloats?_eq numbers.1 numbers.2, Option.some.injEq] at compared
    exact ⟨numbers.1, numbers.2, compared⟩
  · rintro ⟨number, number', rfl⟩
    exact compareFloats?_eq number number'

/-- Where a number stands as a float. -/
def height (a : Number) : WithBot (WithTop ℚ) := Binary64.place a.toFloat

theorem number_of_int64 (integer_ : a.kind = .int64) : a.toFloat.isNaN = false :=
  Binary64.number_of_isFinite (isFinite_toFloat (isFinite_of_integer integer_))

/-- Two numbers that are not both integers compare as floats. -/
theorem compare?_mixed (mixed : ¬ (a.kind = .int64 ∧ b.kind = .int64)) :
    a.compare? b = compareFloats? a.toFloat b.toFloat := by
  cases a with
  | integer v =>
    cases b with
    | integer w => exact absurd ⟨rfl, rfl⟩ mixed
    | float y => rfl
  | float x => cases b <;> rfl

theorem compare?_mixed_eq_some_iff (mixed : ¬ (a.kind = .int64 ∧ b.kind = .int64)) :
    a.compare? b = some o ↔ a.toFloat.isNaN = false ∧ b.toFloat.isNaN = false ∧
      compare a.height b.height = o := by
  rw [compare?_mixed mixed, compareFloats?_eq_some_iff]
  rfl

/-- Two integers compare exactly. -/
theorem compare?_integers_eq_some_iff (left : a.kind = .int64) (right : b.kind = .int64) :
    a.compare? b = some o ↔ compare a.place b.place = o := by
  rw [compare?_eq (left.trans right.symm) (number_of_int64 left) (number_of_int64 right),
    Option.some.injEq]

/-- Numbers of one kind are in order as their places are. -/
theorem le_iff_place_le (same : a.kind = b.kind) (number : a.toFloat.isNaN = false)
    (number' : b.toFloat.isNaN = false) : a ≤ b ↔ a.place ≤ b.place := by
  change a.compare? b = some .lt ∨ a.compare? b = some .eq ↔ _
  rw [compare?_eq same number number', Option.some.injEq, Option.some.injEq, compare_lt_iff_lt,
    compare_eq_iff_eq, le_iff_lt_or_eq]

/-- Only numbers compare. -/
theorem numbers_of_compare? (compared : a.compare? b = some o) :
    a.toFloat.isNaN = false ∧ b.toFloat.isNaN = false := by
  by_cases integers : a.kind = .int64 ∧ b.kind = .int64
  · exact ⟨number_of_int64 integers.1, number_of_int64 integers.2⟩
  · obtain ⟨number, number', -⟩ := (compare?_mixed_eq_some_iff integers).1 compared
    exact ⟨number, number'⟩

theorem compare?_eq_gt_iff : a.compare? b = some .gt ↔ b < a := by
  change _ ↔ b.compare? a = some .lt
  by_cases integers : a.kind = .int64 ∧ b.kind = .int64
  · rw [compare?_integers_eq_some_iff integers.1 integers.2,
      compare?_integers_eq_some_iff integers.2 integers.1, compare_gt_iff_gt, compare_lt_iff_lt]
  · rw [compare?_mixed_eq_some_iff integers,
      compare?_mixed_eq_some_iff fun both => integers both.symm,
      compare_gt_iff_gt, compare_lt_iff_lt]
    exact and_left_comm

theorem compare?_eq_eq_comm : a.compare? b = some .eq ↔ b.compare? a = some .eq := by
  by_cases integers : a.kind = .int64 ∧ b.kind = .int64
  · rw [compare?_integers_eq_some_iff integers.1 integers.2,
      compare?_integers_eq_some_iff integers.2 integers.1, compare_eq_iff_eq, compare_eq_iff_eq]
    exact eq_comm
  · rw [compare?_mixed_eq_some_iff integers,
      compare?_mixed_eq_some_iff fun both => integers both.symm,
      compare_eq_iff_eq, compare_eq_iff_eq, @eq_comm _ a.height]
    exact and_left_comm

/-- Of two numbers, one is below the other or they compare as equal. -/
theorem lt_or_eq_or_gt (number : a.toFloat.isNaN = false) (number' : b.toFloat.isNaN = false) :
    a < b ∨ a.compare? b = some .eq ∨ b < a := by
  have compares : ∃ o, a.compare? b = some o := by
    by_cases integers : a.kind = .int64 ∧ b.kind = .int64
    · exact ⟨_, (compare?_integers_eq_some_iff integers.1 integers.2).2 rfl⟩
    · exact ⟨_, (compare?_mixed_eq_some_iff integers).2 ⟨number, number', rfl⟩⟩
  obtain ⟨o, compared⟩ := compares
  cases o with
  | lt => exact .inl compared
  | eq => exact .inr (.inl compared)
  | gt => exact .inr (.inr (compare?_eq_gt_iff.1 compared))

theorem not_lt_of_lt (less : a < b) : ¬ b < a := by
  intro greater
  have both : some Ordering.lt = some .gt := less.symm.trans (compare?_eq_gt_iff.2 greater)
  cases both

theorem not_lt_of_eq (same : a.compare? b = some .eq) : ¬ a < b := by
  intro less
  have both : some Ordering.lt = some .eq := less.symm.trans same
  cases both

/-- At most is not above, among numbers. -/
theorem le_iff_not_lt (number : a.toFloat.isNaN = false) (number' : b.toFloat.isNaN = false) :
    a ≤ b ↔ ¬ b < a := by
  constructor
  · rintro (less | same)
    · exact not_lt_of_lt less
    · exact not_lt_of_eq (compare?_eq_eq_comm.1 same)
  · intro not_
    rcases lt_or_eq_or_gt number number' with less | same | greater
    · exact .inl less
    · exact .inr same
    · exact absurd greater not_

theorem numbers_of_le (le : a ≤ b) : a.toFloat.isNaN = false ∧ b.toFloat.isNaN = false := by
  rcases le with less | same
  · exact numbers_of_compare? less
  · exact numbers_of_compare? same

/-! ## Order and height -/

/-- A number that is below another is not above it as a float. -/
theorem height_le_of_lt (less : a < b) : a.height ≤ b.height := by
  by_cases integers : a.kind = .int64 ∧ b.kind = .int64
  · have places := compare_lt_iff_lt.1
      ((compare?_integers_eq_some_iff integers.1 integers.2).1 less)
    exact (Binary64.le_iff.1 (toFloat_mono (integers.1.trans integers.2.symm)
      (number_of_int64 integers.1) (number_of_int64 integers.2) places.le)).2.2
  · exact (compare_lt_iff_lt.1 ((compare?_mixed_eq_some_iff integers).1 less).2.2).le

/-- It is below it as a float, unless both are integers. -/
theorem height_lt_of_lt (mixed : ¬ (a.kind = .int64 ∧ b.kind = .int64)) (less : a < b) :
    a.height < b.height :=
  compare_lt_iff_lt.1 ((compare?_mixed_eq_some_iff mixed).1 less).2.2

/-- What is below as a float is below. -/
theorem lt_of_height_lt (number : a.toFloat.isNaN = false) (number' : b.toFloat.isNaN = false)
    (less : a.height < b.height) : a < b := by
  by_cases integers : a.kind = .int64 ∧ b.kind = .int64
  · rcases lt_or_eq_or_gt number number' with below | same | greater
    · exact below
    · have places := compare_eq_iff_eq.1
        ((compare?_integers_eq_some_iff integers.1 integers.2).1 same)
      have le := (Binary64.le_iff.1 (toFloat_mono (integers.2.trans integers.1.symm) number' number
        places.ge)).2.2
      exact absurd less le.not_gt
    · exact absurd less (height_le_of_lt greater).not_gt
  · exact (compare?_mixed_eq_some_iff integers).2 ⟨number, number', compare_lt_iff_lt.2 less⟩

/-- Less than is transitive, whatever the kinds. -/
theorem lt_trans (first : a < b) (second : b < c) : a < c := by
  obtain ⟨number, -⟩ := numbers_of_compare? first
  obtain ⟨-, number'⟩ := numbers_of_compare? second
  by_cases integers : (a.kind = .int64 ∧ c.kind = .int64) ∧ b.kind = .int64
  · obtain ⟨⟨left, right⟩, middle⟩ := integers
    have below := compare_lt_iff_lt.1 ((compare?_integers_eq_some_iff left middle).1 first)
    have above := compare_lt_iff_lt.1 ((compare?_integers_eq_some_iff middle right).1 second)
    exact (compare?_integers_eq_some_iff left right).2 (compare_lt_iff_lt.2 (below.trans above))
  · -- One of the two comparisons is one of floats, so it is strict there.
    apply lt_of_height_lt number number'
    by_cases mixed : a.kind = .int64 ∧ b.kind = .int64
    · have later : ¬ (b.kind = .int64 ∧ c.kind = .int64) := fun both =>
        integers ⟨⟨mixed.1, both.2⟩, mixed.2⟩
      exact (height_le_of_lt first).trans_lt (height_lt_of_lt later second)
    · exact (height_lt_of_lt mixed first).trans_le (height_le_of_lt second)

theorem lt_irrefl (a : Number) : ¬ a < a := fun less => not_lt_of_lt less less

/-! ## Where the order breaks -/

/-- The integers `a` and `c` both become the float `b`, though `c` is below `a`. -/
structure Blurs (a b c : Number) : Prop where
  first : a.kind = .int64
  between : b.kind = .float64
  last : c.kind = .int64
  below : c < a
  same : a.compare? b = some .eq
  same' : b.compare? c = some .eq

/-- Of three numbers, the last can be below the first only if they are integers blurred by the one
between, or one of them is out of order with that one. -/
theorem blurs_of_not_lt (number : b.toFloat.isNaN = false) (first : ¬ b < a) (second : ¬ c < b)
    (below : c < a) : Blurs a b c := by
  obtain ⟨last, start⟩ := numbers_of_compare? below
  have up : a.height ≤ b.height := not_lt.1 fun less => first (lt_of_height_lt number start less)
  have up' : b.height ≤ c.height := not_lt.1 fun less => second (lt_of_height_lt last number less)
  have integers : c.kind = .int64 ∧ a.kind = .int64 := by
    by_contra mixed
    exact (up.trans up').not_gt (height_lt_of_lt mixed below)
  have float_ : b.kind = .float64 := by
    cases kind : b.kind with
    | float64 => rfl
    | int64 =>
      have places := compare_lt_iff_lt.1
        ((compare?_integers_eq_some_iff integers.1 integers.2).1 below)
      have le := not_lt.1 fun less => first ((compare?_integers_eq_some_iff kind integers.2).2
        (compare_lt_iff_lt.2 less))
      have le' := not_lt.1 fun less => second ((compare?_integers_eq_some_iff integers.1 kind).2
        (compare_lt_iff_lt.2 less))
      exact absurd places (le.trans le').not_gt
  have down := height_le_of_lt below
  have mixed : ∀ {d : Number}, ¬ (d.kind = .int64 ∧ b.kind = .int64) := fun both => by
    rw [float_] at both
    cases both.2
  refine ⟨integers.2, float_, integers.1, below, ?_, ?_⟩
  · exact (compare?_mixed_eq_some_iff mixed).2
      ⟨start, number, compare_eq_iff_eq.2 (le_antisymm up (up'.trans down))⟩
  · rw [compare?_eq_eq_comm]
    exact (compare?_mixed_eq_some_iff mixed).2
      ⟨last, number, compare_eq_iff_eq.2 (le_antisymm (down.trans up) up')⟩

/-- At most is transitive but for blurred integers. -/
theorem not_le_of_le_of_le_iff (a b c : Number) : (a ≤ b ∧ b ≤ c ∧ ¬ a ≤ c) ↔ Blurs a b c := by
  constructor
  · rintro ⟨first, second, not_⟩
    obtain ⟨number, middle⟩ := numbers_of_le first
    obtain ⟨-, number'⟩ := numbers_of_le second
    have below : c < a := by
      by_contra above
      exact not_ ((le_iff_not_lt number number').2 above)
    exact blurs_of_not_lt middle ((le_iff_not_lt number middle).1 first)
      ((le_iff_not_lt middle number').1 second) below
  · intro blurs
    obtain ⟨number', number⟩ := numbers_of_compare? blurs.below
    exact ⟨.inr blurs.same, .inr blurs.same',
      fun le => (le_iff_not_lt number number').1 le blurs.below⟩

/-- Equal numbers are those of one kind that compare as equal. -/
theorem agrees_iff (a b : Number) :
    a.agrees b = true ↔ a.kind = b.kind ∧ a.compare? b = some .eq := by
  cases a with
  | integer v =>
    cases b with
    | integer w =>
      have compared : (integer v).compare? (integer w) = some (compare v.toInt w.toInt) := rfl
      rw [compared, Option.some.injEq, Int.compare_eq_eq, Int64.toInt_inj]
      change (v == w) = true ↔ _
      rw [beq_iff_eq]
      exact (and_iff_right rfl).symm
    | float y => exact ⟨nofun, fun both => NumberKind.noConfusion both.1⟩
  | float x =>
    cases b with
    | integer w => exact ⟨nofun, fun both => NumberKind.noConfusion both.1⟩
    | float y =>
      change (x == y) = true ↔ NumberKind.float64 = .float64 ∧ compareFloats? x y = some .eq
      rw [Binary64.beq_iff, compareFloats?_eq_some_iff, compare_eq_iff_eq]
      exact (and_iff_right rfl).symm

theorem agrees_self (number : a.toFloat.isNaN = false) : a.agrees a = true := by
  refine (agrees_iff a a).2 ⟨rfl, ?_⟩
  rcases lt_or_eq_or_gt number number with less | same | greater
  · exact absurd less (lt_irrefl a)
  · exact same
  · exact absurd greater (lt_irrefl a)

/-! ## The smaller and the larger -/

/-- A rule by which one number beats another, as being below it or being above it. -/
structure Ranks (beats : Number → Number → Prop) : Prop where
  trans : ∀ a b c, beats c b → beats b a → beats c a
  irrefl : ∀ a, ¬ beats a a
  decides : ∀ {a b : Number}, a.toFloat.isNaN = false → b.toFloat.isNaN = false →
    beats a b ∨ a.compare? b = some .eq ∨ beats b a
  apart : ∀ {a b}, beats a b → a.compare? b ≠ some .eq

theorem ranks_lt : Ranks fun a b : Number => a < b :=
  ⟨fun _ _ _ => lt_trans, lt_irrefl, lt_or_eq_or_gt, fun less same => not_lt_of_eq same less⟩

theorem ranks_gt : Ranks fun a b : Number => b < a := by
  refine ⟨fun _ _ _ above above' => lt_trans above' above, lt_irrefl, fun number number' => ?_,
    fun above same => not_lt_of_eq (compare?_eq_eq_comm.1 same) above⟩
  rcases lt_or_eq_or_gt number number' with less | same | greater
  · exact .inr (.inr less)
  · exact .inr (.inl same)
  · exact .inl greater

theorem min_eq_choose : min = choose fun a b : Number => a < b := by
  funext a b
  exact if_congr compare?_eq_gt_iff rfl rfl

theorem max_eq_choose : max = choose fun a b : Number => b < a := rfl

section Choose

variable {beats : Number → Number → Prop} [DecidableRel beats]

/-- Of two numbers that compare as equal, each order gives the first. -/
theorem Ranks.choose_first (ranks : Ranks beats) (same : a.compare? b = some .eq) :
    choose beats a b = a ∧ choose beats b a = b :=
  ⟨if_neg fun second => ranks.apart second (compare?_eq_eq_comm.1 same),
    if_neg fun first => ranks.apart first same⟩

/-- Which of two numbers comes first matters only if they compare as equal and are of two kinds. -/
theorem Ranks.agrees_comm_iff (ranks : Ranks beats) (number : a.toFloat.isNaN = false)
    (number' : b.toFloat.isNaN = false) :
    (choose beats a b).agrees (choose beats b a) = true ↔
      (a.compare? b = some .eq → a.kind = b.kind) := by
  rcases ranks.decides number number' with first | same | second
  · have not_ : ¬ beats b a := fun second => ranks.irrefl a (ranks.trans _ _ _ first second)
    rw [choose, choose, if_neg not_, if_pos first]
    exact iff_of_true (agrees_self number) fun same => absurd same (ranks.apart first)
  · obtain ⟨left, right⟩ := ranks.choose_first same
    rw [left, right, agrees_iff]
    exact ⟨fun both _ => both.1, fun kinds => ⟨kinds same, same⟩⟩
  · have not_ : ¬ beats a b := fun first => ranks.irrefl b (ranks.trans _ _ _ second first)
    rw [choose, choose, if_pos second, if_neg not_]
    exact iff_of_true (agrees_self number') fun same =>
      absurd (compare?_eq_eq_comm.1 same) (ranks.apart second)

/-- Which two of three numbers are chosen from first matters only if the last beats the first, though
neither of them is told apart from the one between. -/
theorem Ranks.agrees_assoc_iff (ranks : Ranks beats) (number : a.toFloat.isNaN = false)
    (number' : b.toFloat.isNaN = false) (number'' : c.toFloat.isNaN = false) :
    (choose beats (choose beats a b) c).agrees (choose beats a (choose beats b c)) = true ↔
      ¬ (¬ beats b a ∧ ¬ beats c b ∧ beats c a) := by
  constructor
  · rintro agrees ⟨second, third, last⟩
    simp only [choose, second, third, last, if_true, if_false] at agrees
    exact ranks.apart last ((agrees_iff c a).1 agrees).2
  · intro plain
    rw [choose_assoc ranks.trans plain]
    apply agrees_self
    rcases choose_eq_or beats a (choose beats b c) with first | later
    · rw [first]
      exact number
    · rw [later]
      rcases choose_eq_or beats b c with second | third
      · rw [second]
        exact number'
      · rw [third]
        exact number''

/-- In whatever order numbers come, the winners compare as equal. -/
theorem Ranks.compare?_foldl (ranks : Ranks beats) (number : a.toFloat.isNaN = false)
    (numbers : ∀ v ∈ vs, v.toFloat.isNaN = false) (perm : vs.Perm ws) :
    (vs.foldl (choose beats) a).compare? (ws.foldl (choose beats) a) = some .eq := by
  obtain ⟨among, unbeaten⟩ := not_beaten_foldl_choose ranks.trans ranks.irrefl vs a
  obtain ⟨among', unbeaten'⟩ := not_beaten_foldl_choose ranks.trans ranks.irrefl ws a
  have all : ∀ v ∈ a :: vs, v.toFloat.isNaN = false := List.forall_mem_cons.2 ⟨number, numbers⟩
  have other := (perm.cons a).mem_iff.2 among'
  rcases ranks.decides (all _ among) (all _ other) with first | same | second
  · exact absurd first (unbeaten' _ ((perm.cons a).mem_iff.1 among))
  · exact same
  · exact absurd second (unbeaten _ other)

end Choose

theorem not_lt_and_not_lt_and_lt_iff (number : b.toFloat.isNaN = false) :
    (¬ b < a ∧ ¬ c < b ∧ c < a) ↔ Blurs a b c := by
  constructor
  · rintro ⟨first, second, below⟩
    exact blurs_of_not_lt number first second below
  · intro blurs
    exact ⟨not_lt_of_eq (compare?_eq_eq_comm.1 blurs.same),
      not_lt_of_eq (compare?_eq_eq_comm.1 blurs.same'), blurs.below⟩

end Number

end Metering
