import Mathlib.Algebra.GroupWithZero.Nat
import Mathlib.Data.List.TakeWhile
import Metering.Text.Blank
import Metering.Text.Fields

/-!
# Texts that are put together and taken apart

A text is put together of fields with separators between them, and of blanks around it. As long as
no field contains the separator, splitting gives the fields back, and as long as a text does not
itself begin or end with what is trimmed, trimming gives it back.
-/

namespace Metering.Text

variable {separator : Char} {p : Char → Bool} {first second text : List Char}

/-! ## Fields -/

theorem split_of_notMem (none_ : separator ∉ text) : split separator text = [text] := by
  induction text with
  | nil => rfl
  | cons c rest ih =>
    rw [List.mem_cons, not_or] at none_
    rw [split_cons, ih none_.2, putField, if_neg (Ne.symm none_.1)]

/-- Splitting undoes joining. -/
theorem split_intercalate {fields : List (List Char)} (some_ : fields ≠ [])
    (none_ : ∀ field ∈ fields, separator ∉ field) :
    split separator ([separator].intercalate fields) = fields := by
  induction fields with
  | nil => exact absurd rfl some_
  | cons field rest ih =>
    have first := split_of_notMem (none_ field List.mem_cons_self)
    cases rest with
    | nil =>
      rw [List.intercalate_singleton]
      exact first
    | cons next more =>
      have others := ih (List.cons_ne_nil next more)
        fun field member => none_ field (List.mem_cons_of_mem _ member)
      rw [List.intercalate_cons_cons, List.append_assoc, List.singleton_append, split_append_cons,
        first, others, List.singleton_append]

/-- Fields are together no longer than the text that they divide. -/
theorem sum_length_split (separator : Char) (text : List Char) :
    ((split separator text).map List.length).sum ≤ text.length := by
  induction text with
  | nil => exact Nat.le_refl 0
  | cons c rest ih =>
    have put : ∀ fields : List (List Char),
        ((putField separator c fields).map List.length).sum ≤ (fields.map List.length).sum + 1 := by
      intro fields
      unfold putField
      split
      · simp
      · cases fields with
        | nil => exact Nat.le_refl 1
        | cons field more =>
          simp only [List.map_cons, List.sum_cons, List.length_cons]
          omega
    rw [split_cons, List.length_cons]
    exact (put _).trans (Nat.succ_le_succ ih)

/-- A field has none but characters of the text, and no separator. -/
theorem of_mem_split {field : List Char} : field ∈ split separator text →
    field ⊆ text ∧ separator ∉ field := by
  induction text generalizing field with
  | nil =>
    intro member
    rw [List.mem_singleton.1 member]
    exact ⟨List.nil_subset _, List.not_mem_nil⟩
  | cons c rest ih =>
    have within : ∀ {field}, field ∈ split separator rest → field ⊆ c :: rest :=
      fun member => List.Subset.trans (ih member).1 (List.subset_cons_self c rest)
    rw [split_cons]
    unfold putField
    split
    · intro member
      rcases List.mem_cons.1 member with rfl | later
      · exact ⟨List.nil_subset _, List.not_mem_nil⟩
      · exact ⟨within later, (ih later).2⟩
    · rename_i other
      cases fields : split separator rest with
      | nil => exact absurd fields (split_ne_nil separator rest)
      | cons first more =>
        rw [fields] at ih within
        intro member
        rcases List.mem_cons.1 member with rfl | later
        · have free := (ih List.mem_cons_self).2
          exact ⟨List.cons_subset_cons c (ih List.mem_cons_self).1,
            fun member => (List.mem_cons.1 member).elim (other ·.symm) free⟩
        · exact ⟨within (List.mem_cons_of_mem _ later), (ih (List.mem_cons_of_mem _ later)).2⟩

theorem notMem_intercalate {fields : List (List Char)} {c : Char} (other : c ≠ separator)
    (none_ : ∀ field ∈ fields, c ∉ field) : c ∉ [separator].intercalate fields := by
  induction fields with
  | nil => exact List.not_mem_nil
  | cons field rest ih =>
    have first := none_ field List.mem_cons_self
    cases rest with
    | nil =>
      rw [List.intercalate_singleton]
      exact first
    | cons next more =>
      have others := ih fun field member => none_ field (List.mem_cons_of_mem _ member)
      rw [List.intercalate_cons_cons]
      simp [first, other, others]

theorem cut_of_notMem (none_ : separator ∉ text) : cut separator text = (text, none) := by
  have all : ∀ c ∈ text, decide (c ≠ separator) = true :=
    fun c member => decide_eq_true fun same => none_ (same ▸ member)
  rw [cut, List.takeWhile_eq_self_iff.2 all, List.dropWhile_eq_nil_iff.2 all]
  rfl

/-- A text is cut at its first separator. -/
theorem cut_append_cons (none_ : separator ∉ first) (second : List Char) :
    cut separator (first ++ separator :: second) = (first, some second) := by
  have all : ∀ c ∈ first, decide (c ≠ separator) = true :=
    fun c member => decide_eq_true fun same => none_ (same ▸ member)
  have here : ¬ decide (separator ≠ separator) = true := by simp
  rw [cut, List.takeWhile_append_of_pos all, List.dropWhile_append_of_pos all, List.takeWhile_cons,
    List.dropWhile_cons, if_neg here, if_neg here, List.append_nil]
  rfl

/-- What comes of a cut has none but characters of the text. -/
theorem cut_subset (separator : Char) (text : List Char) :
    (cut separator text).1 ⊆ text ∧ ∀ after, (cut separator text).2 = some after → after ⊆ text := by
  refine ⟨(List.takeWhile_sublist _).subset, fun after rest => ?_⟩
  have within := (List.dropWhile_sublist (decide <| · ≠ separator) (l := text)).subset
  dsimp only [cut] at rest
  generalize text.dropWhile (· ≠ separator) = last at rest within
  cases last with
  | nil => cases rest
  | cons c more =>
    cases rest
    exact List.Subset.trans (List.subset_cons_self c after) within

theorem trimWhile_subset (p : Char → Bool) (text : List Char) : trimWhile p text ⊆ text := by
  intro c member
  rw [trimWhile, List.mem_reverse] at member
  have once := (List.dropWhile_sublist p).subset member
  exact (List.dropWhile_sublist p).subset (List.mem_reverse.1 once)

/-! ## Lines -/

/-- A text without a line break. -/
def OneLine (s : String) : Prop := '\n' ∉ s.toList

instance (s : String) : Decidable (OneLine s) :=
  inferInstanceAs (Decidable ('\n' ∉ s.toList))

theorem oneLine_ofList {text : List Char} : OneLine (String.ofList text) ↔ '\n' ∉ text := by
  rw [OneLine, String.toList_ofList]

theorem oneLine_append {s t : String} : OneLine (s ++ t) ↔ OneLine s ∧ OneLine t := by
  rw [OneLine, String.toList_append, List.mem_append, not_or]
  rfl

/-- The text of lines, a line break after each of them. -/
def ofLines (lines : List String) : String := String.join (lines.map (· ++ "\n"))

theorem ofLines_nil : ofLines [] = "" := rfl

theorem ofLines_cons (line : String) (lines : List String) :
    ofLines (line :: lines) = line ++ "\n" ++ ofLines lines := String.join_cons

theorem ofLines_append (lines more : List String) :
    ofLines (lines ++ more) = ofLines lines ++ ofLines more := by
  induction lines with
  | nil => exact String.empty_append.symm
  | cons line rest ih =>
    rw [List.cons_append, ofLines_cons, ofLines_cons, ih]
    exact String.append_assoc.symm

/-- Lines are found again in their text, and so is what stands after the last of them. -/
theorem split_ofLines_append {lines : List String} {last : String}
    (each : ∀ line ∈ lines, OneLine line) (open_ : OneLine last) :
    split '\n' (ofLines lines ++ last).toList = lines.map String.toList ++ [last.toList] := by
  induction lines with
  | nil =>
    rw [ofLines_nil, String.empty_append]
    exact split_of_notMem open_
  | cons line rest ih =>
    have others := ih fun line' member => each line' (List.mem_cons_of_mem _ member)
    have first : split '\n' line.toList = [line.toList] :=
      split_of_notMem (each line List.mem_cons_self)
    have lineBreak : "\n".toList = ['\n'] := by decide
    rw [ofLines_cons, String.append_assoc, String.append_assoc, String.toList_append,
      String.toList_append, lineBreak, List.singleton_append, split_append_cons, first, others]
    rfl

/-! ## Ends -/

/-- A text that neither begins nor ends with what satisfies `p`. -/
structure Trimmed (p : Char → Bool) (text : List Char) : Prop where
  head : ∀ c, text.head? = some c → p c = false
  last : ∀ c, text.getLast? = some c → p c = false

instance (p : Char → Bool) (text : List Char) : Decidable (Trimmed p text) :=
  decidable_of_iff
    (text.head?.all (fun c => !p c) = true ∧ text.getLast?.all (fun c => !p c) = true) (by
      simp only [Option.all_eq_true, Bool.not_eq_true']
      exact ⟨fun ⟨head, last⟩ => ⟨head, last⟩, fun trimmed => ⟨trimmed.head, trimmed.last⟩⟩)

theorem trimmed_nil (p : Char → Bool) : Trimmed p [] where
  head _ none_ := nomatch none_
  last _ none_ := nomatch none_

/-- Joining with something else keeps texts trimmed. -/
theorem Trimmed.append_cons (left : Trimmed p first) (right : Trimmed p second)
    (other : p separator = false) : Trimmed p (first ++ separator :: second) where
  head c begins := by
    rw [List.head?_append] at begins
    cases starts : first.head? with
    | none =>
      rw [starts] at begins
      cases begins
      exact other
    | some c' =>
      rw [starts] at begins
      cases begins
      exact left.head _ starts
  last c ends := by
    rw [List.getLast?_append, List.getLast?_cons, Option.some_or] at ends
    cases stops : second.getLast? with
    | none =>
      rw [stops] at ends
      cases ends
      exact other
    | some c' =>
      rw [stops] at ends
      cases ends
      exact right.last _ stops

theorem trimmed_intercalate {fields : List (List Char)} (each : ∀ field ∈ fields, Trimmed p field)
    (other : p separator = false) : Trimmed p ([separator].intercalate fields) := by
  induction fields with
  | nil => exact trimmed_nil p
  | cons field rest ih =>
    have first := each field List.mem_cons_self
    cases rest with
    | nil =>
      rw [List.intercalate_singleton]
      exact first
    | cons next more =>
      rw [List.intercalate_cons_cons, List.append_assoc, List.singleton_append]
      exact first.append_cons (ih fun field member => each field (List.mem_cons_of_mem _ member)) other

theorem dropWhile_of_head (head : ∀ c, text.head? = some c → p c = false) :
    text.dropWhile p = text := by
  cases text with
  | nil => rfl
  | cons c rest => exact List.dropWhile_cons_of_neg (by rw [head c rfl]; exact Bool.false_ne_true)

/-- Trimming takes away just what was put around a trimmed text. -/
theorem trimWhile_of_trimmed {before after : List Char} (trimmed : Trimmed p text)
    (left : ∀ c ∈ before, p c = true) (right : ∀ c ∈ after, p c = true) :
    trimWhile p (before ++ (text ++ after)) = text := by
  have right' : ∀ c ∈ after.reverse, p c = true := fun c member => right c (List.mem_reverse.1 member)
  rw [trimWhile, List.dropWhile_append_of_pos left]
  rcases text.eq_nil_or_concat with rfl | ⟨start, c, same⟩
  · rw [List.nil_append, List.dropWhile_eq_nil_iff.2 right]
    rfl
  · rw [List.concat_eq_append] at same
    subst same
    have begins : (start ++ [c] ++ after).dropWhile p = start ++ [c] ++ after := by
      refine dropWhile_of_head fun c' found => trimmed.head c' ?_
      rw [List.head?_append, List.head?_append] at found
      rw [List.head?_append]
      cases starts : start.head? <;> rw [starts] at found <;> exact found
    have ends : p c = false := trimmed.last c List.getLast?_concat
    rw [begins, List.reverse_append, List.dropWhile_append_of_pos right', dropWhile_of_head,
      List.reverse_reverse]
    intro c' found
    rw [List.reverse_append, List.reverse_singleton, List.singleton_append] at found
    cases found
    exact ends

theorem trimWhile_self (trimmed : Trimmed p text) : trimWhile p text = text := by
  have bare : trimWhile p ([] ++ (text ++ [])) = text :=
    trimWhile_of_trimmed trimmed (fun _ none_ => nomatch none_) fun _ none_ => nomatch none_
  rw [List.nil_append, List.append_nil] at bare
  exact bare

/-- Trimming leaves what comes first after what is trimmed. -/
theorem head?_trimWhile {before after : List Char} {c : Char} (left : ∀ c ∈ before, p c = true)
    (other : p c = false) : (trimWhile p (before ++ c :: after)).head? = some c := by
  have here : ¬ p c = true := by rw [other]; exact Bool.false_ne_true
  rw [trimWhile, List.dropWhile_append_of_pos left, List.dropWhile_cons_of_neg here,
    List.reverse_cons, List.head?_reverse, List.dropWhile_append]
  split
  · rw [List.dropWhile_cons_of_neg here]
    rfl
  · rw [List.getLast?_concat]

end Metering.Text
