import Mathlib.Data.List.Basic
import Metering.Number

/-!
# Characters of numerals

However a number is laid out, its text is made of digits, letters, points and signs. It has
nothing in it that could be taken for a separator of the text around it.
-/

namespace Metering

namespace Decimal

/-- Whether a character can stand in the text of a number. -/
def isNumeral (c : Char) : Bool := c.isAlphanum || c = '.' || c = '-' || c = '+'

/-- A text of digits, letters, points and signs. -/
def Numeral (text : List Char) : Prop := ∀ c ∈ text, isNumeral c = true

instance (text : List Char) : Decidable (Numeral text) :=
  List.decidableBAll (isNumeral · = true) text

variable {text more : List Char} {c : Char}

theorem Numeral.append (first : Numeral text) (second : Numeral more) : Numeral (text ++ more) :=
  List.forall_mem_append.2 ⟨first, second⟩

theorem Numeral.cons (first : isNumeral c = true) (second : Numeral text) : Numeral (c :: text) :=
  List.forall_mem_cons.2 ⟨first, second⟩

theorem Numeral.of_subset (whole : Numeral text) (within : more ⊆ text) : Numeral more :=
  fun c member => whole c (within member)

theorem numeral_ite {p : Prop} [Decidable p] (yes : Numeral text) (no : Numeral more) :
    Numeral (if p then text else more) := by
  split
  · exact yes
  · exact no

theorem numeral_replicate (n : Nat) (numeral : isNumeral c = true) :
    Numeral (List.replicate n c) := by
  intro d member
  rw [List.eq_of_mem_replicate member]
  exact numeral

theorem numeral_toDigits (n : Nat) : Numeral (Nat.toDigits 10 n) := by
  intro c member
  have digit := Nat.isDigit_of_mem_toDigits (by decide) (by decide) member
  rw [isNumeral, Char.isAlphanum, digit, Bool.or_true]
  rfl

theorem numeral_nat (n : Nat) : Numeral (toString n).toList := by
  rw [Nat.toString_eq_repr, Nat.toList_repr]
  exact numeral_toDigits n

theorem numeral_int (n : Int) : Numeral (toString n).toList := by
  rw [Int.toString_eq_repr, Int.repr_eq_if]
  split
  · rw [Nat.toList_repr]
    exact numeral_toDigits _
  · rw [String.toList_append, Nat.toList_repr]
    exact Numeral.append (by decide) (numeral_toDigits _)

theorem numeral_positional (pointZero : Bool) {ds : List Char} (digits : Numeral ds) (p : Int) :
    Numeral (positional pointZero ds p) := by
  have zeros : ∀ n, Numeral (List.replicate n '0') := fun n => numeral_replicate n (by decide)
  have whole := digits.of_subset (List.take_subset p.toNat ds)
  have fraction := digits.of_subset (List.drop_subset p.toNat ds)
  refine numeral_ite (.cons (by decide) (.cons (by decide) ((zeros _).append digits))) ?_
  refine numeral_ite ((digits.append (zeros _)).append ?_) (whole.append (.cons (by decide) fraction))
  exact numeral_ite (by decide) (by decide)

theorem numeral_scientific (plus : Bool) {ds : List Char} (digits : Numeral ds) (e : Int) :
    Numeral (scientific plus ds e) := by
  have sign : Numeral (if e < 0 then ['-'] else if plus then ['+'] else []) :=
    numeral_ite (by decide) (numeral_ite (by decide) (by decide))
  have exponent : Numeral ('e' :: _) := .cons (by decide) (sign.append (numeral_toDigits e.natAbs))
  refine Numeral.append ?_ exponent
  rcases ds with _ | ⟨d, _ | ⟨d', rest⟩⟩
  · exact numeral_replicate 1 (by decide)
  · exact digits
  · obtain ⟨first, others⟩ := List.forall_mem_cons.1 digits
    exact .cons first (.cons (by decide) others)

theorem Layout.numeral_writeDecimal (l : Layout) (d : Decimal) : Numeral (l.writeDecimal d) :=
  numeral_ite (numeral_scientific _ (numeral_toDigits _) _)
    (numeral_positional _ (numeral_toDigits _) _)

theorem Layout.numeral_write (l : Layout) (x : Float) : Numeral (l.write x).toList := by
  have signed : ∀ (negative : Bool) {text : List Char}, Numeral text →
      Numeral (String.ofList (if negative then '-' :: text else text)).toList := by
    intro negative text numeral
    rw [String.toList_ofList]
    exact numeral_ite (.cons (by decide) numeral) numeral
  unfold write
  dsimp only
  split
  · decide
  · exact signed _ (by decide)
  · exact signed _ (.cons (by decide) (numeral_ite (by decide) (by decide)))
  · exact signed _ (l.numeral_writeDecimal _)

theorem numeral_fixed (places : Nat) (x : Float) : Numeral (fixed places x).toList := by
  have text : ∀ (negative : Bool) (scaled : Nat),
      let padded := List.replicate (places + 1 - (Nat.toDigits 10 scaled).length) '0' ++
        Nat.toDigits 10 scaled
      let unsigned := padded.take (padded.length - places) ++
        if places = 0 then [] else '.' :: padded.drop (padded.length - places)
      Numeral (String.ofList (if negative then '-' :: unsigned else unsigned)).toList := by
    intro negative scaled padded unsigned
    have digits : Numeral padded :=
      (numeral_replicate _ (by decide)).append (numeral_toDigits scaled)
    have whole := digits.of_subset (List.take_subset (padded.length - places) padded)
    have fraction := digits.of_subset (List.drop_subset (padded.length - places) padded)
    have numeral : Numeral unsigned :=
      whole.append (numeral_ite (by decide) (.cons (by decide) fraction))
    rw [String.toList_ofList]
    exact numeral_ite (.cons (by decide) numeral) numeral
  unfold fixed
  dsimp only
  split
  · decide
  · split <;> decide
  · exact text _ _
  · exact text _ _

end Decimal

open Decimal

theorem Number.numeral_text (n : Number) : Numeral n.text.toList := by
  cases n with
  | integer v => exact numeral_int v.toInt
  | float x => exact plain.numeral_write x

theorem Text.Json.numeral_float (x : Float) : Numeral (float x).toList := by
  unfold float
  split
  · exact layout.numeral_write x
  · decide

theorem Number.numeral_json (n : Number) : Numeral n.json.toList := by
  cases n with
  | integer v => exact numeral_int v.toInt
  | float x => exact Text.Json.numeral_float x

end Metering
