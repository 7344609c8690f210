/-!
# Fields of a text

`cut` divides a text at the first separator, `split` at every separator. A text has one field more
than separators (`length_split`), and the fields of two texts with a separator between them are
those of the first and then those of the second (`split_append_cons`).
-/

namespace Metering.Text

/-- The text before the first separator, and the text after it if there is one. -/
def cut (separator : Char) (text : List Char) : List Char × Option (List Char) :=
  (text.takeWhile (· ≠ separator), (text.dropWhile (· ≠ separator)).tail?)

/-- Puts a character before the fields of the text after it. -/
def putField (separator c : Char) (fields : List (List Char)) : List (List Char) :=
  if c = separator then [] :: fields
  else
    match fields with
    | [] => [[c]]
    | field :: more => (c :: field) :: more

/-- The texts between separators; one more than there are separators. -/
def split (separator : Char) (text : List Char) : List (List Char) :=
  text.foldr (putField separator) [[]]

theorem split_cons (separator c : Char) (text : List Char) :
    split separator (c :: text) = putField separator c (split separator text) := rfl

theorem length_split (separator : Char) (text : List Char) :
    (split separator text).length = text.count separator + 1 := by
  induction text with
  | nil => rfl
  | cons c rest ih =>
    rw [split_cons]
    cases fields : split separator rest with
    | nil => simp [fields] at ih
    | cons field more =>
      rw [fields] at ih
      by_cases same : c = separator <;> simp [putField, same] at ih ⊢ <;> omega

theorem split_ne_nil (separator : Char) (text : List Char) : split separator text ≠ [] := by
  intro none
  have := length_split separator text
  simp [none] at this

theorem split_append_cons (separator : Char) (first second : List Char) :
    split separator (first ++ separator :: second)
      = split separator first ++ split separator second := by
  induction first with
  | nil => simp [split, putField]
  | cons c rest ih =>
    rw [List.cons_append, split_cons, ih, split_cons]
    cases fields : split separator rest with
    | nil => exact absurd fields (split_ne_nil separator rest)
    | cons field more => by_cases same : c = separator <;> simp [putField, same]

end Metering.Text
