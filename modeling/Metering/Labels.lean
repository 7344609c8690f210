import Metering.Keyed.Basic

/-!
# Label sets

Labels are a map from keys to values. A series is found under the canonical text of its labels,
`k1:v1,k2:v2,` in key order, where a backslash is put before each separator that belongs to a key
or value.
-/

namespace Metering

/-- The labels of a series. -/
structure LabelSet where
  pairs : Keyed String String
deriving DecidableEq, Inhabited

namespace LabelSet

/-- No labels. -/
def empty : LabelSet := ⟨∅⟩

/-- The labels of a list of pairs; a later value of the same key wins. -/
def ofList (pairs : List (String × String)) : LabelSet := ⟨Keyed.ofList pairs⟩

/-- The value of a label. -/
def get? (l : LabelSet) (key : String) : Option String := l.pairs.get? key

/-- The labels in key order. -/
def toList (l : LabelSet) : List (String × String) := l.pairs.toList

/-- The number of labels. -/
def size (l : LabelSet) : Nat := l.pairs.size

/-- Whether there are no labels. -/
def isEmpty (l : LabelSet) : Bool := l.pairs.isEmpty

/-- Whether a character of a key or value has to be told from a separator. -/
def isSpecial (c : Char) : Bool := c = ':' || c = ',' || c = '\\'

/-- Puts a backslash before each special character. -/
def escape : List Char → List Char
  | [] => []
  | c :: rest => if isSpecial c then '\\' :: c :: escape rest else c :: escape rest

/-- One label as it stands in a canonical text. -/
def canonicalPair (pair : String × String) : List Char :=
  escape pair.1.toList ++ ':' :: (escape pair.2.toList ++ [','])

/-- The text under which the series of these labels is found. -/
def canonical (l : LabelSet) : String := String.ofList (l.toList.flatMap canonicalPair)

end LabelSet

end Metering
