import Metering.Aggregate.Basic
import Metering.Instrument.Descriptor

/-!
# Records

A record is the aggregate of one series at one point in time. Series are ordered by the name of
their instrument and then by the canonical text of their labels.
-/

namespace Metering

/-- What identifies a series: the name of its instrument and its labels in canonical form. -/
structure SeriesKey where
  name : String
  labels : String
deriving DecidableEq, Repr, Inhabited

namespace SeriesKey

instance : Ord SeriesKey := ⟨compareLex (compareOn SeriesKey.name) (compareOn SeriesKey.labels)⟩

instance : Std.TransOrd SeriesKey :=
  inferInstanceAs (Std.TransCmp (compareLex (compareOn SeriesKey.name) (compareOn SeriesKey.labels)))

instance : Std.LawfulEqOrd SeriesKey where
  eq_of_compare := by
    intro a b same
    obtain ⟨names, labels⟩ := compareLex_eq_eq.1 same
    cases a
    cases b
    simp only [compareOn] at names labels
    rw [SeriesKey.mk.injEq]
    exact ⟨Std.LawfulEqOrd.eq_of_compare names, Std.LawfulEqOrd.eq_of_compare labels⟩

end SeriesKey

/-- The aggregate of a series at a point in time. -/
structure Record where
  descriptor : Descriptor
  /-- The labels of the series in canonical form. -/
  labels : String
  value : Aggregate
  timestamp : Timestamp
deriving DecidableEq, Inhabited

namespace Record

/-- The name of the instrument. -/
def name (r : Record) : String := r.descriptor.name

/-- What identifies the series of the record. -/
def key (r : Record) : SeriesKey := ⟨r.name, r.labels⟩

/-- The same series and time with another aggregate. -/
def withValue (r : Record) (value : Aggregate) : Record := { r with value }

end Record

end Metering
