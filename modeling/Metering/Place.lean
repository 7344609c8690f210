import Metering.Provider.Basic

/-!
# The provider of a process

A process has one place for a provider. Reading the place before a provider was put there puts an
empty one there, and a provider can be put there only once.
-/

namespace Metering

/-- The place for the provider of a process. -/
structure Place where
  provider? : Option Provider

namespace Place

/-- The place before anything has happened. -/
def vacant : Place := ⟨none⟩

/-- Puts a provider in place, unless there is one. -/
def install (place : Place) (p : Provider) : Except Error Unit × Place :=
  match place.provider? with
  | none => (.ok (), ⟨some p⟩)
  | some _ => (.error .providerInPlace, place)

/-- The provider that is in place, or an empty one put there. -/
def provider (place : Place) : Provider × Place :=
  let p := place.provider?.getD .empty
  (p, ⟨some p⟩)

/-- The meter of the provider in place, which is made if there is none of that name. -/
def meter (place : Place) (name : String) : Meter × Place :=
  let p := place.provider.1.use name
  (p.meter name, ⟨some p⟩)

end Place

end Metering
