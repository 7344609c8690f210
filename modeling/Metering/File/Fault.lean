/-!
# Files that cannot be read

The reasons for which the content of a file is not to be had, in the words of the system.
-/

namespace Metering

/-- Why a file cannot be read. -/
inductive FileFault
  /-- There is nothing at the path, or a directory on the way is missing. -/
  | notFound
  /-- The file or a directory on the way is closed to the reader. -/
  | denied
  /-- Something on the way is not a directory. -/
  | notDirectory
  /-- The path leads to a directory. -/
  | isDirectory
  /-- The path, or a name in it, is longer than any can be. -/
  | nameTooLong
  /-- Another reason, in the words of the system. -/
  | stated (reason : String)
deriving DecidableEq, Repr

namespace FileFault

/-- The number under which the system knows a reason. -/
def number? : FileFault → Option Nat
  | notFound => some 2
  | denied => some 13
  | notDirectory => some 20
  | isDirectory => some 21
  | nameTooLong => some 36
  | stated _ => none

/-- The words for a reason. -/
def words : FileFault → String
  | notFound => "No such file or directory"
  | denied => "Permission denied"
  | notDirectory => "Not a directory"
  | isDirectory => "Is a directory"
  | nameTooLong => "File name too long"
  | stated reason => reason

/-- The words for a reason with its number. -/
def message (fault : FileFault) : String :=
  match fault.number? with
  | some n => s!"{fault.words} (os error {n})"
  | none => fault.words

/-- The reason with a number, if it is one of those that have one. -/
def ofNumber? (n : Nat) : Option FileFault :=
  [notFound, denied, notDirectory, isDirectory, nameTooLong].find? fun fault =>
    fault.number? = some n

end FileFault

end Metering
