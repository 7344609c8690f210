import Metering.Instrument.Descriptor
import Metering.Aggregate.Aggregation
import Metering.Labels

/-!
# Callbacks of observers

An observer has a callback, which is run once for each collection that reaches it. What a callback
does is a list of actions. They may report values for the observer itself, update and create other
instruments, and collect a meter again. The actions of each call are laid down beforehand, or they
report a backlog that others add to.
-/

namespace Metering

/-- Where an instrument is found: its meter and its name there. -/
structure InstrumentId where
  meter : String
  name : String
deriving DecidableEq, Repr, Inhabited

/-- What a callback can do. Other instruments are known to it by tags. -/
inductive Action
  /-- Reports a value for the observer whose callback this is. -/
  | observe (value : Number) (labels : LabelSet)
  /-- Updates the instrument with a tag. -/
  | update (tag : String) (value : Number) (labels : LabelSet)
  /-- Creates an instrument and gives it a tag; an observer does `script`, call by call. -/
  | create (tag meter : String) (descriptor : Descriptor) (choice : Option Aggregation)
      (script : List (List Action))
  /-- Collects a meter. -/
  | collect (meter : String)
deriving Inhabited

/-- Where a callback takes its actions from. -/
inductive Callback.Source
  /-- The actions of the calls to come; there are none after the last. -/
  | script (calls : List (List Action))
  /-- Each call reports what has been added since the call before it. -/
  | backlog (pending : Nat)

/-- The callback of an observer. -/
structure Callback where
  /-- The tag under which the observer was created. -/
  tag : String
  /-- The number of calls so far. -/
  calls : Nat
  source : Callback.Source

namespace Callback

/-- A callback with the actions of its calls. -/
def ofScript (tag : String) (calls : List (List Action)) : Callback := ⟨tag, 0, .script calls⟩

/-- The actions of the next call, and the callback after it. -/
def next (c : Callback) : List Action × Callback :=
  let calls := c.calls + 1
  match c.source with
  | .script [] => ([], { c with calls })
  | .script (actions :: rest) => (actions, { c with calls, source := .script rest })
  | .backlog pending =>
    ([.observe (.integer (Int64.ofIntClamp pending)) .empty], { c with calls, source := .backlog 0 })

/-- Adds one to the backlog of a callback that reports one. -/
def addPending (c : Callback) : Callback :=
  match c.source with
  | .script _ => c
  | .backlog pending => { c with source := .backlog (pending + 1) }

end Callback

/-! ## How often callbacks still collect -/

mutual

/-- The collections that an action can lead to. -/
def Action.collections : Action → Nat
  | .observe _ _ => 0
  | .update _ _ _ => 0
  | .create _ _ _ _ script => scriptCollections script
  | .collect _ => 1

/-- The collections that the actions of one call can lead to. -/
def callCollections : List Action → Nat
  | [] => 0
  | a :: rest => a.collections + callCollections rest

/-- The collections that the calls of a script can lead to. -/
def scriptCollections : List (List Action) → Nat
  | [] => 0
  | call :: rest => callCollections call + scriptCollections rest

end

/-- The collections that the calls to come can lead to. -/
def Callback.collections (c : Callback) : Nat :=
  match c.source with
  | .script calls => scriptCollections calls
  | .backlog _ => 0

end Metering
