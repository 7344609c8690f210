import Metering.Controller
import Metering.Export.Memory

/-!
# Operations of a session

What a program can ask for, step by step, and what it is answered. Instruments are named by tags;
handles, kept records, processors and controllers by names of their own.
-/

namespace Metering

/-- One step of a session. -/
inductive Operation
  | create (tag meter : String) (descriptor : Descriptor) (choice : Option Aggregation)
      (script : List (List Action))
  | update (tag : String) (value : Number) (labels : LabelSet)
  /-- Gives an instrument a second tag. -/
  | copy (tag second : String)
  | describe (tag : String)
  | series (tag : String)
  | names (meter : String)
  | meters
  | batch (meter : String) (labels : LabelSet) (measurements : List (String × Number))
  | measure (tag : String) (value : Number)
  | debugInstrument (tag : String)
  | debugMeter (meter : String)
  /-- Collects a meter, and keeps the records under a name if one is given. -/
  | collect (meter : String) (keep : Option String)
  | bind (tag : String) (labels : LabelSet) (handle : String)
  | clone (handle second : String)
  | release (handle : String)
  | boundUpdate (handle : String) (value : Number)
  /-- Updates the aggregator of a series directly. -/
  | boundRaw (handle : String) (value : Number)
  /-- Merges an aggregate into the aggregator of a series directly. -/
  | boundMerge (handle : String) (value : Aggregate)
  | boundCheckpoint (handle : String)
  | boundDrain (handle : String)
  | bound (handle : String)
  | processor (name : String) (mode : Processor.Mode)
  | process (processor records : String)
  | checkpoint (processor : String)
  | finish (processor : String)
  /-- Makes a controller. One that had the name before is dropped. -/
  | controller (name meter : String) (mode : Processor.Mode) (schedule : Schedule)
  | tick (controller : String)
  | start (controller : String)
  | stop (controller : String)
  | drop (controller : String)
  | active (controller : String)
  | failing (controller : String) (fail : Bool)
  | clear (controller : String)
  | batches (controller : String)
  | debugController (controller : String)

/-- What a step answers. -/
inductive Answer
  | result (r : Except Error Unit)
  | descriptor (r : Except Error Descriptor)
  | series (all : List (String × Series))
  | names (meter : String) (instruments : List String)
  | meters (names : List String)
  | measurement (name : String) (value : Number) (debug : String)
  | records (rs : List Record)
  | references (n : Nat)
  | aggregator (a : Aggregator)
  | aggregate (a : Aggregate)
  | bound (labels : String) (s : Series)
  | processed (results : List (Except Error Unit)) (series : Nat)
  | tracked (series : Nat)
  | controller (r : Except Error (Controller MemoryExporter))
  | exported (records : Nat)
  | flag (b : Bool)
  | batches (all : List (List Record))
  | text (s : String)
  /-- The step names something that there is not. -/
  | unknown (name : String)

end Metering
