import Metering.Controller

/-!
# The loop of a controller

While its schedule is running, a controller has a thread of its own. The thread waits for a period
and ticks, again and again. A flag tells it to leave: it looks at the flag whenever it wakes, and
before it ticks. Stopping a controller sets the flag, waits until the thread has left, and ticks once
more; starting it clears the flag.
-/

namespace Metering

/-- A controller and what it shares with its thread. A thread leaves the loop only when it is told to:
one that ends because its next deadline overflows the clock, with a period of about `2 ^ 63` seconds
or more, is not modelled. -/
structure Pusher (ε : Type) where
  controller : Controller ε
  /-- The flag that tells the thread to leave. -/
  leave : Bool
  /-- Whether there is a thread in the loop. -/
  looping : Bool

namespace Pusher

variable {ε : Type}

/-- A controller that has no thread yet. -/
def ofController (c : Controller ε) : Pusher ε := ⟨c, false, false⟩

/-- Starts the schedule with a new thread, unless it is running. Answers whether it did. -/
def start (x : Pusher ε) : Bool × Pusher ε :=
  match x.controller.start with
  | (true, c) => (true, ⟨c, false, true⟩)
  | (false, c) => (false, { x with controller := c })

variable [Exporter ε]

/-- Ticks, on the thread of the caller or on that of the loop. -/
def tick (clock : Nat → Timestamp) (x : Pusher ε) (p : Provider) : Pusher ε × Provider :=
  let (_, c, p) := x.controller.tick clock p
  ({ x with controller := c }, p)

/-- The thread wakes, if there is one: it leaves if it is told to, and ticks otherwise. Answers
whether it ticked. -/
def wake (clock : Nat → Timestamp) (x : Pusher ε) (p : Provider) : Bool × Pusher ε × Provider :=
  if x.looping then
    if x.leave then (false, { x with looping := false }, p)
    else (true, x.tick clock p)
  else (false, x, p)

/-- Tells the thread of a running schedule to leave, and waits until it has. -/
def join (clock : Nat → Timestamp) (x : Pusher ε) (p : Provider) : Pusher ε × Provider :=
  if x.controller.isActive then ({ x with leave := true }.wake clock p).2 else (x, p)

/-- Stops the schedule, its thread first, and ticks once more. Answers whether it was running. -/
def stop (clock : Nat → Timestamp) (x : Pusher ε) (p : Provider) : Bool × Pusher ε × Provider :=
  let (x, p) := x.join clock p
  let (stopped, c, p) := x.controller.stop clock p
  (stopped, { x with controller := c }, p)

/-- Stops the schedule for good. -/
def drop (clock : Nat → Timestamp) (x : Pusher ε) (p : Provider) : Pusher ε × Provider :=
  let (x, p) := x.join clock p
  let (c, p) := x.controller.drop clock p
  ({ x with controller := c }, p)

end Pusher

end Metering
