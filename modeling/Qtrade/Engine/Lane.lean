import Qtrade.Sdk

/-!
# The queue of Lane-T

The trader adapter calls back, and `event_reactor_loop.cpp` queues what it calls back with. The counters of the
loop are left out here.
-/

namespace Qtrade.Engine

/-- What the trader adapter calls back with. -/
inductive Callback
  | order (report : Order)
  | trade (report : Trade)
deriving DecidableEq

structure LanePolicy where
  capacity : Nat := 8192
  dropOldestOnFull : Bool := false

structure EventReactorLoop where
  policy : LanePolicy := {}
  accepting : Bool := false
  queue : List Callback := []

namespace EventReactorLoop

def full (s : EventReactorLoop) : Bool := decide (s.policy.capacity ≤ s.queue.length)

def publish (s : EventReactorLoop) (event : Callback) : EventReactorLoop :=
  if !s.accepting then s
  else if s.full then
    if s.policy.dropOldestOnFull then { s with queue := s.queue.tail ++ [event] } else s
  else { s with queue := s.queue ++ [event] }

theorem publish_room {s : EventReactorLoop} (haccepting : s.accepting = true) (hroom : s.full = false)
    (event : Callback) : s.publish event = { s with queue := s.queue ++ [event] } := by
  unfold publish
  simp [haccepting, hroom]

theorem publish_full {s : EventReactorLoop} (hpolicy : s.policy.dropOldestOnFull = false) (hfull : s.full = true)
    (event : Callback) : s.publish event = s := by
  unfold publish
  simp [hpolicy, hfull]

end EventReactorLoop

end Qtrade.Engine
