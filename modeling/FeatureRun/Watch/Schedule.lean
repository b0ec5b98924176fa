import FeatureRun.OrderedMap

/-!
# Deadlines

A schedule holds one deadline for every pending key, in the order in which the keys were last
scheduled. Scheduling a key again moves its deadline and its place, so a burst of edits to one file
leads to one reading of it.
-/
set_option autoImplicit false

namespace FeatureRun

structure Schedule where
  /-- How long after it was scheduled a key is due, in seconds. -/
  delay : Float
  deadlines : OrderedMap String Float

namespace Schedule

/-- The delay that is usual where none is set. -/
def usualDelay : Float := 1.2

def empty (delay : Float) : Schedule := ⟨delay, .empty⟩

/-- Makes a key due `delay` after `clock`, whatever its deadline was before. -/
def add (s : Schedule) (clock : Float) (key : String) : Schedule :=
  { s with deadlines := (s.deadlines.erase key).insert key (clock + s.delay) }

/-- Whether a key is pending. -/
def isPending (s : Schedule) (key : String) : Bool := s.deadlines.contains key

def cancel (s : Schedule) (key : String) : Schedule :=
  { s with deadlines := s.deadlines.erase key }

def pending (s : Schedule) : List String := s.deadlines.keys

/-- The keys whose deadlines have passed. -/
def due (s : Schedule) (now : Float) : List String :=
  (s.deadlines.entries.filter fun e => e.2 ≤ now).map Prod.fst

/-- The schedule without the keys that are due. -/
def dropDue (s : Schedule) (now : Float) : Schedule :=
  { s with deadlines := s.deadlines.filter fun _ deadline => !decide (deadline ≤ now) }

def clear (s : Schedule) : Schedule := { s with deadlines := .empty }

end Schedule
end FeatureRun
