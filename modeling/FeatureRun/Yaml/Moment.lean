import FeatureRun.Calendar
import FeatureRun.Yaml.Resolve

/-!
# Dates in YAML

A date with an optional time of day and zone. Dates that have the form of one and do not exist are
refused, the zone being looked at first.
-/
set_option autoImplicit false

namespace FeatureRun.Yaml

/-- A date and what follows it: the numbers of a time of day, and a zone in minutes. -/
structure Moment where
  year : Nat
  month : Nat
  day : Nat
  clock : Option (Nat × Nat × Nat)
  zone : Option Int
  deriving DecidableEq, Repr

/-- The first of a date's numbers that is out of its range. -/
def Moment.fault? (m : Moment) : Option Refusal :=
  let zone := m.zone.bind fun z => if z.natAbs < 1440 then none else some (.zoneRange z)
  let date : Option Refusal :=
    if m.year < 1 then some (.yearRange m.year)
    else if m.month < 1 || 12 < m.month then some .monthRange
    else if m.day < 1 || Calendar.daysInMonth m.year m.month < m.day then some .dayRange
    else none
  let clock : Option Refusal :=
    match m.clock with
    | none => none
    | some (h, min, s) =>
      if 23 < h then some .hourRange
      else if 59 < min then some .minuteRange
      else if 59 < s then some .secondRange
      else none
  zone <|> date <|> clock

/-- The stretches of digits in a text. -/
def digitRuns (cs : List Char) : List Nat :=
  let step (c : Char) (runs : List (List Char)) : List (List Char) :=
    if isAsciiDigit c then
      match runs with
      | [] => [[c]]
      | r :: rs => (c :: r) :: rs
    else [] :: runs
  ((cs.foldr step []).filter (· ≠ [])).map fun r => Text.ofDigits 10 (r.map fun c => c.toNat - 48)

/-- The zone at the end of a date that has a time of day, in minutes. -/
def zoneOf (cs : List Char) : Option Int :=
  let sign := cs.reverse.find? fun c => c == '+' || c == '-'
  match sign with
  | none => none
  | some s =>
    match digitRuns (cs.reverse.takeWhile (· ≠ s)).reverse with
    | h :: rest => some (Text.signed (s == '-') (h * 60 + rest.headD 0))
    | [] => none

/-- The numbers of a text that has the form of a date; a line feed at its end does not count. -/
def moment? (s : String) : Option Moment :=
  let cs := withoutFinalBreak s.toList
  if !Form.isMoment cs then none
  else
    let isDatePart (c : Char) : Bool := isAsciiDigit c || c == '-'
    let later := cs.dropWhile isDatePart
    match digitRuns (cs.takeWhile isDatePart), digitRuns later with
    | y :: m :: d :: _, h :: min :: sec :: _ => some ⟨y, m, d, some (h, min, sec), zoneOf later⟩
    | y :: m :: d :: _, _ => some ⟨y, m, d, none, none⟩
    | _, _ => none

/-- The date that a text gives. -/
def readMoment (s : String) : Except Refusal Moment :=
  match moment? s with
  | none => .error .formless
  | some m =>
    match m.fault? with
    | some r => .error r
    | none => .ok m

end FeatureRun.Yaml
