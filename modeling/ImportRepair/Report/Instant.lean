import ImportRepair.Text.Basic

/-!
# Instants of the clock

A report tells when a run started and when it ended.  An instant is a date and
a time of day of the calendar; it may know its distance from universal time.
-/

namespace ImportRepair

/-- A date and a time of day, to the microsecond. -/
structure Instant where
  year : Nat
  month : Nat
  day : Nat
  hour : Nat := 0
  minute : Nat := 0
  second : Nat := 0
  microsecond : Nat := 0
  /-- The distance from universal time in microseconds, east of Greenwich positive. -/
  offset : Option Int := none
deriving DecidableEq, Repr

namespace Instant

/-! ### Text -/

/-- The number with leading zeros up to `width` digits. -/
def padded (width n : Nat) : String :=
  let ds := Nat.toDigits 10 n
  String.ofList (List.replicate (width - ds.length) '0' ++ ds)

/-- The distance from universal time, as it follows the time of day. -/
def offsetText (offset : Int) : String :=
  let n := offset.natAbs / 1000000
  let micros := offset.natAbs % 1000000
  let sign := if offset < 0 then "-" else "+"
  let fraction := if micros = 0 then "" else s!".{padded 6 micros}"
  let seconds := if n % 60 = 0 ∧ micros = 0 then "" else s!":{padded 2 (n % 60)}{fraction}"
  s!"{sign}{padded 2 (n / 3600)}:{padded 2 (n / 60 % 60)}{seconds}"

variable (t : Instant)

/-- The date and the time of day to the second, without the distance from universal time. -/
def clockText : String :=
  s!"{padded 4 t.year}-{padded 2 t.month}-{padded 2 t.day}" ++
    s!"T{padded 2 t.hour}:{padded 2 t.minute}:{padded 2 t.second}"

def zoneText : String := (t.offset.map offsetText).getD ""

def secondsText : String := t.clockText ++ t.zoneText

def text : String :=
  let fraction := if t.microsecond = 0 then "" else s!".{padded 6 t.microsecond}"
  t.clockText ++ fraction ++ t.zoneText

/-! ### Days -/

def isLeap (year : Nat) : Bool := year % 4 == 0 && (year % 100 != 0 || year % 400 == 0)

def monthLengths (year : Nat) : List Nat :=
  [31, if isLeap year then 29 else 28, 31, 30, 31, 30, 31, 31, 30, 31, 30, 31]

/-- The number of days of a year in front of a month. -/
def daysBeforeMonth (year month : Nat) : Nat :=
  ((monthLengths year).take (month - 1)).foldl (· + ·) 0

/-- The number of days in front of a year, since the year 1. -/
def daysBeforeYear (year : Nat) : Nat :=
  let y := year - 1
  y * 365 + y / 4 - y / 100 + y / 400

/-! ### Durations -/

/-- The microseconds since the beginning of the year 1, by the clock of the instant. -/
def localMicroseconds : Int :=
  let days := daysBeforeYear t.year + daysBeforeMonth t.year t.month + t.day
  ((((days * 24 + t.hour) * 60 + t.minute) * 60 + t.second) * 1000000 + t.microsecond : Nat)

/-- The microseconds from `start` to `t`, if both know their distance from universal time or
    neither does. -/
def microsecondsSince? (start : Instant) : Option Int :=
  match t.offset, start.offset with
  | none, none => some (t.localMicroseconds - start.localMicroseconds)
  | some a, some b =>
    some (t.localMicroseconds - a - (start.localMicroseconds - b))
  | _, _ => none

end Instant

end ImportRepair
