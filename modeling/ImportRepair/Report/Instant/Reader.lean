import ImportRepair.Report.Instant
import ImportRepair.Text.Quoted
import ImportRepair.Text.Word

/-!
# Reading instants

An instant is written as a date, a separator of any kind, and a time of day,
which may be left out together with the separator.  The date names a month and
a day, or a week and a weekday; the time may end with a fraction of a second
and with the distance from universal time.
-/

namespace ImportRepair

/-- Why a text is no instant. -/
inductive InstantError where
  | malformed (t : Text)
  /-- The distance from universal time is a day or more. -/
  | offset (microseconds : Int)
  | year (n : Nat)
  | month
  | day
  | hour
  | minute
  | second
deriving DecidableEq, Repr

/-- A distance in days, seconds and microseconds, where parts that are zero are left out. -/
def distanceText (microseconds : Int) : String :=
  let seconds := microseconds.fdiv 1000000
  let parts := [("days", seconds.fdiv 86400), ("seconds", seconds.fmod 86400),
    ("microseconds", microseconds.fmod 1000000)]
  let shown := ", ".intercalate ((parts.filter (·.2 != 0)).map fun p => s!"{p.1}={p.2}")
  s!"datetime.timedelta({shown})"

def InstantError.message : InstantError → String
  | malformed t => s!"Invalid isoformat string: {String.ofList (quoted t)}"
  | offset d => "offset must be a timedelta strictly between -timedelta(hours=24) and " ++
      s!"timedelta(hours=24), not {distanceText d}."
  | year n => s!"year {n} is out of range"
  | month => "month must be in 1..12"
  | day => "day is out of range for month"
  | hour => "hour must be in 0..23"
  | minute => "minute must be in 0..59"
  | second => "second must be in 0..59"

namespace Instant

/-! ### Numbers -/

def digit? (c : Char) : Option Nat := if isAsciiDigit c then some (c.toNat - '0'.toNat) else none

def number? (ds : Text) : Option Nat := do
  return (← ds.mapM digit?).foldl (fun n d => 10 * n + d) 0

/-- The text may end here.  What follows a character NUL does not count. -/
def isEnd : Text → Bool
  | [] => true
  | c :: _ => c == '\x00'

def twoDigits? : Text → Option (Nat × Text)
  | a :: b :: r => return (← number? [a, b], r)
  | _ => none

/-! ### Dates -/

/-- A date as it is written. -/
inductive DateText where
  | day (year month day : Nat)
  | weekday (year week weekday : Nat)
deriving DecidableEq, Repr

/-- Reads a date.  A week without a weekday stands for its Monday. -/
def DateText.ofText? : Text → Option DateText
  | [a, b, c, d, '-', 'W', v, w] => return weekday (← number? [a, b, c, d]) (← number? [v, w]) 1
  | [a, b, c, d, '-', 'W', v, w, '-', u] =>
    return weekday (← number? [a, b, c, d]) (← number? [v, w]) (← number? [u])
  | [a, b, c, d, 'W', v, w] => return weekday (← number? [a, b, c, d]) (← number? [v, w]) 1
  | [a, b, c, d, 'W', v, w, u] =>
    return weekday (← number? [a, b, c, d]) (← number? [v, w]) (← number? [u])
  | [a, b, c, d, '-', m, n, '-', u, v] =>
    return day (← number? [a, b, c, d]) (← number? [m, n]) (← number? [u, v])
  | [a, b, c, d, m, n, u, v] =>
    return day (← number? [a, b, c, d]) (← number? [m, n]) (← number? [u, v])
  | _ => none

/-- How many characters the date takes at the front of a text.  A digit behind a week is its
    weekday if it stands alone or if an odd number of digits is left for the separator and the
    time; behind a hyphen it is the weekday unless a second digit follows. -/
def dateLength (t : Text) : Nat :=
  match t.drop 4 with
  | '-' :: 'W' :: _ :: _ :: '-' :: _ :: c :: _ => if isAsciiDigit c then 8 else 10
  | ['-', 'W', _, _, '-', _] => 10
  | '-' :: 'W' :: _ => 8
  | '-' :: _ => 10
  | 'W' :: r =>
    let digits := ((r.drop 2).takeWhile isAsciiDigit).length
    if digits = 1 ∨ (0 < digits ∧ digits % 2 = 0) then 8 else 7
  | _ => 8

/-! ### Weeks -/

/-- The weekday of the first of January: 0 is a Monday, on which the year 1 began. -/
def firstWeekday (year : Nat) : Nat := daysBeforeYear year % 7

/-- The number of weeks of a year.  A week belongs to the year of its Thursday. -/
def weekCount (year : Nat) : Nat :=
  if firstWeekday year = 3 || (firstWeekday year = 2 && isLeap year) then 53 else 52

/-- The number of the Monday with which the weeks of a year begin, where 1 is the first day of
    the year 1. -/
def firstMonday (year : Nat) : Nat :=
  let monday := daysBeforeYear year + 1 - firstWeekday year
  if 3 < firstWeekday year then monday + 7 else monday

/-- The month and the day of the `n`-th day since the beginning of a month, where the months
    have the given lengths. -/
def monthAndDay (month n : Nat) : List Nat → Nat × Nat
  | [] => (month, n)
  | length :: lengths =>
    if n ≤ length then (month, n) else monthAndDay (month + 1) (n - length) lengths

/-- The year, the month and the day that have a number, in `year` or a year beside it. -/
def dateOfNumber (year n : Nat) : Nat × Nat × Nat :=
  let y :=
    if n ≤ daysBeforeYear year then year - 1
    else if daysBeforeYear (year + 1) < n then year + 1
    else year
  (y, monthAndDay 1 (n - daysBeforeYear y) (monthLengths y))

namespace DateText

/-- The year has a week, and the week a weekday, of the given numbers. -/
def isWeekday : DateText → Bool
  | day _ _ _ => true
  | weekday y w d => decide (0 < w ∧ w ≤ weekCount y ∧ 0 < d ∧ d ≤ 7)

/-- The year, the month and the day.  The calendar has no year 0, so its weeks lie in no month. -/
def date : DateText → Except InstantError (Nat × Nat × Nat)
  | day y m d => .ok (y, m, d)
  | weekday 0 _ _ => .error .month
  | weekday y w d => .ok (dateOfNumber y (firstMonday y + 7 * (w - 1) + (d - 1)))

end DateText

/-! ### Times of day -/

/-- A time of day as it is written, or a distance from universal time. -/
structure ClockText where
  /-- The hour, the minute and the second, as far as they are written. -/
  numbers : List Nat
  microsecond : Nat := 0
  /-- Something is left behind it. -/
  isFollowed : Bool := false
deriving DecidableEq, Repr

namespace ClockText

/-- Reads a fraction of a second.  Digits behind the sixth do not count. -/
def fraction? (t : Text) : Option ClockText := do
  let ds := t.take 6
  let n ← number? (ds ++ List.replicate (6 - ds.length) '0')
  return { numbers := [], microsecond := n,
           isFollowed := !isEnd ((t.drop 6).dropWhile isAsciiDigit) }

/-- Reads at most `k` numbers of two digits and a fraction behind them.  `colons` says whether
    colons stand between the numbers, if that is settled.  A single ASCII character behind a
    number is left behind. -/
def ofText? (colons : Option Bool) : Nat → Text → Option ClockText
  | 0, t => fraction? t
  | k + 1, t => do
    let (n, rest) ← twoDigits? t
    match rest with
    | [] => return { numbers := [n] }
    | c :: r =>
      if r.isEmpty && decide (c.toNat < 128) then
        return { numbers := [n], isFollowed := !isEnd rest }
      else
        let colons := colons.getD (c == ':')
        let next ←
          if colons && c == ':' then ofText? (some colons) k r
          else if c == '.' || c == ',' then fraction? r
          else if colons then none
          else ofText? (some colons) k rest
        return { next with numbers := n :: next.numbers }

variable (c : ClockText)

/-- The hour.  A number that is not written is zero. -/
def hour : Nat := c.numbers[0]?.getD 0

def minute : Nat := c.numbers[1]?.getD 0

def second : Nat := c.numbers[2]?.getD 0

/-- The whole seconds. -/
def seconds : Nat := (c.hour * 60 + c.minute) * 60 + c.second

end ClockText

/-- Reads an hour and what may follow it. -/
def readClock? (t : Text) : Option ClockText := ClockText.ofText? none 3 t

/-- A character with which the distance from universal time begins. -/
def isZoneMark (c : Char) : Bool := c == '+' || c == '-' || c == 'Z'

/-- Reads the distance from universal time.  A distance of less than a second does not
    count. -/
def readZone? : Text → Option Int
  | [] => none
  | mark :: r =>
    if mark == 'Z' then if isEnd r then some 0 else none
    else do
      let c ← readClock? r
      if c.isFollowed then none
      else
        let d : Int := if c.seconds = 0 then 0 else c.seconds * 1000000 + c.microsecond
        return if mark == '-' then -d else d

/-- Reads a time of day.  In front of the distance from universal time, what is left behind the
    numbers does not count. -/
def readTime? (t : Text) : Option (ClockText × Option Int) := do
  let c ← readClock? (t.takeWhile (!isZoneMark ·))
  match t.dropWhile (!isZoneMark ·) with
  | [] => if c.isFollowed then none else return (c, none)
  | zone => return (c, some (← readZone? zone))

/-! ### Instants -/

/-- What a text writes, before it is known to be an instant of the calendar. -/
def readParts? (t : Text) : Option (DateText × ClockText × Option Int) := do
  let n := dateLength t
  let date ← DateText.ofText? (t.take n)
  if !date.isWeekday then none
  else match t.drop n with
    | [] => return (date, { numbers := [] }, none)
    | _ :: time => return (date, ← readTime? time)

def dayMicroseconds : Nat := 86400000000

def lastYear : Nat := 9999

/-- The first thing that is wrong with an instant. -/
def fault? (t : Instant) : Option InstantError :=
  if t.year = 0 ∨ lastYear < t.year then some (.year t.year)
  else if t.month = 0 ∨ 12 < t.month then some .month
  else if t.day = 0 ∨ (monthLengths t.year)[t.month - 1]?.getD 0 < t.day then some .day
  else if 24 ≤ t.hour then some .hour
  else if 60 ≤ t.minute then some .minute
  else if 60 ≤ t.second then some .second
  else none

/-- The instant that a text writes. -/
def ofText (t : Text) : Except InstantError Instant := do
  match readParts? t with
  | none => throw (.malformed t)
  | some (date, clock, offset) =>
    match offset.filter (dayMicroseconds ≤ ·.natAbs) with
    | some d => throw (.offset d)
    | none =>
      let (year, month, day) ← date.date
      let instant : Instant :=
        { year, month, day, hour := clock.hour, minute := clock.minute, second := clock.second,
          microsecond := clock.microsecond, offset }
      match instant.fault? with
      | some e => throw e
      | none => return instant

end Instant

end ImportRepair
