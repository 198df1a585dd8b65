import ImportRepair.Text.Basic
import ImportRepair.Text.Blank
import ImportRepair.Text.Quoted

/-!
# Decimal numerals

A numeral may be written with the decimal digits of any script.  Reading one
is limited to 4300 digits, leading zeros included, so that the work stays
proportional to the text; a longer one is refused.
-/

namespace ImportRepair

/-- The zeros of the decimal digits of Unicode 14; the other nine digits of a script follow its
    zero in order. -/
def digitZeros : List Nat :=
  [0x0030, 0x0660, 0x06F0, 0x07C0, 0x0966, 0x09E6, 0x0A66, 0x0AE6, 0x0B66, 0x0BE6,
   0x0C66, 0x0CE6, 0x0D66, 0x0DE6, 0x0E50, 0x0ED0, 0x0F20, 0x1040, 0x1090, 0x17E0,
   0x1810, 0x1946, 0x19D0, 0x1A80, 0x1A90, 0x1B50, 0x1BB0, 0x1C40, 0x1C50, 0xA620,
   0xA8D0, 0xA900, 0xA9D0, 0xA9F0, 0xAA50, 0xABF0, 0xFF10, 0x104A0, 0x10D30, 0x11066,
   0x110F0, 0x11136, 0x111D0, 0x112F0, 0x11450, 0x114D0, 0x11650, 0x116C0, 0x11730, 0x118E0,
   0x11950, 0x11C50, 0x11D50, 0x11DA0, 0x16A60, 0x16AC0, 0x16B50, 0x1D7CE, 0x1D7D8, 0x1D7E2,
   0x1D7EC, 0x1D7F6, 0x1E140, 0x1E2F0, 0x1E950, 0x1FBF0]

def digitValue? (c : Char) : Option Nat :=
  (digitZeros.find? fun z => decide (z ≤ c.toNat) && decide (c.toNat ≤ z + 9)).map (c.toNat - ·)

def isDigit (c : Char) : Bool := (digitValue? c).isSome

/-- Why a text is not read as an integer. -/
inductive NumeralError where
  /-- The numeral has more digits than the limit. -/
  | tooLong (digits : Nat)
  /-- The text is not a numeral. -/
  | malformed (text : Text)
deriving DecidableEq, Repr

namespace Numeral

def maxDigits : Nat := 4300

def value (ds : Text) : Nat :=
  ds.foldl (fun n c => 10 * n + (digitValue? c).getD 0) 0

/-- The number that a sequence of digits denotes, unless there are too many of them. -/
def ofDigits (ds : Text) : Except NumeralError Nat :=
  if maxDigits < ds.length then .error (.tooLong ds.length) else .ok (value ds)

/-- The longest run of digits at the front, if there is one, and what follows it. -/
def digits? (t : Text) : Option (Text × Text) :=
  match t.takeWhile isDigit with
  | [] => none
  | ds => some (ds, t.dropWhile isDigit)

/-- White space around an integer.  The information separators do not count. -/
def isMargin (c : Char) : Bool :=
  if c.toNat < 127 then c = ' ' || (decide (9 ≤ c.toNat) && decide (c.toNat ≤ 13)) else isBlank c

/-- Drops single underscores that stand between digits. -/
def joinGroups : Text → Option Text
  | [] => some []
  | '_' :: _ => none
  | c :: '_' :: d :: r => if d = '_' then none else (joinGroups (d :: r)).map (c :: ·)
  | c :: r => if r = ['_'] then none else (joinGroups r).map (c :: ·)

/-- An integer: white space, a sign, digits that single underscores may group, white space. -/
def integer (t : Text) : Except NumeralError Int :=
  let (negative, rest) := match t.dropWhile isMargin with
    | '-' :: r => (true, r)
    | '+' :: r => (false, r)
    | r => (false, r)
  let run := rest.takeWhile fun c => isDigit c || c == '_'
  let tail := rest.dropWhile fun c => isDigit c || c == '_'
  match joinGroups run with
  | none | some [] => .error (.malformed t)
  | some ds => do
    let n ← ofDigits ds
    if (tail.dropWhile isMargin).isEmpty then .ok (if negative then -(n : Int) else n)
    else .error (.malformed t)

end Numeral

def NumeralError.message : NumeralError → String
  | .tooLong n =>
    s!"Exceeds the limit ({Numeral.maxDigits} digits) for integer string conversion: " ++
    s!"value has {n} digits; use sys.set_int_max_str_digits() to increase the limit"
  | .malformed t =>
    "invalid literal for int() with base 10: " ++ String.ofList ((quoted t).take 200)

end ImportRepair
