import ImportRepair.Text.Basic
import ImportRepair.Text.Printable

/-!
# Quoted texts in messages

A message quotes a text between apostrophes, or between quotation marks when
it holds apostrophes and no quotation mark.  The delimiter, the backslash and
every character that does not print are written as escapes.
-/

namespace ImportRepair

/-- The last `width` hexadecimal digits of `n`, in lower case. -/
def hexDigits (width n : Nat) : Text :=
  let ds := Nat.toDigits 16 n
  List.replicate (width - ds.length) '0' ++ ds

/-- A character as it stands between the delimiters `delimiter`. -/
def escapeChar (delimiter c : Char) : Text :=
  if c = delimiter || c = '\\' then ['\\', c]
  else if c = '\n' then ['\\', 'n']
  else if c = '\r' then ['\\', 'r']
  else if c = '\t' then ['\\', 't']
  else if isPrintable c then [c]
  else if c.toNat < 0x100 then '\\' :: 'x' :: hexDigits 2 c.toNat
  else if c.toNat < 0x10000 then '\\' :: 'u' :: hexDigits 4 c.toNat
  else '\\' :: 'U' :: hexDigits 8 c.toNat

def delimiterOf (t : Text) : Char :=
  if '\'' ∈ t && !('"' ∈ t) then '"' else '\''

/-- The text as a message quotes it. -/
def quoted (t : Text) : Text :=
  let d := delimiterOf t
  d :: (t.flatMap (escapeChar d) ++ [d])

/-- A list of texts as a message quotes it. -/
def quotedList (ts : List Text) : Text :=
  '[' :: ([',', ' '].intercalate (ts.map quoted) ++ [']'])

end ImportRepair
