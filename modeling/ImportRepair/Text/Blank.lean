import ImportRepair.Text.Basic
import ImportRepair.Text.Ranges

/-!
# White space

White space is the class of 25 characters of Unicode that separate words or
lines, together with the four information separators U+001C to U+001F.  The
zero width space and the byte order mark are not among them.
-/

namespace ImportRepair

/-- The white space of Unicode and the information separators. -/
def blankRanges : Ranges :=
  [(0x09, 0x0D), (0x1C, 0x20), (0x85, 0x85), (0xA0, 0xA0), (0x1680, 0x1680), (0x2000, 0x200A),
   (0x2028, 0x2029), (0x202F, 0x202F), (0x205F, 0x205F), (0x3000, 0x3000)]

def isBlank (c : Char) : Bool := blankRanges.covers c.toNat

namespace Text

def trimLeft (t : Text) : Text := t.dropWhile isBlank

def trimRight (t : Text) : Text := t.dropEndWhile isBlank

def trim (t : Text) : Text := trimRight (trimLeft t)

def allBlank (t : Text) : Bool := t.all isBlank

/-- What follows the leading white space, if there is any. -/
def afterBlanks? : Text → Option Text
  | [] => none
  | c :: r => if isBlank c then some (trimLeft r) else none

/-- The nonempty trimmed pieces between commas. -/
def items (t : Text) : List Text := ((t.splitOn ',').map trim).filter (!·.isEmpty)

end Text

end ImportRepair
