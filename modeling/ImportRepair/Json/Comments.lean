import ImportRepair.Text.Blank

/-!
# JSON with comments

Configuration files may hold line comments, block comments and a comma after
the last item of an array or object.  Comments are dropped outside strings;
a string ends at a quotation mark that no backslash precedes.  Afterwards every
comma in front of a closing bracket is dropped.
-/

namespace ImportRepair.Jsonc

/-- Where a character of the text stands. -/
inductive Region where
  | plain
  | string
  | lineComment
  | blockComment
  /-- The last character of a comment's delimiter is still to come. -/
  | closing
  | opening (block : Bool)
deriving DecidableEq, Repr

/-- The text without its comments, where `previous` is the character in front of it. -/
def dropComments (region : Region) (previous : Char) : Text → Text
  | [] => []
  | c :: r =>
    match region with
    | .opening block => dropComments (if block then .blockComment else .lineComment) c r
    | .closing => dropComments .plain c r
    | .lineComment =>
      if c = '\n' then c :: dropComments .plain c r else dropComments .lineComment c r
    | .blockComment =>
      if c = '*' && r.head? = some '/' then dropComments .closing c r
      else dropComments .blockComment c r
    | .string =>
      c :: dropComments (if c = '"' && previous != '\\' then .plain else .string) c r
    | .plain =>
      if c = '"' && previous != '\\' then c :: dropComments .string c r
      else if c = '/' && r.head? = some '/' then dropComments (.opening false) c r
      else if c = '/' && r.head? = some '*' then dropComments (.opening true) c r
      else c :: dropComments .plain c r

def isCloser (c : Char) : Bool := c == ']' || c == '\x7d'

/-- The text without the commas that only white space separates from a closing bracket. -/
def dropLastCommas : Text → Text
  | [] => []
  | c :: r =>
    if c = ',' && (Text.trimLeft r).head?.any isCloser then dropLastCommas r
    else c :: dropLastCommas r

def strip (t : Text) : Text := dropLastCommas (dropComments .plain ' ' t)

end ImportRepair.Jsonc
