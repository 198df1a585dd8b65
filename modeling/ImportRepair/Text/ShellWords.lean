import ImportRepair.Text.Basic

/-!
# Words of a command

A command line is split into words as a shell does it.  Blanks separate words;
between apostrophes every character stands for itself; between quotation marks
a backslash takes its meaning from a quotation mark or backslash behind it;
elsewhere it takes the meaning from any character.
-/

namespace ImportRepair.Shell

/-- Why a command cannot be split. -/
inductive SplitError where
  | openQuotation
  | danglingEscape
deriving DecidableEq, Repr

def SplitError.message : SplitError → String
  | openQuotation => "No closing quotation"
  | danglingEscape => "No escaped character"

/-- Where a character of the command stands. -/
inductive Region where
  | plain
  | single
  | double
  /-- Behind a backslash outside quotation. -/
  | escape
  /-- Behind a backslash between quotation marks. -/
  | doubleEscape
deriving DecidableEq, Repr

def isSeparator (c : Char) : Bool := c == ' ' || c == '\t' || c == '\r' || c == '\n'

def extend (word : Option Text) (c : Char) : Option Text := some (word.getD [] ++ [c])

/-- The words of the text, where `word` has been read of a word that is not complete. -/
def wordsFrom (region : Region) (word : Option Text) : Text → Except SplitError (List Text)
  | [] =>
    match region with
    | .plain => .ok word.toList
    | .single | .double => .error .openQuotation
    | .escape | .doubleEscape => .error .danglingEscape
  | c :: r =>
    match region with
    | .plain =>
      if isSeparator c then (wordsFrom .plain none r).map (word.toList ++ ·)
      else if c = '\\' then wordsFrom .escape word r
      else if c = '\'' then wordsFrom .single (some (word.getD [])) r
      else if c = '"' then wordsFrom .double (some (word.getD [])) r
      else wordsFrom .plain (extend word c) r
    | .single =>
      if c = '\'' then wordsFrom .plain word r else wordsFrom .single (extend word c) r
    | .double =>
      if c = '"' then wordsFrom .plain word r
      else if c = '\\' then wordsFrom .doubleEscape word r
      else wordsFrom .double (extend word c) r
    | .escape => wordsFrom .plain (extend word c) r
    | .doubleEscape =>
      if c = '"' || c = '\\' then wordsFrom .double (extend word c) r
      else wordsFrom .double (extend (extend word '\\') c) r

/-- The words of a command. -/
def words (command : Text) : Except SplitError (List Text) := wordsFrom .plain none command

end ImportRepair.Shell
