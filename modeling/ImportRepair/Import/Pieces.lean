import ImportRepair.Import.Basic
import ImportRepair.Text.Blank
import ImportRepair.Text.Word

/-!
# The pieces of an import line

Both forms of import statements are made of names, a quoted module specifier
and an end of line that may hold a semicolon and a comment.  Each reader takes
its piece from the front of a text and returns it with the rest.
-/

namespace ImportRepair

/-! ### Names -/

def isNameStart (c : Char) : Bool := isAsciiLetter c || c == '_' || c == '$'

def isNamePart (c : Char) : Bool := isWord c || c == '$'

/-- The longest name at the front. -/
def name? : Text → Option (Text × Text)
  | [] => none
  | c :: r =>
    if isNameStart c then some (c :: r.takeWhile isNamePart, r.dropWhile isNamePart) else none

/-- The text is a name. -/
def IsName (t : Text) : Prop := name? t = some (t, [])

instance (t : Text) : Decidable (IsName t) := inferInstanceAs (Decidable (name? t = some (t, [])))

def onlyName? (t : Text) : Option Text :=
  match name? t with
  | some (n, []) => some n
  | _ => none

/-- What follows a word at the front; the word has to end in white space, which is skipped. -/
def afterWord? (w t : Text) : Option Text := (w.isPrefixOf? t).bind Text.afterBlanks?

/-! ### Module specifiers -/

/-- A character that may stand between quotation marks. -/
def isSpecifierChar (c : Char) : Bool := c != '\'' && c != '"'

/-- A nonempty module specifier between two equal quotation marks. -/
def specifier? : Text → Option (Quote × Text × Text)
  | [] => none
  | c :: r => do
    let q ← Quote.ofChar? c
    match r.takeWhile isSpecifierChar, r.dropWhile isSpecifierChar with
    | m@(_ :: _), d :: rest => if d = c then some (q, m, rest) else none
    | _, _ => none

/-! ### Ends of lines -/

/-- The end of a statement: its semicolon and its comment. -/
structure Closing where
  semicolon : Bool
  trailing : Text
deriving DecidableEq, Repr

/-- A comment up to the end of the text, which may also be blank.  The comment comes with the
    white space before it and without the white space after it. -/
def comment? (t : Text) : Option Text :=
  match t.trimLeft with
  | [] => some []
  | '/' :: '/' :: r => if '\n' ∈ Text.trimRight ('/' :: '/' :: r) then none else some t.trimRight
  | _ => none

/-- The end of a statement, where white space may stand before the semicolon. -/
def closing? (t : Text) : Option Closing :=
  match t.trimLeft with
  | ';' :: r => (comment? r).map fun c => ⟨true, c⟩
  | r => (comment? r).map fun c => ⟨false, c⟩

/-! ### Braces -/

def isNoBrace (c : Char) : Bool := c != '\x7b' && c != '\x7d'

/-- The text between an opening brace at the front and the next brace, which has to be a closing
    one, and what follows it. -/
def braces? : Text → Option (Text × Text)
  | [] => none
  | c :: r =>
    if c = '\x7b' then
      match r.dropWhile isNoBrace with
      | d :: rest => if d = '\x7d' then some (r.takeWhile isNoBrace, rest) else none
      | [] => none
    else none

end ImportRepair
