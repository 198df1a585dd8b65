import ImportRepair.Json.Basic
import ImportRepair.Text.Quoted

/-!
# Writing JSON

A document is written with one item or field a line, each level indented by two
more spaces.  Every character outside printable ASCII is escaped as code units
of 16 bits, so that the document is ASCII.
-/

namespace ImportRepair.Json

/-! ### Strings and numbers -/

def unitEscape (n : Nat) : Text := '\\' :: 'u' :: hexDigits 4 n

/-- A character between the quotation marks of a string. -/
def stringChar (c : Char) : Text :=
  let n := c.toNat
  if c = '"' then ['\\', '"']
  else if c = '\\' then ['\\', '\\']
  else if c = '\n' then ['\\', 'n']
  else if c = '\r' then ['\\', 'r']
  else if c = '\t' then ['\\', 't']
  else if n = 0x08 then ['\\', 'b']
  else if n = 0x0C then ['\\', 'f']
  else if 0x20 ≤ n && n ≤ 0x7E then [c]
  else if n < 0x10000 then unitEscape n
  else unitEscape (0xD800 + (n - 0x10000) / 0x400) ++ unitEscape (0xDC00 + (n - 0x10000) % 0x400)

def stringText (t : Text) : Text := '"' :: (t.flatMap stringChar ++ ['"'])

def floatText : Binary64 → String
  | .nan => "NaN"
  | .infinite negative => if negative then "-Infinity" else "Infinity"
  | .finite m q => s!"{m * Nat.pow 2 q.toNat * Nat.pow 5 (-q).toNat}e-{(-q).toNat}"

/-! ### Documents -/

def lineStart (level : Nat) : Text := '\n' :: List.replicate (2 * level) ' '

/-- Pieces between brackets, each on a line of its own. -/
def bracketed (opener closer : Char) (level : Nat) (pieces : List Text) : Text :=
  if pieces.isEmpty then [opener, closer]
  else
    let start := lineStart (level + 1)
    opener :: (start ++ (',' :: start).intercalate pieces ++ lineStart level ++ [closer])

mutual

/-- A value at a level of indentation. -/
def render (level : Nat) : Json → Text
  | null => "null".toList
  | bool b => (if b then "true" else "false").toList
  | integer n => (toString n).toList
  | float x => (floatText x).toList
  | string t => stringText t
  | array items => bracketed '[' ']' level (renderItems (level + 1) items)
  | object fields => bracketed '\x7b' '\x7d' level (renderFields (level + 1) fields)

def renderItems (level : Nat) : List Json → List Text
  | [] => []
  | v :: vs => render level v :: renderItems level vs

def renderFields (level : Nat) : List (Text × Json) → List Text
  | [] => []
  | f :: fs => renderField level f :: renderFields level fs

def renderField (level : Nat) : Text × Json → Text
  | (name, v) => stringText name ++ ": ".toList ++ render level v

end

def text (v : Json) : Text := render 0 v

end ImportRepair.Json
