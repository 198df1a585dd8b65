import ImportRepair.Import.Empty

/-!
# Console statements

A line that is one complete call of `console.log`, `console.debug` or
`console.info` may be deleted.  Whether the parenthesis at its end closes the
call is found out by counting the parentheses between, where quoted strings and
templates do not count.
-/

namespace ImportRepair

/-! ### Arguments of a call -/

/-- The marks that begin and end strings and templates: both quotation marks and the grave
    accent. -/
def isStringMark (c : Char) : Bool := c == '\'' || c == '"' || c == '\x60'

/-- Where a character of the arguments stands. -/
inductive ArgumentRegion where
  | plain
  | string (mark : Char)
  /-- Behind a backslash in a string. -/
  | escape (mark : Char)
deriving DecidableEq, Repr

/-- Every parenthesis of the text is closed, and none is closed that was not opened, where `depth`
    of them are open in front of it; no string is left open either. -/
def isBalanced (region : ArgumentRegion) (depth : Nat) : Text → Bool
  | [] => depth == 0 && region == .plain
  | c :: r =>
    match region with
    | .escape m => isBalanced (.string m) depth r
    | .string m =>
      if c = '\\' then isBalanced (.escape m) depth r
      else if c = m then isBalanced .plain depth r
      else isBalanced (.string m) depth r
    | .plain =>
      if isStringMark c then isBalanced (.string c) depth r
      else if c = '(' then isBalanced .plain (depth + 1) r
      else if c = ')' then
        match depth with
        | 0 => false
        | n + 1 => isBalanced .plain n r
      else isBalanced .plain depth r

def isOneCall (arguments : Text) : Bool := isBalanced .plain 0 arguments

/-! ### Lines -/

def consoleMethods : List Text := ["log".toList, "debug".toList, "info".toList]

/-- What stands between the first parenthesis of a console call and the last of its line. -/
def consoleArguments? (line : Text) : Option Text := do
  let r ← "console.".toList.isPrefixOf? (Text.trimLeft (Text.dropEndWhile (· == '\r') line))
  let r ← consoleMethods.findSome? fun m => (m ++ ['(']).isPrefixOf? r
  callBody? r

def isConsoleCall (line : Text) : Bool := (consoleArguments? line).any isOneCall

def countConsoleCalls (t : Text) : Nat := (Text.lines t).countP isConsoleCall

def removeConsoleCalls (t : Text) : Text :=
  Text.unlines ((Text.lines t).filter fun l => !isConsoleCall l)

end ImportRepair
