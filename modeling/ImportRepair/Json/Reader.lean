import ImportRepair.Json.Lexer
import ImportRepair.Text.LineEdits

/-!
# Reading JSON

The reader takes the lexemes of a text one after the other.  What it still has
to close is a stack of frames, innermost first, and what it waits for is a
state; so each lexeme is looked at once.  How deep a document may nest is up to
who reads it.
-/

namespace ImportRepair.Json

/-- An array or an object that is not closed yet; its parts are in reverse order. -/
inductive Frame where
  | array (items : List Json)
  | object (fields : List (Text × Json)) (name : Text)

/-- What the reader waits for. -/
inductive Waiting where
  | value
  /-- The first item of an array, or its end. -/
  | firstItem
  | name (fields : List (Text × Json))
  /-- The first field name of an object, or its end. -/
  | firstName
  | colon (fields : List (Text × Json)) (name : Text)
  | afterValue (v : Json)

/-- Why the reader stops. -/
inductive Stop where
  /-- A fault at an offset. -/
  | fault (f : Fault) (offset : Nat)
  | numeral (e : NumeralError)
  | tooDeep (c : Container)
deriving DecidableEq, Repr

def Numeric.toJson : Numeric → Except NumeralError Json
  | .integer negative ds => do
    let n ← Numeral.ofDigits ds
    .ok (.integer (if negative then -(n : Int) else n))
  | .decimal negative ds e => .ok (.float (.ofDecimal negative (Numeral.value ds) e))
  | .nan => .ok (.float .nan)
  | .infinity negative => .ok (.float (.infinite negative))

def Lexeme.toJson (offset : Nat) : Lexeme → Except Stop Json
  | .null => .ok .null
  | .bool b => .ok (.bool b)
  | .number n =>
    match n.toJson with
    | .ok v => .ok v
    | .error e => .error (.numeral e)
  | .string t => .ok (.string t)
  | .badString f k => .error (.fault f k)
  | _ => .error (.fault .expectingValue offset)

/-- Opens a container, of which `limit` may lie within each other.  Its first part, or its end, is
    what the reader waits for next. -/
def openContainer (limit : Nat) (c : Container) (stack : List Frame) :
    Except Stop (Waiting × List Frame) :=
  if limit ≤ stack.length then .error (.tooDeep c)
  else match c with
    | .array => .ok (.firstItem, .array [] :: stack)
    | .object => .ok (.firstName, stack)

def stepValue (limit : Nat) (stack : List Frame) (offset : Nat) (l : Lexeme) :
    Except Stop (Waiting × List Frame) :=
  match l with
  | .openArray => openContainer limit .array stack
  | .openObject => openContainer limit .object stack
  | _ => (l.toJson offset).map fun v => (.afterValue v, stack)

def stepName (fields : List (Text × Json)) (stack : List Frame) (offset : Nat) (l : Lexeme) :
    Except Stop (Waiting × List Frame) :=
  match l with
  | .string t => .ok (.colon fields t, stack)
  | .badString f k => .error (.fault f k)
  | _ => .error (.fault .expectingName offset)

def step (limit : Nat) (w : Waiting) (stack : List Frame) (offset : Nat) (l : Lexeme) :
    Except Stop (Waiting × List Frame) :=
  match w with
  | .value => stepValue limit stack offset l
  | .firstItem =>
    match l, stack with
    | .closeArray, .array _ :: stack => .ok (.afterValue (.array []), stack)
    | l, stack => stepValue limit stack offset l
  | .firstName =>
    match l with
    | .closeObject => .ok (.afterValue (.object []), stack)
    | l => stepName [] stack offset l
  | .name fields => stepName fields stack offset l
  | .colon fields name =>
    match l with
    | .colon => .ok (.value, .object fields name :: stack)
    | _ => .error (.fault .expectingColon offset)
  | .afterValue v =>
    match stack, l with
    | .array items :: stack, .comma => .ok (.value, .array (v :: items) :: stack)
    | .array items :: stack, .closeArray => .ok (.afterValue (.array (v :: items).reverse), stack)
    | .object fields name :: stack, .comma => .ok (.name (setField fields name v), stack)
    | .object fields name :: stack, .closeObject =>
      .ok (.afterValue (.object (setField fields name v)), stack)
    | [], _ => .error (.fault .extraData offset)
    | _, _ => .error (.fault .expectingComma offset)

def readLexemes (limit : Nat) (w : Waiting) (stack : List Frame) :
    List (Nat × Lexeme) → Except Stop Json
  | [] => .error (.fault .expectingValue 0)
  | (offset, l) :: ls =>
    match w, stack, l with
    | .afterValue v, [], .finish => .ok v
    | w, stack, l => do
      let (w, stack) ← step limit w stack offset l
      readLexemes limit w stack ls

/-- Reads a JSON document, in which `limit` containers may lie within each other. -/
def read (limit : Nat) (t : Text) : Except ReadError Json :=
  if Text.hasMark t then .error (.malformed .mark (.of t 0))
  else match readLexemes limit .value [] (lex t) with
    | .ok v => .ok v
    | .error (.numeral e) => .error (.numeral e)
    | .error (.fault f k) => .error (.malformed f (.of t k))
    | .error (.tooDeep c) => .error (.tooDeep c)

end ImportRepair.Json
