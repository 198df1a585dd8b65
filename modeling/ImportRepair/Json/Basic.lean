import ImportRepair.Json.Binary64
import ImportRepair.Text.Numeral

/-!
# JSON values

The linter reports in JSON, and the configuration of a project is JSON with
comments.  An object keeps the order in which its fields first occur.  A field
that occurs twice has the later value.
-/

namespace ImportRepair

/-- A JSON value. -/
inductive Json where
  | null
  | bool (b : Bool)
  | integer (n : Int)
  | float (x : Binary64)
  | string (t : Text)
  | array (items : List Json)
  | object (fields : List (Text × Json))

namespace Json

def setField (fields : List (Text × Json)) (name : Text) (value : Json) : List (Text × Json) :=
  if fields.any (·.1 == name) then
    fields.map fun f => if f.1 == name then (name, value) else f
  else fields ++ [(name, value)]

/-- Why a text is not a JSON document. -/
inductive Fault where
  | mark
  | expectingValue
  | expectingName
  | expectingColon
  | expectingComma
  | extraData
  | unterminatedString
  | controlCharacter
  | invalidEscape
  | invalidUnicodeEscape
deriving DecidableEq, Repr

def Fault.message : Fault → String
  | mark => "Unexpected UTF-8 BOM (decode using utf-8-sig)"
  | expectingValue => "Expecting value"
  | expectingName => "Expecting property name enclosed in double quotes"
  | expectingColon => "Expecting ':' delimiter"
  | expectingComma => "Expecting ',' delimiter"
  | extraData => "Extra data"
  | unterminatedString => "Unterminated string starting at"
  | controlCharacter => "Invalid control character at"
  | invalidEscape => "Invalid \\escape"
  | invalidUnicodeEscape => "Invalid \\uXXXX escape"

/-- A place in a text: the line and the column, both counted from 1, and the offset from 0. -/
structure Place where
  line : Nat
  column : Nat
  offset : Nat
deriving DecidableEq, Repr

def Place.of (t : Text) (offset : Nat) : Place :=
  let before := t.take offset
  ⟨before.count '\n' + 1, (before.reverse.takeWhile (· != '\n')).length + 1, offset⟩

inductive Container where
  | array
  | object
deriving DecidableEq, Repr

def Container.name : Container → String
  | array => "array"
  | object => "object"

/-- Why a document was not read. -/
inductive ReadError where
  /-- The text is not a JSON document. -/
  | malformed (fault : Fault) (place : Place)
  /-- A number has too many digits. -/
  | numeral (e : NumeralError)
  /-- A container lies within too many others. -/
  | tooDeep (c : Container)
deriving DecidableEq, Repr

def ReadError.message : ReadError → String
  | malformed f p => s!"{f.message}: line {p.line} column {p.column} (char {p.offset})"
  | numeral e => e.message
  | tooDeep c =>
    s!"maximum recursion depth exceeded while decoding a JSON {c.name} from a unicode string"

end Json

end ImportRepair
