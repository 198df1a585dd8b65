import ImportRepair.Json.Basic

/-!
# The lexemes of a JSON text

A JSON text is cut into lexemes, each with the offset at which it starts.  A
text that cannot be cut further ends in a lexeme that holds the fault: whether
the fault counts depends on whether the lexeme is needed, which is for the
reader to decide.  The last lexeme marks the end of the text.
-/

namespace ImportRepair.Json

/-- A number as it is written. -/
inductive Numeric where
  | integer (negative : Bool) (digits : Text)
  | decimal (negative : Bool) (digits : Text) (exponent : Int)
  | nan
  | infinity (negative : Bool)
deriving DecidableEq, Repr

inductive Lexeme where
  | openArray
  | closeArray
  | openObject
  | closeObject
  | colon
  | comma
  | null
  | bool (b : Bool)
  | number (n : Numeric)
  | string (t : Text)
  /-- A string with a fault, and the offset of the fault. -/
  | badString (fault : Fault) (offset : Nat)
  /-- A character that starts no lexeme. -/
  | unknown
  | finish
deriving DecidableEq, Repr

def isSpace (c : Char) : Bool := c == ' ' || c == '\t' || c == '\n' || c == '\r'

/-! ### Strings -/

def hexValue? (c : Char) : Option Nat :=
  if '0' ≤ c && c ≤ '9' then some (c.toNat - '0'.toNat)
  else if 'a' ≤ c && c ≤ 'f' then some (c.toNat - 'a'.toNat + 10)
  else if 'A' ≤ c && c ≤ 'F' then some (c.toNat - 'A'.toNat + 10)
  else none

def hexWord? (a b c d : Char) : Option Nat := do
  let a ← hexValue? a
  let b ← hexValue? b
  let c ← hexValue? c
  let d ← hexValue? d
  some (((a * 16 + b) * 16 + c) * 16 + d)

/-- The character that a one-letter escape stands for. -/
def simpleEscape? : Char → Option Char
  | '"' => some '"'
  | '\\' => some '\\'
  | '/' => some '/'
  | 'b' => some '\x08'
  | 'f' => some '\x0c'
  | 'n' => some '\n'
  | 'r' => some '\r'
  | 't' => some '\t'
  | _ => none

/-- The first half of a surrogate pair. -/
def isHighSurrogate (n : Nat) : Bool := decide (0xD800 ≤ n) && decide (n ≤ 0xDBFF)

/-- The second half of a surrogate pair. -/
def isLowSurrogate (n : Nat) : Bool := decide (0xDC00 ≤ n) && decide (n ≤ 0xDFFF)

def pairChar (high low : Nat) : Char :=
  Char.ofNat (0x10000 + (high - 0xD800) * 0x400 + (low - 0xDC00))

/-- The text of a sequence of code units, where two halves of a pair make one character.  A lone
    half is no character of a text here; it is replaced by U+FFFD, so strings that differ in lone
    halves only are read alike. -/
def joinPairs : List Nat → Text
  | [] => []
  | n :: m :: r =>
    if isHighSurrogate n && isLowSurrogate m then pairChar n m :: joinPairs r
    else unitChar n :: joinPairs (m :: r)
  | [n] => [unitChar n]
where
  unitChar (n : Nat) : Char :=
    if isHighSurrogate n || isLowSurrogate n then '\uFFFD' else Char.ofNat n

/-- The code units of a string after its opening quotation mark at `start`, and the offset behind
    its closing one.  `offset` is that of the text at hand. -/
def scanString (start offset : Nat) : Text → Except (Fault × Nat) (List Nat × Nat)
  | [] => .error (.unterminatedString, start)
  | '"' :: _ => .ok ([], offset + 1)
  | '\\' :: 'u' :: a :: b :: c :: d :: r =>
    match r.isEmpty, hexWord? a b c d with
    | false, some n => (scanString start (offset + 6) r).map fun p => (n :: p.1, p.2)
    | _, _ => .error (.invalidUnicodeEscape, offset + 1)
  | '\\' :: 'u' :: _ => .error (.invalidUnicodeEscape, offset + 1)
  | ['\\'] => .error (.unterminatedString, start)
  | '\\' :: c :: r =>
    match simpleEscape? c with
    | some d => (scanString start (offset + 2) r).map fun p => (d.toNat :: p.1, p.2)
    | none => .error (.invalidEscape, offset)
  | c :: r =>
    if c.toNat ≤ 0x1F then .error (.controlCharacter, offset)
    else (scanString start (offset + 1) r).map fun p => (c.toNat :: p.1, p.2)

/-! ### Numbers -/

def isDecimalDigit (c : Char) : Bool := '0' ≤ c && c ≤ '9'

def leadingDigits (t : Text) : Text := t.takeWhile isDecimalDigit

/-- The fraction at the front: its digits, and the number of characters. -/
def fraction : Text → Text × Nat
  | '.' :: r => let ds := leadingDigits r; (ds, if ds.isEmpty then 0 else ds.length + 1)
  | _ => ([], 0)

/-- The exponent at the front: its value and the number of characters, which is 0 if there is
    none. -/
def exponent : Text → Int × Nat
  | [] => (0, 0)
  | e :: r =>
    if e = 'e' || e = 'E' then
      let (negative, signs, r) := match r with
        | '-' :: r => (true, 1, r)
        | '+' :: r => (false, 1, r)
        | r => (false, 0, r)
      let ds := leadingDigits r
      let n : Int := Numeral.value ds
      if ds.isEmpty then (0, 0) else (if negative then -n else n, 1 + signs + ds.length)
    else (0, 0)

/-- The number at the front of a text after its sign, and its number of characters. -/
def unsigned? (negative : Bool) (t : Text) : Option (Numeric × Nat) :=
  let whole := match t with
    | '0' :: _ => ['0']
    | _ => leadingDigits t
  if whole.isEmpty then none
  else
    let r := t.drop whole.length
    let (fraction, n) := fraction r
    let (e, k) := exponent (r.drop n)
    if n = 0 && k = 0 then some (.integer negative whole, whole.length)
    else some (.decimal negative (whole ++ fraction) (e - fraction.length), whole.length + n + k)

/-- The number at the front of a text, and its number of characters. -/
def numeric? : Text → Option (Numeric × Nat)
  | '-' :: t =>
    if "Infinity".toList.isPrefixOf t then some (.infinity true, 9)
    else (unsigned? true t).map fun p => (p.1, p.2 + 1)
  | t =>
    if "NaN".toList.isPrefixOf t then some (.nan, 3)
    else if "Infinity".toList.isPrefixOf t then some (.infinity false, 8)
    else unsigned? false t

/-! ### Texts -/

/-- The lexeme that starts with `c` at `offset`, and its number of characters. -/
def lexeme (offset : Nat) (c : Char) (r : Text) : Lexeme × Nat :=
  match c with
  | '[' => (.openArray, 1)
  | ']' => (.closeArray, 1)
  | '\x7b' => (.openObject, 1)
  | '\x7d' => (.closeObject, 1)
  | ':' => (.colon, 1)
  | ',' => (.comma, 1)
  | '"' =>
    match scanString offset (offset + 1) r with
    | .ok (units, stop) => (.string (joinPairs units), stop - offset)
    | .error (f, k) => (.badString f k, r.length + 1)
  | _ =>
    if "null".toList.isPrefixOf (c :: r) then (.null, 4)
    else if "true".toList.isPrefixOf (c :: r) then (.bool true, 4)
    else if "false".toList.isPrefixOf (c :: r) then (.bool false, 5)
    else match numeric? (c :: r) with
      | some (n, k) => (.number n, k)
      | none => (.unknown, r.length + 1)

/-- The lexemes of a text, each with its offset, where the first `skip` characters belong to a
    lexeme that has been read. -/
def lexFrom (skip offset : Nat) : Text → List (Nat × Lexeme)
  | [] => [(offset, .finish)]
  | c :: r =>
    match skip with
    | k + 1 => lexFrom k (offset + 1) r
    | 0 =>
      if isSpace c then lexFrom 0 (offset + 1) r
      else
        let (l, n) := lexeme offset c r
        (offset, l) :: lexFrom (n - 1) (offset + 1) r

def lex (t : Text) : List (Nat × Lexeme) := lexFrom 0 0 t

end ImportRepair.Json
