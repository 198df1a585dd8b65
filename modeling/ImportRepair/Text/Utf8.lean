import ImportRepair.Text.Quoted

/-!
# UTF-8

Files are sequences of octets that hold text in UTF-8.  A file that is not
UTF-8 is not read, and the fault is told with its place.
-/

namespace ImportRepair.Utf8

def encode (t : Text) : List UInt8 := t.flatMap String.utf8EncodeChar

inductive FaultKind where
  /-- An octet that starts no character. -/
  | invalidStart
  /-- An octet that does not continue the character in front of it. -/
  | invalidContinuation
  /-- The octets end within a character. -/
  | unexpectedEnd
deriving DecidableEq, Repr

def FaultKind.message : FaultKind → String
  | invalidStart => "invalid start byte"
  | invalidContinuation => "invalid continuation byte"
  | unexpectedEnd => "unexpected end of data"

/-- A fault: the offset at which the faulty octets start, and the octets themselves. -/
structure Fault where
  kind : FaultKind
  offset : Nat
  first : UInt8
  /-- The number of further faulty octets. -/
  more : Nat
deriving DecidableEq, Repr

def Fault.message (f : Fault) : String :=
  if f.more = 0 then
    s!"'utf-8' codec can't decode byte 0x{String.ofList (hexDigits 2 f.first.toNat)} " ++
      s!"in position {f.offset}: {f.kind.message}"
  else
    s!"'utf-8' codec can't decode bytes in position {f.offset}-{f.offset + f.more}: " ++
      f.kind.message

/-- The form of a character of more than one octet, given by its first octet. -/
structure Lead where
  /-- The bits of the first octet. -/
  bits : Nat
  /-- The least and the greatest second octet. -/
  low : Nat
  high : Nat
  /-- The number of octets after the second one. -/
  further : Nat
deriving DecidableEq, Repr

/-- The form of the characters that start with an octet. -/
def lead? (b : UInt8) : Option Lead :=
  let n := b.toNat
  if n < 0xC2 then none
  else if n < 0xE0 then some ⟨n - 0xC0, 0x80, 0xBF, 0⟩
  else if n < 0xF0 then
    some ⟨n - 0xE0, if n = 0xE0 then 0xA0 else 0x80, if n = 0xED then 0x9F else 0xBF, 1⟩
  else if n < 0xF5 then
    some ⟨n - 0xF0, if n = 0xF0 then 0x90 else 0x80, if n = 0xF4 then 0x8F else 0xBF, 2⟩
  else none

/-- The character with the octets that follow its first one.  An octet that does not continue it
    is told by the number of octets that do. -/
def continued (bits low high further : Nat) : List UInt8 → Except (FaultKind × Nat) Char
  | [] => .error (.unexpectedEnd, 0)
  | b :: bs =>
    let n := b.toNat
    if low ≤ n && n ≤ high then
      let bits := bits * 0x40 + (n - 0x80)
      match further with
      | 0 => .ok (Char.ofNat bits)
      | k + 1 =>
        match continued bits 0x80 0xBF k bs with
        | .ok c => .ok c
        | .error (kind, good) => .error (kind, good + 1)
    else .error (.invalidContinuation, 0)

/-- The text of the octets from `offset` on, where the first `skip` octets belong to a character
    that has been read. -/
def decodeFrom (skip offset : Nat) : List UInt8 → Except Fault Text
  | [] => .ok []
  | b :: bs =>
    match skip with
    | k + 1 => decodeFrom k (offset + 1) bs
    | 0 =>
      if b.toNat < 0x80 then (decodeFrom 0 (offset + 1) bs).map (Char.ofNat b.toNat :: ·)
      else match lead? b with
        | none => .error ⟨.invalidStart, offset, b, 0⟩
        | some l =>
          match continued l.bits l.low l.high l.further bs with
          | .ok c => (decodeFrom (l.further + 1) (offset + 1) bs).map (c :: ·)
          | .error (kind, good) => .error ⟨kind, offset, b, good⟩

/-- The text of a sequence of octets. -/
def decode (octets : List UInt8) : Except Fault Text := decodeFrom 0 0 octets

end ImportRepair.Utf8
