import ImportRepair.Import.Reader

/-!
# Imports that bind nothing

When every name of a statement has been removed, the statement is an import of
nothing, which is dropped.  An import for its side effects has no braces and is
never taken for one.
-/

namespace ImportRepair

/-- What stands in front of the last parenthesis of a call that ends a line, with or without a
    semicolon. -/
def callBody? (t : Text) : Option Text :=
  let u := Text.trimRight t
  let v := if u.getLast? = some ';' then Text.trimRight u.dropLast else u
  if v.getLast? = some ')' then some v.dropLast else none

/-- What follows braces at the front with nothing between them, and the white space after them. -/
def afterEmptyBraces? (t : Text) : Option Text :=
  match braces? t with
  | some (body, r) => if Text.allBlank body then some (Text.trimLeft r) else none
  | none => none

/-- What follows a nonempty text between quotation marks, which may be of different kinds. -/
def afterQuoted? : Text → Option Text
  | [] => none
  | c :: r =>
    if isSpecifierChar c then none
    else match r.takeWhile isSpecifierChar, r.dropWhile isSpecifierChar with
      | _ :: _, _ :: rest => some rest
      | _, _ => none

def isStatementEnd (t : Text) : Bool :=
  match Text.trimLeft t with
  | ';' :: r => Text.allBlank r
  | r => r.isEmpty

/-- An `import` with empty braces. -/
def isEmptyEsImport (t : Text) : Bool :=
  Option.isSome do
    let r ← afterWord? "import".toList (Text.trimLeft t)
    let r ← afterEmptyBraces? ((afterWord? "type".toList r).getD r)
    let r ← (afterWord? "from".toList r).bind afterQuoted?
    guard (isStatementEnd r)

/-- A declaration by `require` with empty braces. -/
def isEmptyRequire (t : Text) : Bool :=
  Option.isSome do
    let (_, r) ← keyword? (Text.trimLeft t)
    let r ← afterEmptyBraces? (Text.trimLeft r)
    let r ← afterMark? '=' r
    let r ← "require(".toList.isPrefixOf? r
    callBody? r

def bindsNothing (t : Text) : Bool :=
  let u := (Text.dropEndWhile (· == '\r') t).dropWhile (· == byteOrderMark)
  isEmptyEsImport u || isEmptyRequire u

def emptyImportLines (t : Text) : List Int :=
  ((Text.numberedLines t).filter fun p => bindsNothing p.2).map (·.1)

def dropEmptyImports (t : Text) : Text :=
  match emptyImportLines t with
  | [] => t
  | ns => LineEdits.apply ⟨[], ns⟩ t

end ImportRepair
