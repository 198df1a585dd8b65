import ImportRepair.Text.Blank
import ImportRepair.Text.Word

/-!
# Portable spelling of paths

Compilers and linters spell the same path in different ways.  The portable
spelling has forward slashes and neither a drive letter nor a leading `./`, and
a path below the root of the project is spelled relative to that root.
-/

namespace ImportRepair

/-- Drops a drive letter that a colon and a slash follow, together with both. -/
def dropDrive : Text → Text
  | d :: ':' :: '/' :: r => if isAsciiLetter d then r else d :: ':' :: '/' :: r
  | t => t

/-- Drops leading pieces `./`. -/
def dropHere : Text → Text
  | '.' :: '/' :: r => dropHere r
  | t => t

/-- The path with forward slashes and without a drive letter. -/
def slashed (t : Text) : Text := dropDrive (Text.replaceChar '\\' '/' (Text.trim t))

/-- The path relative to a root that ends in no slash. -/
def below (root t : Text) : Text :=
  if root.isEmpty then t
  else if t = root then []
  else ((root ++ ['/']).isPrefixOf? t).getD t

/-- The portable spelling of a path. -/
def portable (root : Option Text) (t : Text) : Text :=
  match root with
  | none => dropHere (slashed t)
  | some r => dropHere (below (Text.dropEndWhile (· == '/') (dropHere (slashed r))) (slashed t))

/-- Pieces of a path that mark a test file. -/
def testMarkers : List String := [".test.", ".spec.", "/__tests__/"]

def isTestPath (t : Text) : Bool :=
  let p := '/' :: Text.replaceChar '\\' '/' t
  testMarkers.any fun m => Text.occursIn m.toList p

end ImportRepair
