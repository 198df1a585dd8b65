import ImportRepair.Text.Basic

/-!
# What a fix does to a text

Every way of fixing a file ends in a new text, a count of changes, and a list
of actions in words.
-/

namespace ImportRepair

/-- The outcome of fixing a text. -/
structure TextFix where
  text : Text
  changeCount : Nat := 0
  actions : List String := []
deriving DecidableEq, Repr

end ImportRepair
