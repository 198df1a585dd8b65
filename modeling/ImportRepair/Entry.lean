/-!
# Entries of the settings

A setting has a value, or it is left blank: it is named, but nothing is said
of it.  What a blank entry means is decided where the setting is used.
-/

namespace ImportRepair

/-- What is entered for a setting. -/
inductive Entry (α : Type) where
  | blank
  | value (a : α)
deriving DecidableEq, Repr

namespace Entry

variable {α β : Type}

instance : Coe α (Entry α) := ⟨value⟩

def map (f : α → β) : Entry α → Entry β
  | blank => .blank
  | value a => .value (f a)

/-- The value, unless the entry is blank. -/
def value? : Entry α → Option α
  | blank => none
  | value a => some a

def shown : Entry Int → String
  | blank => "[]"
  | value n => toString n

end Entry

end ImportRepair
