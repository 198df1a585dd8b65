import ImportRepair.Cli.Help
import ImportRepair.Cli.Options

/-!
# Reading a command line

Each argument is an option or an operand.  An option may be shortened as long as
no other option begins alike; its value may be attached with an equals sign, and
options of one letter may be written together.  Two dashes end the options; as a
value they leave the option blank.
-/

namespace ImportRepair.Cli

/-! ### Arguments -/

/-- An option as it is written. -/
structure OptionUse where
  option : OptionSpec
  /-- The option is written with two dashes. -/
  long : Bool
  /-- The text behind the name. -/
  attached : Option Text := none
deriving DecidableEq, Repr

/-- What an argument is. -/
inductive Argument where
  | operand (t : Text)
  | option (u : OptionUse)
  /-- It looks like an option, but there is none of its name. -/
  | unknown (t : Text)
  /-- Two dashes. -/
  | endOfOptions
deriving DecidableEq, Repr

def splitEquals (t : Text) : Text × Option Text :=
  match t.dropWhile (· != '=') with
  | _ :: r => (t.takeWhile (· != '='), some r)
  | [] => (t, none)

def isLong (t : Text) : Bool := ['-', '-'].isPrefixOf t

/-- The options that an argument may stand for, if no option has just its name. -/
def candidates (t : Text) : List (Text × OptionUse) :=
  let (name, value) := splitEquals t
  if isLong t then
    (namedOptions.filter fun p => name.isPrefixOf p.1).map fun p =>
      (p.1, ⟨p.2, true, value⟩)
  else
    (namedOptions.filter fun p => p.1 == t.take 2).map fun p =>
      (p.1, ⟨p.2, false, some (t.drop 2)⟩)

/-- A decimal numeral with a minus sign.  A final line feed does not matter. -/
def isNegativeNumeral (t : Text) : Bool :=
  let u := if t.getLast? = some '\n' then t.dropLast else t
  match u with
  | '-' :: r =>
    match r.dropWhile isDigit with
    | [] => !r.isEmpty
    | '.' :: f => !f.isEmpty && f.all isDigit
    | _ => false
  | _ => false

/-- What an argument is, in front of two dashes. -/
def Argument.of (t : Text) : Except UsageError Argument :=
  match t with
  | '-' :: _ :: _ =>
    let (name, value) := splitEquals t
    match option? t, value.bind fun v => (option? name).map fun o => (o, v) with
    | some o, _ => .ok (.option ⟨o, isLong t, none⟩)
    | none, some (o, v) => .ok (.option ⟨o, isLong t, some v⟩)
    | none, none =>
      match candidates t with
      | [(_, u)] => .ok (.option u)
      | [] => .ok (if isNegativeNumeral t || ' ' ∈ t then .operand t else .unknown t)
      | many => .error (.ambiguous t (many.map (·.1)))
  | _ => .ok (.operand t)

def classify : List Text → Except UsageError (List Argument)
  | [] => .ok []
  | t :: ts =>
    if t = ['-', '-'] then .ok (.endOfOptions :: ts.map .operand)
    else do
      let a ← Argument.of t
      let as ← classify ts
      return a :: as

/-! ### Options written together -/

/-- What one argument amounts to. -/
structure Cluster where
  /-- The options in it that are complete, with their values. -/
  complete : List (OptionSpec × Text) := []
  /-- The option at its end whose value is still to come. -/
  waiting : Option OptionSpec := none
deriving DecidableEq, Repr

def Cluster.push (o : OptionSpec) (c : Cluster) : Cluster :=
  { c with complete := (o, []) :: c.complete }

def Cluster.single (o : OptionSpec) : Cluster :=
  if o.takesValue then { waiting := some o } else { complete := [(o, [])] }

/-- The cluster of an option and the text behind it: its value, or the letters of further
    options.  A long option is followed by none. -/
def clusterFrom (o : OptionSpec) (long : Bool) : Text → Except UsageError Cluster
  | [] =>
    if o.takesValue then .ok { complete := [(o, [])] }
    else .error (.problem o (.unwantedValue []))
  | c :: r =>
    if o.takesValue then .ok { complete := [(o, c :: r)] }
    else match if long then none else option? ['-', c] with
      | none => .error (.problem o (.unwantedValue (c :: r)))
      | some next =>
        let rest := if r.isEmpty then .ok (Cluster.single next) else clusterFrom next false r
        rest.map (·.push o)

def OptionUse.cluster (u : OptionUse) : Except UsageError Cluster :=
  match u.attached with
  | none => .ok (.single u.option)
  | some t => clusterFrom u.option u.long t

/-! ### The command line -/

/-- What a command line asks for. -/
inductive Request where
  | help
  | version
  | run (o : Options)
deriving DecidableEq, Repr

/-- The state of reading a command line. -/
structure Reading where
  options : Options := {}
  /-- Arguments that have no meaning. -/
  extras : List Text := []
deriving DecidableEq, Repr

namespace Reading

/-- The reading with an operand: the target, if there is none yet. -/
def operand (s : Reading) (t : Text) : Reading :=
  if s.options.target.isNone then
    { s with options := { s.options with target := some (.ofText t) } }
  else { s with extras := s.extras ++ [t] }

def perform (s : Reading) : List (OptionSpec × Text) → Except UsageError (Reading ⊕ Request)
  | [] => .ok (.inl s)
  | (o, value) :: rest =>
    match o.kind with
    | .help => .ok (.inr .help)
    | .version => .ok (.inr .version)
    | .switch w => perform { s with options := s.options.turnOn w } rest
    | .valued v =>
      match s.options.set v (Options.entryOf value) with
      | .ok options => perform { s with options } rest
      | .error p => .error (.problem o p)

/-- The operands behind two dashes.  The first may still be the target. -/
def finish (s : Reading) (rest : List Text) : Reading :=
  match s.options.target, rest with
  | none, t :: ts => { (s.operand t) with extras := s.extras ++ ts }
  | none, [] => s
  | some _, ts => { s with extras := s.extras ++ ['-', '-'] :: ts }

def operandsOf (as : List Argument) : List Text :=
  as.filterMap fun a =>
    match a with
    | .operand t => some t
    | _ => none

def readFrom (s : Reading) : List Argument → Except UsageError (Reading ⊕ Request)
  | [] => .ok (.inl s)
  | .endOfOptions :: as => .ok (.inl (s.finish (operandsOf as)))
  | .operand t :: .endOfOptions :: as =>
    if s.options.target.isNone then
      .ok (.inl { (s.operand t) with extras := s.extras ++ operandsOf as })
    else .ok (.inl ((s.operand t).finish (operandsOf as)))
  | .operand t :: as => (s.operand t).readFrom as
  | .unknown t :: as => readFrom { s with extras := s.extras ++ [t] } as
  | .option u :: as => do
    let c ← u.cluster
    match c.waiting, as with
    | none, as =>
      match ← s.perform c.complete with
      | .inl s => readFrom s as
      | .inr r => return .inr r
    | some o, .operand value :: as =>
      match ← s.perform (c.complete ++ [(o, value)]) with
      | .inl s => readFrom s as
      | .inr r => return .inr r
    | some o, _ => throw (.problem o .noValue)

end Reading

/-- The request of a command line. -/
def Request.ofArguments (arguments : List Text) : Except UsageError Request := do
  match ← Reading.readFrom {} (← classify arguments) with
  | .inr r => return r
  | .inl s => if s.extras.isEmpty then return .run s.options else throw (.unrecognized s.extras)

def UsageError.text (e : UsageError) : String := s!"{usageText}{programName}: error: {e.message}\n"

def usageExitCode : Nat := 2

end ImportRepair.Cli
