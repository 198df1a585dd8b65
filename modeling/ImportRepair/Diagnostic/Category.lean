import ImportRepair.Text.Basic

/-!
# Categories of diagnostics

Each diagnostic belongs to a coarse category.  Its code decides, letters in
either case; for a code that is not in the table, a few words of the message
decide.  Titles and hints are texts for reports and never lead to an edit.
-/

namespace ImportRepair

/-- The coarse categories of compiler diagnostics. -/
inductive Category where
  | typeMismatch
  | nullUndefined
  | missingProperty
  | unknownIdentifier
  | syntaxError
  | importExport
  | invalidArguments
  | functionReturn
  | objectProperty
  | asyncAwait
  | other
deriving DecidableEq, Repr

namespace Category

def all : List Category :=
  [.typeMismatch, .nullUndefined, .missingProperty, .unknownIdentifier, .syntaxError,
   .importExport, .invalidArguments, .functionReturn, .objectProperty, .asyncAwait, .other]

def name : Category → String
  | typeMismatch => "type-mismatch"
  | nullUndefined => "null-undefined"
  | missingProperty => "missing-property"
  | unknownIdentifier => "unknown-identifier"
  | syntaxError => "syntax-error"
  | importExport => "import-export"
  | invalidArguments => "invalid-arguments"
  | functionReturn => "function-return"
  | objectProperty => "object-property"
  | asyncAwait => "async-await"
  | other => "other"

/-! ### Codes and messages -/

/-- The codes with a category of their own. -/
def ofCodeTable : List (String × Category) :=
  [("TS2322", .typeMismatch), ("TS2345", .typeMismatch), ("TS2531", .nullUndefined),
   ("TS2532", .nullUndefined), ("TS2533", .nullUndefined), ("TS18047", .nullUndefined),
   ("TS18048", .nullUndefined), ("TS2551", .missingProperty), ("TS2339", .missingProperty),
   ("TS2304", .unknownIdentifier), ("TS1005", .syntaxError), ("TS1128", .syntaxError),
   ("TS2307", .importExport), ("TS2305", .importExport), ("TS2300", .importExport),
   ("TS6133", .importExport), ("TS6192", .importExport), ("TS2554", .invalidArguments),
   ("TS2555", .invalidArguments), ("TS2556", .invalidArguments), ("TS2769", .functionReturn),
   ("TS2559", .functionReturn), ("TS2366", .objectProperty), ("TS2536", .objectProperty),
   ("TS2612", .asyncAwait), ("TS1308", .asyncAwait)]

/-- Words of a message that tell the category of an unknown code, in the order in which they are
    looked for. -/
def ofWordTable : List (List String × Category) :=
  [(["undefined", "null"], .nullUndefined),
   (["import", "export"], .importExport),
   (["async", "await", "Promise"], .asyncAwait)]

/-- A character of a code as a capital letter.  Codes are made of the letters T and S and of
    digits; apart from their small letters only the long s has one of them as its capital. -/
def capital (c : Char) : Char := if c = 'ſ' then 'S' else c.toUpper

def of (code message : Text) : Category :=
  match ofCodeTable.lookup (String.ofList (code.map capital)) with
  | some c => c
  | none =>
    match ofWordTable.find? fun p => p.1.any fun w => Text.occursIn w.toList message with
    | some p => p.2
    | none => other

/-! ### Texts for reports -/

def hints : Category → List String
  | typeMismatch =>
    ["Check if you're passing the correct type of value",
     "Use type assertions if you're sure the type is correct (e.g., `as Type`)",
     "Update the expected type in the function/variable declaration"]
  | nullUndefined =>
    ["Use optional chaining (e.g., `obj?.prop`) to safely access potentially undefined properties",
     "Add null/undefined checks before accessing properties",
     "Use a default value with the nullish coalescing operator (e.g., `value ?? defaultValue`)"]
  | missingProperty =>
    ["Check for typos in property name",
     "Make sure the object has been initialized with the required properties",
     "Update the type definition if the property should be optional"]
  | unknownIdentifier =>
    ["Import the required module or type",
     "Check for typos in variable/type name",
     "Define the variable or type before using it"]
  | syntaxError =>
    ["Check for missing semicolons, brackets, or other syntax elements",
     "Verify that JSX syntax is properly formatted"]
  | importExport =>
    ["Check that the imported module exists",
     "Verify that the exported name matches the import",
     "Make sure the export is properly defined in the source module"]
  | invalidArguments =>
    ["Compare the call with the function signature",
     "Check for missing or extra arguments"]
  | functionReturn =>
    ["Check which overload the call is expected to match",
     "Verify the declared return type against what the function returns"]
  | objectProperty =>
    ["Make sure every code path returns a value",
     "Check that the index type is valid for the object"]
  | asyncAwait =>
    ["Mark the enclosing function as `async` before using `await`",
     "Check whether a Promise needs to be awaited before use"]
  | other =>
    ["Review the TypeScript documentation for this error code",
     "Check for similar issues in the codebase that have been resolved"]

end Category

/-- What is known of a diagnostic code. -/
structure CodeDetails where
  title : String
  description : String
  documentation : String
deriving DecidableEq, Repr

namespace CodeDetails

def unknown : CodeDetails :=
  ⟨"TypeScript error", "Unknown TypeScript error code", "https://www.typescriptlang.org/docs/"⟩

def handbook (page : String) : String := "https://www.typescriptlang.org/docs/handbook/" ++ page

def table : List (String × CodeDetails) :=
  [("TS2322", ⟨"Type assignment error",
      "Type is not assignable to the target type", handbook "2/everyday-types.html"⟩),
   ("TS2345", ⟨"Argument type error",
      "Argument is not assignable to parameter type", handbook "2/functions.html"⟩),
   ("TS2531", ⟨"Object is possibly null",
      "Object might be null when accessing a property",
      handbook "2/everyday-types.html#null-and-undefined"⟩),
   ("TS2532", ⟨"Object is possibly undefined",
      "Object might be undefined when accessing a property",
      handbook "2/everyday-types.html#null-and-undefined"⟩),
   ("TS2339", ⟨"Property does not exist",
      "Property does not exist on the given type", handbook "2/objects.html"⟩),
   ("TS2304", ⟨"Cannot find name",
      "Referenced name could not be found", handbook "modules.html"⟩),
   ("TS1005", ⟨"Syntax error",
      "Unexpected token in the code", handbook "2/basic-types.html"⟩),
   ("TS2307", ⟨"Cannot find module",
      "Module not found or path is incorrect", handbook "modules.html"⟩),
   ("TS2300", ⟨"Duplicate identifier",
      "The same name is declared or imported more than once", handbook "modules.html"⟩),
   ("TS2554", ⟨"Expected arguments",
      "Function called with incorrect number of arguments", handbook "2/functions.html"⟩),
   ("TS6133", ⟨"Declared but never read",
      "A local or imported name is never used", handbook "compiler-options.html"⟩),
   ("TS6192", ⟨"All imports unused",
      "Every binding of an import declaration is unused", handbook "compiler-options.html"⟩)]

def of? (code : Text) : Option CodeDetails := table.lookup (String.ofList code)

def of (code : Text) : CodeDetails := (of? code).getD unknown

end CodeDetails

end ImportRepair
