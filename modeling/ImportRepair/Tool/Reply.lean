import ImportRepair.Host.Basic
import ImportRepair.Json.Reader

/-!
# The result of a tool as a line

A host that does not start tools by itself is told how each of them has ended.
The reply to a call is one line: a JSON object with the fields `stdout`,
`stderr` and `returncode`, or with the field `raise`, which names the reason why
the tool could not be run.  A field that is missing says nothing, and no field
holds a container.
-/

namespace ImportRepair

/-- The result of a tool that the fields of a reply tell. -/
def ToolResult.ofFields (fields : List (Text × Json)) : ToolResult :=
  let field (name : String) : Text :=
    match fields.lookup name.toList with
    | some (.string t) => t
    | _ => []
  let code : Int :=
    match fields.lookup "returncode".toList with
    | some (.integer n) => n
    | _ => 0
  match String.ofList (field "raise") with
  | "not_found" => .notFound
  | "denied" => .denied
  | "timeout" => .timedOut
  | _ => .finished (field "stdout") (field "stderr") code

/-- The result of a tool that a reply tells.  Without a usable reply there is no such tool. -/
def ToolResult.ofReply (line : Text) : ToolResult :=
  match Json.read 1 line with
  | .ok (.object fields) => ofFields fields
  | _ => .notFound

end ImportRepair
