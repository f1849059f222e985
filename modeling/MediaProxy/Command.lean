import MediaProxy.Json.Value
import MediaProxy.Text.Quoted

/-!
This module contains commands, which a server carries out on an object.
-/

namespace MediaProxy

structure Command where
  type : String
  payload : Bytes
  deriving DecidableEq, Repr

inductive Parameters where
  | json (value : Json.Value)
  | pairs

namespace Command

/--
The command with the JSON form of its parameters as payload. The members of objects are put in the
order of their names.
-/
def ofParameters (type : String) : Parameters → Except Json.Problem Command
  | .json value => .ok ⟨type, Bytes.ofText value.sorted.compact⟩
  | .pairs => .error .malformed

def shown (command : Command) : String :=
  Text.record "Command"
    [("command_type", Text.quoted command.type), ("payload", Bytes.quoted command.payload)]

end Command

end MediaProxy
