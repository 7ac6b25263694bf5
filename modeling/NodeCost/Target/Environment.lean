import NodeCost.Target.Spelling
import NodeCost.Text.Utf8

namespace NodeCost

/-- The target that the value of an environment variable asks for. Only a variable that is not
set stands for the host. -/
def Target.ofVariable (host : Target) : Option (List UInt8) → Except TargetError Target
  | none => .ok host
  | some bytes =>
    match Text.Utf8.decode? bytes with
    | some s => Target.ofChars s
    | none => .error (.notUtf8 (String.ofList (Text.Utf8.decodeLossy bytes)))

end NodeCost
