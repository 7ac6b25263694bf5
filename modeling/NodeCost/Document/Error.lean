import NodeCost.Json.Shape
import NodeCost.Target.Error

namespace NodeCost

inductive Demand where
  | target
  | list
  | nothing
deriving DecidableEq, Repr

def Demand.text : Demand → String
  | target => "struct RawTarget"
  | list => "a sequence"
  | nothing => "unit"

inductive DocumentError where
  /-- The text is no JSON, is incomplete, or goes on behind its value. -/
  | malformed
  | mismatch (found : Json.Shape) (demand : Demand)
  /-- A target was written as an empty array. -/
  | noElements
  | unknownName (name : String) (known : List String)
  | missingMember (key : String)
  | repeatedMember (key : String)
  | refused (error : TargetError)
deriving DecidableEq, Repr

def DocumentError.message : DocumentError → String
  | malformed => "malformed document"
  | mismatch found demand => "invalid type: " ++ found.text ++ ", expected " ++ demand.text
  | noElements => "invalid length 0, expected " ++ Demand.target.text ++ " with 2 elements"
  | unknownName name known =>
    "unknown variant `" ++ name ++ "`, expected one of "
      ++ ", ".intercalate (known.map fun k => "`" ++ k ++ "`")
  | missingMember key => "missing field `" ++ key ++ "`"
  | repeatedMember key => "duplicate field `" ++ key ++ "`"
  | refused error => error.message

end NodeCost
