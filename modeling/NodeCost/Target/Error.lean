import NodeCost.Target.Feature
import NodeCost.Text.Quoted

namespace NodeCost

inductive TargetError where
  | empty
  /-- The bytes are no text; `shown` is what can be read of them. -/
  | notUtf8 (shown : String)
  | unknownArch (name : String)
  | unknownFeature (name : String)
  | foreignFeature (feature : Feature) (arch : Arch)
deriving DecidableEq, Repr

def TargetError.message : TargetError → String
  | empty => "empty target description"
  | notUtf8 shown => "target description is not valid UTF-8: " ++ Text.quote shown
  | unknownArch name => "unknown architecture `" ++ name ++ "`"
  | unknownFeature name => "unknown CPU feature `" ++ name ++ "`"
  | foreignFeature feature arch =>
    "CPU feature `" ++ feature.name ++ "` is not available on " ++ arch.name

end NodeCost
