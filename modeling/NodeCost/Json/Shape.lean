import NodeCost.Json.Token
import NodeCost.Text.Quoted

namespace NodeCost.Json

/-- What a reader saw of a value: all of a scalar, and only the kind of a container. -/
inductive Shape where
  | null
  | boolean (b : Bool)
  | number (q : Quantity)
  | string (s : String)
  | sequence
  | map
deriving DecidableEq, Repr

def Token.shape? : Token → Option Shape
  | null => some .null
  | bool b => some (.boolean b)
  | number n => n.quantity?.map .number
  | string s => s.map .string
  | openArray => some .sequence
  | openObject => some .map
  | _ => none

def Quantity.text : Quantity → String
  | integer n => "integer `" ++ toString n ++ "`"
  | floating x => "floating point `" ++ x.text ++ "`"

def Shape.text : Shape → String
  | null => "null"
  | boolean b => "boolean `" ++ toString b ++ "`"
  | number q => q.text
  | string s => "string " ++ Text.quote s
  | sequence => "sequence"
  | map => "map"

end NodeCost.Json
