import NodeCost.Json.Token

namespace NodeCost

/-- A JSON value. An object keeps its members in order, and a key may stand in it twice. -/
inductive Json where
  | null
  | bool (b : Bool)
  | number (n : Json.Numeral)
  | string (s : String)
  | array (items : List Json)
  | object (members : List (String × Json))

namespace Json

mutual

def tokens : Json → List Token
  | null => [.null]
  | bool b => [.bool b]
  | number n => [.number n]
  | string s => [.string (some s)]
  | array items => .openArray :: (itemTokens items).tail ++ [.closeArray]
  | object members => .openObject :: (memberTokens members).tail ++ [.closeObject]

/-- The lexemes of some values, each behind a comma. -/
def itemTokens : List Json → List Token
  | [] => []
  | v :: r => .comma :: tokens v ++ itemTokens r

def memberTokens : List (String × Json) → List Token
  | [] => []
  | (k, v) :: r => .comma :: .string (some k) :: .colon :: tokens v ++ memberTokens r

end

def Token.chars : Token → List Char
  | openArray => ['[']
  | closeArray => [']']
  | openObject => ['\x7b']
  | closeObject => ['\x7d']
  | comma => [',']
  | colon => [':']
  | null => ['n', 'u', 'l', 'l']
  | bool true => ['t', 'r', 'u', 'e']
  | bool false => ['f', 'a', 'l', 's', 'e']
  | number n => n.chars
  | string s => quoted ((s.map String.toList).getD [])
  | junk => []

def text (v : Json) : String := String.ofList (v.tokens.flatMap Token.chars)

end Json

end NodeCost
