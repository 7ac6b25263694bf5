import NodeCost.Text.Printable
import NodeCost.Text.Extending
import NodeCost.Text.Ignorable

namespace NodeCost.Text

def hexEscape (c : Char) : List Char :=
  '\\' :: 'u' :: '\x7b' :: (Nat.toDigits 16 c.toNat ++ ['\x7d'])

def standsAlone (c : Char) : Bool := isPrintable c && !isExtending c && !isIgnorable c

/-- How a character stands inside quotes: an escape letter where it has one, itself where it
stands alone, and its code point otherwise. -/
def quoteChar (c : Char) : List Char :=
  match c with
  | '"' => ['\\', '"']
  | '\\' => ['\\', '\\']
  | '\t' => ['\\', 't']
  | '\n' => ['\\', 'n']
  | '\r' => ['\\', 'r']
  | '\x00' => ['\\', '0']
  | _ => if standsAlone c then [c] else hexEscape c

def quote (s : String) : String :=
  String.ofList ('"' :: (s.toList.flatMap quoteChar ++ ['"']))

end NodeCost.Text
