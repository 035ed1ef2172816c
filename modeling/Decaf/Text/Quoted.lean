import Decaf.Text.CharClass

namespace Decaf.Quoted

/-- A code point in braces, in hexadecimal without leading zeros. -/
def codePoint (c : Char) : String :=
  "\\u\x7b" ++ String.ofList (Nat.toDigits 16 c.toNat) ++ "\x7d"

def escape : Char → String
  | '\x00' => "\\0"
  | '\t' => "\\t"
  | '\r' => "\\r"
  | '\n' => "\\n"
  | '"' => "\\\""
  | '\\' => "\\\\"
  | c => if CharClass.isPrintable c then c.toString else codePoint c

def body : List Char → String
  | [] => ""
  | c :: cs => escape c ++ body cs

def encode (text : String) : String := "\"" ++ body text.toList ++ "\""

end Decaf.Quoted
