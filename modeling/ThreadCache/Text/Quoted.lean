import ThreadCache.Text.Hidden

/-!
# Quoted text

A string as error messages show it: between quotes, with the usual short escapes, and with the
number of every character that has no glyph of its own.
-/

namespace ThreadCache.Text

/-- The number of a character in braces, in lower case hexadecimal without leading zeros. -/
def numbered (c : Char) : List Char :=
  ['\\', 'u', '\x7b'] ++ Nat.toDigits 16 c.toNat ++ ['\x7d']

def quotedChar (c : Char) : List Char :=
  match c with
  | '\x00' => ['\\', '0']
  | '\t' => ['\\', 't']
  | '\r' => ['\\', 'r']
  | '\n' => ['\\', 'n']
  | '"' => ['\\', '"']
  | '\\' => ['\\', '\\']
  | c => if isHidden c then numbered c else [c]

def quoted (s : String) : String :=
  String.ofList ('"' :: s.toList.flatMap quotedChar ++ ['"'])

end ThreadCache.Text
