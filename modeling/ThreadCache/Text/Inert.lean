import ThreadCache.Text.Quoted

/-!
# Inert text

Text that a terminal prints and never obeys: the control characters that can begin or carry a
command of a terminal are spelled out. All other characters stay as they are, line feeds too.
-/

namespace ThreadCache.Text

/--
A character, spelled by its number if a terminal could take it for a command: the bell, the
backspace, the form feed, the escape, the delete, and the control characters beyond ASCII.
-/
def inertChar (c : Char) : List Char :=
  match c with
  | '\x07' => ['\\', 'x', '0', '7']
  | '\x08' => ['\\', 'x', '0', '8']
  | '\x0c' => ['\\', 'x', '0', 'c']
  | '\x1b' => ['\\', 'x', '1', 'b']
  | '\x7f' => ['\\', 'x', '7', 'f']
  | c => if 0x80 ≤ c.toNat ∧ c.toNat ≤ 0x9f then numbered c else [c]

def inert (s : String) : String := String.ofList (s.toList.flatMap inertChar)

end ThreadCache.Text
