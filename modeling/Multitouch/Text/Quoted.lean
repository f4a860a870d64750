import Multitouch.Text.Hidden

/-!
# Quoted text

Text in double quotes, from which the text can be read back: quotes and backslashes are escaped,
the usual controls have letters, and all other characters that do not show are written by
number.
-/

namespace Multitouch.Quoted

/-- A character as it stands between quotes. -/
def escape : Char → List Char
  | '"' => ['\\', '"']
  | '\\' => ['\\', '\\']
  | '\t' => ['\\', 't']
  | '\n' => ['\\', 'n']
  | '\r' => ['\\', 'r']
  | '\x00' => ['\\', '0']
  | c =>
    if Charset.hidden.contains c then
      ['\\', 'u', '{'] ++ Nat.toDigits 16 c.toNat ++ ['}']
    else [c]

/-- A text in quotes. -/
def quote (text : String) : String :=
  String.ofList ('"' :: text.toList.flatMap escape ++ ['"'])

end Multitouch.Quoted
