import StreamConfig.Text.Hidden

/-! # Quoted text

`quoted` writes a text between double quotes so that no quote, backslash or control character of
the text stands for itself. It is used where a description shows a text as data.

* `\0`, `\t`, `\n`, `\r`, `\"` and `\\` have short forms;
* a hidden character is written by its code point: `\u` and lower-case hexadecimal digits in braces;
* all else stands for itself.
-/

namespace StreamConfig.Text

/-- One character as a description shows it. -/
def quotedChar (c : Char) : List Char :=
  match c with
  | '\x00' => ['\\', '0']
  | '\t' => ['\\', 't']
  | '\n' => ['\\', 'n']
  | '\r' => ['\\', 'r']
  | '"' => ['\\', '"']
  | '\\' => ['\\', '\\']
  | c =>
    if isHidden c then
      ['\\', 'u', '\x7b'] ++ Nat.toDigits 16 c.toNat ++ ['\x7d']
    else [c]

/-- The text between double quotes. -/
def quoted (s : String) : String :=
  String.ofList ('"' :: (s.toList.flatMap quotedChar ++ ['"']))

end StreamConfig.Text
