import VirtualShell.Number.Hexadecimal
import VirtualShell.Text.DisplayTable
import VirtualShell.Text.Ranges

/-!
# Quoted text

A text between double quotes, written so that every character shows: quotes and backslashes are
escaped, the common control characters have their letter, and characters that cannot be printed or
that would combine with their neighbour are given by code point.
-/

namespace VirtualShell.Text

example : Ascending unprintableRanges ∧ Ascending extendingRanges := by decide +kernel

/-- One character as it stands between the quotes. -/
def quotedChar (c : Char) : String :=
  match c with
  | '"' => "\\\""
  | '\\' => "\\\\"
  | '\n' => "\\n"
  | '\r' => "\\r"
  | '\t' => "\\t"
  | '\x00' => "\\0"
  | c =>
    if inRanges c.toNat extendingRanges || inRanges c.toNat unprintableRanges then
      "\\u\x7b" ++ Number.hexadecimal c.toNat ++ "\x7d"
    else c.toString

/-- The text between double quotes. -/
def quoted (s : String) : String :=
  "\"" ++ String.join (s.toList.map quotedChar) ++ "\""

end VirtualShell.Text
