import Pseudocode.Text.Visible

/-!
# Quoted text

A text in double quotes on one line, from which the text can be read back.  The quote, the
backslash and five controls have short escapes; any other character that would not show, or that
would attach itself to its neighbour, is spelled by its number in braces.  An apostrophe needs no
escape.
-/

namespace Pseudocode.Text

/-- A character spelled by its number. -/
def spelled (c : Char) : String :=
  "\\u\x7b" ++ String.ofList (Nat.toDigits 16 c.toNat) ++ "\x7d"

/-- A character inside quotes.  The printable ASCII characters all show. -/
def escaped (c : Char) : String :=
  match c with
  | '"' => "\\\""
  | '\\' => "\\\\"
  | '\n' => "\\n"
  | '\r' => "\\r"
  | '\t' => "\\t"
  | '\x00' => "\\0"
  | c =>
    if ' ' ≤ c && c ≤ '~' then c.toString
    else if isAttached c || isHidden c then spelled c
    else c.toString

/-- A text in double quotes. -/
def quoted (s : String) : String :=
  "\"" ++ String.join (s.toList.map escaped) ++ "\""

end Pseudocode.Text
