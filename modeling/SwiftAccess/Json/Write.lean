import SwiftAccess.Text.Printable

/-!
# Writing JSON

The command line prints the replaced lines as a JSON object from line numbers to texts, laid out
with two-space indentation and one member to a line. Strings escape the quote, the backslash and
the control characters below U+0020, using the short forms `\b \f \n \r \t` where they exist and
`\u00xx` with lower-case digits otherwise; every other character, including non-ASCII ones, is
written as it is.
-/

namespace SwiftAccess.Json

/-- The escape sequence for a character of a JSON string, as characters. -/
def escapeChar (c : Char) : List Char :=
  match c with
  | '"' => ['\\', '"']
  | '\\' => ['\\', '\\']
  | '\n' => ['\\', 'n']
  | '\r' => ['\\', 'r']
  | '\t' => ['\\', 't']
  | '\x08' => ['\\', 'b']
  | '\x0c' => ['\\', 'f']
  | c =>
    if c.toNat < 0x20 then
      let hex := Text.hexDigits c.toNat
      ['\\', 'u'] ++ List.replicate (4 - hex.length) '0' ++ hex
    else [c]

/-- A JSON string literal. -/
def quote (s : String) : String :=
  String.ofList ('"' :: s.toList.flatMap escapeChar ++ ['"'])

/-- An object from line numbers to texts, members in the given order, one to a line. -/
def prettyLineMap (members : List (Nat × String)) : String :=
  match members with
  | [] => "\x7b\x7d"
  | _ =>
    let body := members.map fun m => "  " ++ quote (toString m.1) ++ ": " ++ quote m.2
    "\x7b\n" ++ ",\n".intercalate body ++ "\n\x7d"

end SwiftAccess.Json
