/-
# Quoted text for people

Diagnostics and log fields show a text between double quotes, with the quote and
the backslash escaped, the usual control characters as letters, and every other
character that cannot be seen as its code point in braces.

Key definitions: `Quoted.escape`, `quoted`.
-/
import TraceBacklog.Text.Invisible

namespace TraceBacklog

namespace Quoted

/-- A code point in braces, in the fewest lower-case hexadecimal digits. -/
def spelled (c : Char) : List Char :=
  ['\\', 'u', '{'] ++ Nat.toDigits 16 c.toNat ++ ['}']

/-- One character between the quotes. -/
def escape (c : Char) : List Char :=
  match c with
  | '\x00' => ['\\', '0']
  | '\t' => ['\\', 't']
  | '\r' => ['\\', 'r']
  | '\n' => ['\\', 'n']
  | '\\' => ['\\', '\\']
  | '"' => ['\\', '"']
  | _ =>
    if c.toNat < 32 || c.toNat = 127 || Invisible.holds c then spelled c else [c]

end Quoted

/-- A text between quotes. -/
def quoted (s : String) : String :=
  String.ofList ('"' :: s.toList.flatMap Quoted.escape ++ ['"'])

/-- A text that may be absent. -/
def quotedOption : Option String → String
  | none => "None"
  | some s => "Some(" ++ quoted s ++ ")"

example : quoted "it's" = "\"it's\"" := by decide +kernel
example : quoted "a\"b\\c\n" = "\"a\\\"b\\\\c\\n\"" := by decide +kernel

end TraceBacklog
