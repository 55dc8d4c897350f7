/-
# JSON values and their text

A value is written compactly, or on several lines with two spaces of indentation a
level. Fields come out in the order in which the object lists them: documents of
unknown shape list them by key (`Json.ofMap`), records in the order of their
declaration. In a text only the quote, the backslash and the characters below U+0020
are escaped.

Key definitions: `Json`, `Json.escape`, `Json.chars`, `Json.prettyChars`,
`Json.compact`, `Json.pretty`.
-/
import TraceBacklog.KeyMap
import TraceBacklog.Number.Literal
import TraceBacklog.Text.Hex

namespace TraceBacklog

/-- A JSON value. -/
inductive Json where
  | null
  | bool (b : Bool)
  | number (n : Number)
  | string (s : String)
  | array (items : List Json)
  | object (fields : List (String × Json))
deriving Repr, Inhabited

namespace Json

/-- A field of an unsigned or signed integer. -/
def nat (n : Nat) : Json := .number (.int n)

/-- An object with its fields by key. -/
def ofMap (m : KeyMap String Json) : Json := .object m.entries

/-- The short escape of a control character, if it has one. -/
def shortEscape (c : Char) : Option Char :=
  match c.toNat with
  | 8 => some 'b'
  | 9 => some 't'
  | 10 => some 'n'
  | 12 => some 'f'
  | 13 => some 'r'
  | _ => none

/-- How a character stands in a text. -/
def escapeChar (c : Char) : List Char :=
  if c = '"' then ['\\', '"']
  else if c = '\\' then ['\\', '\\']
  else if c.toNat < 32 then
    match shortEscape c with
    | some letter => ['\\', letter]
    | none => ['\\', 'u', '0', '0', Hex.digit (c.toNat / 16), Hex.digit (c.toNat % 16)]
  else [c]

/-- The characters of a text between its quotes. -/
def escape (cs : List Char) : List Char := cs.flatMap escapeChar

/-- A text with its quotes. -/
def stringChars (s : String) : List Char := '"' :: escape s.toList ++ ['"']

/-- The word for a truth value. -/
def boolChars (b : Bool) : List Char := if b then "true".toList else "false".toList

mutual

/-- The compact text of a value. -/
def chars : Json → List Char
  | .null => "null".toList
  | .bool b => boolChars b
  | .number n => n.text.toList
  | .string s => stringChars s
  | .array items => '[' :: (itemChars items ++ [']'])
  | .object fields => '{' :: (fieldChars fields ++ ['}'])

/-- The items of an array, from the first one on. -/
def itemChars : List Json → List Char
  | [] => []
  | v :: rest => v.chars ++ moreItemChars rest

/-- Further items, each after a comma. -/
def moreItemChars : List Json → List Char
  | [] => []
  | v :: rest => ',' :: (v.chars ++ moreItemChars rest)

/-- The fields of an object, from the first one on. -/
def fieldChars : List (String × Json) → List Char
  | [] => []
  | (k, v) :: rest => stringChars k ++ ':' :: (v.chars ++ moreFieldChars rest)

/-- Further fields, each after a comma. -/
def moreFieldChars : List (String × Json) → List Char
  | [] => []
  | (k, v) :: rest => ',' :: (stringChars k ++ ':' :: (v.chars ++ moreFieldChars rest))

end

/-- A new line with its indentation. -/
def newline (depth : Nat) : List Char := '\n' :: List.replicate (2 * depth) ' '

mutual

/-- The text of a value on several lines; `depth` is the indentation of its closing
bracket. -/
def prettyChars (depth : Nat) : Json → List Char
  | .array [] => ['[', ']']
  | .object [] => ['{', '}']
  | .array items => '[' :: (prettyItems (depth + 1) items ++ newline depth ++ [']'])
  | .object fields => '{' :: (prettyFields (depth + 1) fields ++ newline depth ++ ['}'])
  | .null => "null".toList
  | .bool b => boolChars b
  | .number n => n.text.toList
  | .string s => stringChars s

/-- Items on lines of their own, from the first one on. -/
def prettyItems (depth : Nat) : List Json → List Char
  | [] => []
  | v :: rest => newline depth ++ v.prettyChars depth ++ prettyMoreItems depth rest

/-- Further items, each after a comma. -/
def prettyMoreItems (depth : Nat) : List Json → List Char
  | [] => []
  | v :: rest => ',' :: (newline depth ++ v.prettyChars depth ++ prettyMoreItems depth rest)

/-- Fields on lines of their own, from the first one on. -/
def prettyFields (depth : Nat) : List (String × Json) → List Char
  | [] => []
  | (k, v) :: rest =>
    newline depth ++ stringChars k ++ [':', ' '] ++ v.prettyChars depth ++
      prettyMoreFields depth rest

/-- Further fields, each after a comma. -/
def prettyMoreFields (depth : Nat) : List (String × Json) → List Char
  | [] => []
  | (k, v) :: rest =>
    ',' :: (newline depth ++ stringChars k ++ [':', ' '] ++ v.prettyChars depth ++
      prettyMoreFields depth rest)

end

/-- The compact text. -/
def compact (v : Json) : String := String.ofList v.chars

/-- The text on several lines. -/
def pretty (v : Json) : String := String.ofList (v.prettyChars 0)

/-- The value of a field. -/
def field? (key : String) : Json → Option Json
  | .object fields => findEntry key fields
  | _ => none

end Json

end TraceBacklog
