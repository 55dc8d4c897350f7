/-
# The words of a JSON text

`tokens` cuts a text into its words. White space only separates words, so two texts
that differ in white space between words have the same tokens, and everything after
this module is independent of layout.

A text that is no JSON is cut as far as it goes: the word at which it breaks down is
its last token. What is wrong with a text value or a number can depend on whether
somebody wants its value. A text keeps its `\u` units, so that an unpaired surrogate
is found only by a reader of the text, and a broken number says what a reader of the
number and what a reader that only passes over it find.

Key definitions: `Fault`, `Piece`, `TextLiteral`, `TextLiteral.value`, `Token`, `tokens`.
-/
import TraceBacklog.Number.Literal
import TraceBacklog.Text.Hex

namespace TraceBacklog

/-- Why a text is no JSON: it ends too early, or what it has does not fit. -/
inductive Fault where
  | endOfText
  | malformed
deriving DecidableEq, Repr, Inhabited

/-- A character of a text literal, or a 16-bit unit given by number. -/
inductive Piece where
  | char (c : Char)
  | unit (u : Nat)
deriving DecidableEq, Repr

/-- A text literal as far as it can be read; `fault` says why it has no end. -/
structure TextLiteral where
  pieces : List Piece
  fault : Option Fault
deriving DecidableEq, Repr

namespace TextLiteral

def cons (p : Piece) (t : TextLiteral) : TextLiteral := { t with pieces := p :: t.pieces }

/-- A literal without an end. -/
def broken (f : Fault) : TextLiteral := ⟨[], some f⟩

def isHighSurrogate (u : Nat) : Bool := 0xD800 ≤ u && u < 0xDC00

def isLowSurrogate (u : Nat) : Bool := 0xDC00 ≤ u && u < 0xE000

/-- The character that a surrogate pair stands for. -/
def pair (high low : Nat) : Char :=
  Char.ofNat (0x10000 + (high - 0xD800) * 0x400 + (low - 0xDC00))

/-- The characters of a literal. A high surrogate needs a low one right after it; if
the literal breaks off there, that is what is found. -/
def decode (fault : Option Fault) : List Piece → Except Fault (List Char)
  | [] =>
    match fault with
    | none => .ok []
    | some f => .error f
  | .char c :: rest => (decode fault rest).map (c :: ·)
  | .unit u :: rest =>
    if isLowSurrogate u then .error .malformed
    else if isHighSurrogate u then
      match rest with
      | .unit v :: rest' =>
        if isLowSurrogate v then (decode fault rest').map (pair u v :: ·) else .error .malformed
      | [] => .error (fault.getD .malformed)
      | .char _ :: _ => .error .malformed
    else (decode fault rest).map (Char.ofNat u :: ·)

/-- The text of a literal. -/
def value (t : TextLiteral) : Except Fault String :=
  (decode t.fault t.pieces).map String.ofList

end TextLiteral

/-- A word of a JSON text. -/
inductive Token where
  | openArray
  | closeArray
  | openObject
  | closeObject
  | comma
  | colon
  | null
  | bool (b : Bool)
  | number (n : Literal)
  | text (t : TextLiteral)
  /-- No word; what one who wants its value and one who passes over it find. -/
  | broken (read skip : Fault)
deriving DecidableEq, Repr

namespace Token

/-- Nothing after such a token can be cut into words. -/
def isLast : Token → Bool
  | .broken _ _ => true
  | .text t => t.fault.isSome
  | _ => false

def noWord : Token := .broken .malformed .malformed

/-- The fault of a number that stops before `rest`; one who only passes over it does
not tell an early end from a wrong character. -/
def brokenNumber (rest : List Char) : Token :=
  .broken (if rest.isEmpty then .endOfText else .malformed) .malformed

end Token

/-- White space between words. -/
def isBlank (c : Char) : Bool := c = ' ' || c = '\n' || c = '\t' || c = '\r'

/-- The character of a one-letter escape. -/
def unescape? (c : Char) : Option Char :=
  match c with
  | '"' => some '"'
  | '\\' => some '\\'
  | '/' => some '/'
  | 'b' => some '\x08'
  | 'f' => some '\x0c'
  | 'n' => some '\n'
  | 'r' => some '\r'
  | 't' => some '\t'
  | _ => none

/-- The number that four hexadecimal digits of either case denote. -/
def unitOf? (a b c d : Char) : Option Nat := do
  let a ← Hex.value? a
  let b ← Hex.value? b
  let c ← Hex.value? c
  let d ← Hex.value? d
  return ((a * 16 + b) * 16 + c) * 16 + d

/-- What is wrong where four digits should stand: an end is found when fewer than four
bytes are left. -/
def unitFault (cs : List Char) : Fault :=
  if 4 ≤ cs.foldr (fun c n => c.utf8Size + n) 0 then .malformed else .endOfText

/-- Reads a text literal after its opening quote. -/
def scanText : List Char → TextLiteral × List Char
  | [] => (.broken .endOfText, [])
  | '"' :: rest => (⟨[], none⟩, rest)
  | ['\\'] => (.broken .endOfText, [])
  | '\\' :: 'u' :: a :: b :: c :: d :: rest =>
    match unitOf? a b c d with
    | some u =>
      let (t, after) := scanText rest
      (t.cons (.unit u), after)
    | none => (.broken (unitFault (a :: b :: c :: d :: rest)), [])
  | '\\' :: 'u' :: rest => (.broken (unitFault rest), [])
  | '\\' :: e :: rest =>
    match unescape? e with
    | some c =>
      let (t, after) := scanText rest
      (t.cons (.char c), after)
    | none => (.broken .malformed, [])
  | c :: rest =>
    if c.toNat < 32 then (.broken .malformed, [])
    else
      let (t, after) := scanText rest
      (t.cons (.char c), after)

/-- Reads the exponent of a number, if there is one. -/
def scanExponent (negative : Bool) (whole fraction : List Nat) (cs : List Char) :
    Token × List Char :=
  match cs with
  | e :: rest =>
    if e = 'e' || e = 'E' then
      let (minus, rest) := match rest with
        | '+' :: rest => (false, rest)
        | '-' :: rest => (true, rest)
        | _ => (false, rest)
      match takeDigits rest with
      | ([], after) => (.brokenNumber after, [])
      | (ds, after) => (.number ⟨negative, whole, fraction, some ⟨minus, ds⟩⟩, after)
    else (.number ⟨negative, whole, fraction, none⟩, cs)
  | [] => (.number ⟨negative, whole, fraction, none⟩, [])

/-- Reads the digits after the point of a number, if there is one. -/
def scanFraction (negative : Bool) (whole : List Nat) (cs : List Char) : Token × List Char :=
  match cs with
  | '.' :: rest =>
    match takeDigits rest with
    | ([], after) => (.brokenNumber after, [])
    | (ds, after) => scanExponent negative whole ds after
  | _ => scanExponent negative whole [] cs

/-- Reads a number after its sign. A leading zero stands alone. -/
def scanNumber (negative : Bool) (cs : List Char) : Token × List Char :=
  match takeDigits cs with
  | ([], after) => (.brokenNumber after, [])
  | (0 :: _ :: _, _) => (.noWord, [])
  | (ds, after) => scanFraction negative ds after

/-- Reads the rest of a word that is known from its first letter. -/
def scanWord (word : Token) : List Char → List Char → Token × List Char
  | [], cs => (word, cs)
  | _ :: _, [] => (.broken .endOfText .endOfText, [])
  | w :: ws, c :: cs => if c = w then scanWord word ws cs else (.noWord, [])

/-- Reads the word that starts with `c`, which is not blank. -/
def scanToken (c : Char) (rest : List Char) : Token × List Char :=
  match c with
  | '[' => (.openArray, rest)
  | ']' => (.closeArray, rest)
  | '{' => (.openObject, rest)
  | '}' => (.closeObject, rest)
  | ',' => (.comma, rest)
  | ':' => (.colon, rest)
  | 'n' => scanWord .null ['u', 'l', 'l'] rest
  | 't' => scanWord (.bool true) ['r', 'u', 'e'] rest
  | 'f' => scanWord (.bool false) ['a', 'l', 's', 'e'] rest
  | '-' => scanNumber true rest
  | '"' =>
    let (t, after) := scanText rest
    (.text t, after)
  | _ => if c.isDigit then scanNumber false (c :: rest) else (.noWord, [])

/-- The words of a text; `fuel` is at least its length. -/
def tokensUpTo : Nat → List Char → List Token
  | 0, _ => []
  | _ + 1, [] => []
  | fuel + 1, c :: rest =>
    if isBlank c then tokensUpTo fuel rest
    else
      let (t, after) := scanToken c rest
      if t.isLast then [t] else t :: tokensUpTo fuel after

/-- The words of a text. -/
def tokens (cs : List Char) : List Token := tokensUpTo cs.length cs

end TraceBacklog
