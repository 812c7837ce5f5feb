import HeartKeypad.Number.Hex

/-!
# Strings of settings files

Strings come in four forms: basic ones, with escapes, and literal ones, without, both
on a single line or over several.  A newline is a line feed, alone or behind a carriage
return, and is read as a line feed; one directly behind the opening quotes of a string
over several lines does not count.

Each reader takes the text behind the opening quotes, and gives the string and what
stands behind its closing quotes.
-/

namespace HeartKeypad

namespace Toml

/-- A character that a string on a single line may hold, quotes and escapes apart: any
but control characters, tabs excepted. -/
def isPlain (c : Char) : Bool :=
  c == '\t' || (decide (32 ≤ c.toNat) && decide (c.toNat ≠ 127))

/-- A space or a tab. -/
def isSpace (c : Char) : Bool := c == ' ' || c == '\t'

/-- The character with a number, unless that is a surrogate or beyond the last one. -/
def scalar? (digits : Text) : Option Char := do
  let n ← Hex.nat? digits
  if h : n.isValidChar then some (Char.ofNatAux n h) else none

/-- The character of a one-letter escape. -/
def letterEscape? : Char → Option Char
  | 'b' => some (Char.ofNat 8)
  | 't' => some '\t'
  | 'n' => some '\n'
  | 'f' => some (Char.ofNat 12)
  | 'r' => some '\r'
  | '"' => some '"'
  | '\\' => some '\\'
  | _ => none

/-- A character in front of what is read next. -/
def put (c : Char) (r : Option (Text × Text)) : Option (Text × Text) :=
  r.map fun (cs, rest) => (c :: cs, rest)

/-- Reads a basic string on a single line. -/
def readBasic? : Text → Option (Text × Text)
  | [] => none
  | '"' :: r => some ([], r)
  | '\\' :: 'u' :: a :: b :: c :: d :: r =>
    (scalar? [a, b, c, d]).bind fun x => put x (readBasic? r)
  | '\\' :: 'U' :: a :: b :: c :: d :: e :: f :: g :: h :: r =>
    (scalar? [a, b, c, d, e, f, g, h]).bind fun x => put x (readBasic? r)
  | '\\' :: l :: r => (letterEscape? l).bind fun x => put x (readBasic? r)
  | c :: r => if isPlain c && c != '\\' then put c (readBasic? r) else none

/-- Reads a literal string on a single line. -/
def readLiteral? : Text → Option (Text × Text)
  | [] => none
  | '\'' :: r => some ([], r)
  | c :: r => if isPlain c then put c (readLiteral? r) else none

/-- What a backslash at the end of a line has set going: nothing, a search for the end
of that line, or the skipping of blanks behind it. -/
inductive Fold where
  | none
  | seeking
  | skipping
deriving DecidableEq

/-- A string ends with quotes of its own in front of the closing ones. -/
def ending (quotes : Text) (rest : Text) (fold : Fold) : Option (Text × Text) :=
  if fold = .seeking then none else some (quotes, rest)

/-- Reads a basic string over several lines. -/
def readBasicLines? (fold : Fold) : Text → Option (Text × Text)
  | [] => none
  | '"' :: '"' :: '"' :: '"' :: '"' :: r => ending ['"', '"'] r fold
  | '"' :: '"' :: '"' :: '"' :: r => ending ['"'] r fold
  | '"' :: '"' :: '"' :: r => ending [] r fold
  | '\r' :: '\n' :: r =>
    if fold = .none then put '\n' (readBasicLines? .none r) else readBasicLines? .skipping r
  | '\n' :: r =>
    if fold = .none then put '\n' (readBasicLines? .none r) else readBasicLines? .skipping r
  | '\\' :: 'u' :: a :: b :: c :: d :: r =>
    if fold = .seeking then none
    else (scalar? [a, b, c, d]).bind fun x => put x (readBasicLines? .none r)
  | '\\' :: 'U' :: a :: b :: c :: d :: e :: f :: g :: h :: r =>
    if fold = .seeking then none
    else (scalar? [a, b, c, d, e, f, g, h]).bind fun x => put x (readBasicLines? .none r)
  | '\\' :: l :: r =>
    if fold = .seeking then none
    else if isSpace l then readBasicLines? .seeking r
    else if l = '\n' then readBasicLines? .skipping r
    else if l = '\r' then
      match r with
      | '\n' :: r => readBasicLines? .skipping r
      | _ => none
    else (letterEscape? l).bind fun x => put x (readBasicLines? .none r)
  | c :: r =>
    if isSpace c && fold != .none then readBasicLines? fold r
    else if fold = .seeking then none
    else if isPlain c && c != '\\' then put c (readBasicLines? .none r)
    else none

/-- Reads a literal string over several lines. -/
def readLiteralLines? : Text → Option (Text × Text)
  | [] => none
  | '\'' :: '\'' :: '\'' :: '\'' :: '\'' :: r => some (['\'', '\''], r)
  | '\'' :: '\'' :: '\'' :: '\'' :: r => some (['\''], r)
  | '\'' :: '\'' :: '\'' :: r => some ([], r)
  | '\r' :: '\n' :: r => put '\n' (readLiteralLines? r)
  | '\n' :: r => put '\n' (readLiteralLines? r)
  | c :: r => if isPlain c then put c (readLiteralLines? r) else none

/-- The text behind a newline, if it starts with one. -/
def skipNewline : Text → Text
  | '\n' :: r => r
  | '\r' :: '\n' :: r => r
  | r => r

/-- Reads a string of any form, from its opening quotes. -/
def readString? : Text → Option (Text × Text)
  | '"' :: '"' :: '"' :: r => readBasicLines? .none (skipNewline r)
  | '"' :: r => readBasic? r
  | '\'' :: '\'' :: '\'' :: r => readLiteralLines? (skipNewline r)
  | '\'' :: r => readLiteral? r
  | _ => none

end Toml

end HeartKeypad
