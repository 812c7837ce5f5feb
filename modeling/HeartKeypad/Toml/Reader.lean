import HeartKeypad.Toml.Draft
import HeartKeypad.Toml.Scalars
import HeartKeypad.Toml.Strings

/-!
# Settings files

`Toml.read?` reads a document of the TOML 1.0 format; one that is not well formed has
no value.

Values hold other values in brackets or braces, and a limit is set to how deep.  The
limit is what the reader of values recurses on: within brackets one level less is left,
and the values of an array are read by the reader for that level.
-/

namespace HeartKeypad

namespace Toml

/-! ### Lines -/

/-- The text behind spaces and tabs. -/
def skipSpaces (s : Text) : Text := s.dropWhile isSpace

/-- The text behind a comment, if it starts with one. -/
def skipComment : Text → Text
  | '#' :: r => r.dropWhile isPlain
  | r => r

/-- The text behind what may still stand on a line, and behind the line's end. -/
def afterLine? (s : Text) : Option Text :=
  match skipComment (skipSpaces s) with
  | [] => some []
  | '\n' :: r => some r
  | '\r' :: '\n' :: r => some r
  | _ => none

/-- The text behind spaces, newlines and comments, which may start inside one. -/
def skipBreaks (inComment : Bool) : Text → Text
  | [] => []
  | '\n' :: r => skipBreaks false r
  | '\r' :: '\n' :: r => skipBreaks false r
  | c :: r =>
    if inComment then
      if isPlain c then skipBreaks true r else c :: r
    else if isSpace c then skipBreaks false r
    else if c = '#' then skipBreaks true r
    else c :: r

/-! ### Keys -/

/-- A character of a key without quotes. -/
def isBare (c : Char) : Bool := c.isAlphanum || c == '-' || c == '_'

/-- Reads a key: a string on a single line, or a word without quotes. -/
def readKey? : Text → Option (Text × Text)
  | '"' :: r => readBasic? r
  | '\'' :: r => readLiteral? r
  | s =>
    if (s.takeWhile isBare).isEmpty then none
    else some (s.takeWhile isBare, s.dropWhile isBare)

/-- Reads at most so many keys with dots between them. -/
def readPath? : Nat → Text → Option (Path × Text)
  | 0, _ => none
  | n + 1, s => do
    let (key, r) ← readKey? (skipSpaces s)
    match skipSpaces r with
    | '.' :: r => (readPath? n r).map fun (p, r) => (⟨key :: p.parents, p.key⟩, r)
    | r => some (⟨[], key⟩, r)

/-- The most keys of a path, and the most brackets around a value. -/
def deepest : Nat := 79

/-! ### Values -/

/-- Reads a value without brackets. -/
def readScalar? : Text → Option (Toml × Text)
  | 't' :: 'r' :: 'u' :: 'e' :: r => some (.boolean true, r)
  | 'f' :: 'a' :: 'l' :: 's' :: 'e' :: r => some (.boolean false, r)
  | '"' :: r => (readString? ('"' :: r)).map fun (t, r) => (.text t, r)
  | '\'' :: r => (readString? ('\'' :: r)).map fun (t, r) => (.text t, r)
  | s => readNumber? s

/-- Reads the values of an array, up to its closing bracket; a comma may follow the
last one. -/
def readElements? (read : Text → Option (Toml × Text)) :
    Nat → Text → Option (List Toml × Text)
  | 0, _ => none
  | fuel + 1, s =>
    match skipBreaks false s with
    | ']' :: r => some ([], r)
    | s => do
      let (v, r) ← read s
      match skipBreaks false r with
      | ',' :: r => (readElements? read fuel r).map fun (vs, r) => (v :: vs, r)
      | ']' :: r => some ([v], r)
      | _ => none

/-- Reads a path, an equals sign and a value. -/
def readEntry? (read : Text → Option (Toml × Text)) (s : Text) :
    Option ((Path × Toml) × Text) := do
  let (p, r) ← readPath? deepest s
  let r ← after? '=' r
  let (v, r) ← read (skipSpaces r)
  some ((p, v), r)

/-- Reads entries with commas between them, up to the closing brace. -/
def readEntries? (read : Text → Option (Toml × Text)) :
    Nat → Text → Option (List (Path × Toml) × Text)
  | 0, _ => none
  | fuel + 1, s => do
    let (e, r) ← readEntry? read s
    match skipSpaces r with
    | ',' :: r => (readEntries? read fuel r).map fun (es, r) => (e :: es, r)
    | '}' :: r => some ([e], r)
    | _ => none

/-- Reads a table in braces, from behind the opening one. -/
def readTable? (read : Text → Option (Toml × Text)) (s : Text) : Option (Toml × Text) :=
  match skipSpaces s with
  | '}' :: r => some (.table [], r)
  | s => do
    let (es, r) ← readEntries? read (s.length + 1) s
    let v ← ofEntries? es
    some (v, r)

/-- Reads a value in which brackets stand at most so many deep. -/
def readValue? : Nat → Text → Option (Toml × Text)
  | n + 1, '[' :: r =>
    (readElements? (readValue? n) (r.length + 1) r).map fun (vs, r) => (.array vs, r)
  | n + 1, '{' :: r => readTable? (readValue? n) r
  | _, s => readScalar? s

/-! ### Documents -/

/-- Reads a statement, up to the end of its line. -/
def readStatement? : Text → Option (Statement × Text)
  | '[' :: '[' :: r => do
    let (p, r) ← readPath? deepest r
    let r ← after? ']' r
    let r ← after? ']' r
    (afterLine? r).map fun r => (.element p, r)
  | '[' :: r => do
    let (p, r) ← readPath? deepest r
    let r ← after? ']' r
    (afterLine? r).map fun r => (.table p, r)
  | s => do
    let ((p, v), r) ← readEntry? (readValue? deepest) s
    (afterLine? r).map fun r => (.entry p v, r)

/-- Reads statements and lines without one, up to the end. -/
def readStatements? : Nat → Text → Option (List Statement)
  | 0, _ => none
  | _, [] => some []
  | fuel + 1, s =>
    match afterLine? s with
    | some r => readStatements? fuel r
    | none => do
      let (t, r) ← readStatement? (skipSpaces s)
      (readStatements? fuel r).map (t :: ·)

/-- The text without the mark that a file may start with. -/
def skipMark : Text → Text
  | '\uFEFF' :: r => r
  | r => r

/-- Reads a document. -/
def read? (s : Text) : Option Toml :=
  let s := skipMark s
  (readStatements? (s.length + 1) s).bind ofStatements?

end Toml

end HeartKeypad
