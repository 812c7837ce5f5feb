import HeartKeypad.Toml.Value

/-!
# Tables under construction

A settings file says one thing after the other: a header opens a table, another kind
of header adds an element to an array of tables, and an entry gives a key its value.
A `Draft` is a value while this goes on, and knows of every table how it came to be,
because that decides who may still add to it:

* a declared table has had its header, or stands in braces, and no dotted key from
  outside reaches into it;
* an implied one lies on the path of a header, and may still get a header of its own;
* a dotted one lies on the path of a dotted key, and grows by such keys only.

`Draft.obey?` carries out one statement, and refuses those that would define a key
twice or change what is closed.
-/

namespace HeartKeypad

namespace Toml

/-- The keys from a table to a value in it, the last of them apart. -/
structure Path where
  parents : List Text
  key : Text
deriving DecidableEq

/-- All keys of a path. -/
def Path.keys (p : Path) : List Text := p.parents ++ [p.key]

/-- What a settings file can say. -/
inductive Statement where
  | table (path : Path)
  | element (path : Path)
  | entry (path : Path) (value : Toml)

/-- How a table came to be. -/
inductive Making where
  | declared
  | implied
  | dotted
deriving DecidableEq

/-- A value that may still grow: an array of tables keeps its last element apart. -/
inductive Draft where
  | value (v : Toml)
  | table (making : Making) (entries : List (Text × Draft))
  | tables (before : List Draft) (last : Draft)

namespace Draft

/-- A declared table without entries. -/
def bare : Draft := .table .declared []

/-- Changes the draft under a key; a new one goes to the end. -/
def update (key : Text) (change : Option Draft → Option Draft) :
    List (Text × Draft) → Option (List (Text × Draft))
  | [] => (change none).map fun d => [(key, d)]
  | (k, d) :: ds =>
    if k = key then (change (some d)).map fun d => (k, d) :: ds
    else (update key change ds).map ((k, d) :: ·)

/-- Changes the table at the end of a path of headers or of a dotted key; tables that
are missing on the way are made. -/
def within (making : Making) (change : Draft → Option Draft) :
    List Text → Draft → Option Draft
  | [], d => change d
  | key :: keys, .table m entries =>
    (update key (fun
      | none => within making change keys (.table making [])
      | some (.table m entries) =>
        if making = .dotted ∧ m = .declared then none
        else within making change keys (.table m entries)
      | some (.tables before last) =>
        (within making change keys last).map (.tables before ·)
      | some (.value _) => none) entries).map (.table m ·)
  | _ :: _, _ => none

/-- Gives a new key its value.  A dotted table takes entries from dotted keys only, and
a dotted key ends in a dotted table. -/
def put (p : Path) (v : Toml) : Draft → Option Draft
  | .table m entries =>
    if decide (m = .dotted) = p.parents.isEmpty then none
    else (update p.key (fun
      | none => some (.value v)
      | some _ => none) entries).map (.table m ·)
  | _ => none

/-- Gives the value at the end of a path that starts at a table. -/
def assign (p : Path) (v : Toml) (d : Draft) : Option Draft :=
  within .dotted (put p v) p.parents d

/-- Declares a table that is new or has only been implied. -/
def declare (key : Text) : Draft → Option Draft
  | .table m entries =>
    (update key (fun
      | none => some bare
      | some (.table .implied entries) => some (.table .declared entries)
      | some _ => none) entries).map (.table m ·)
  | _ => none

/-- Adds an element to an array of tables, which may be new. -/
def extend (key : Text) : Draft → Option Draft
  | .table m entries =>
    (update key (fun
      | none => some (.tables [] bare)
      | some (.tables before last) => some (.tables (before ++ [last]) bare)
      | some _ => none) entries).map (.table m ·)
  | _ => none

mutual

/-- The value that a draft has become. -/
def finish : Draft → Toml
  | .value v => v
  | .table _ entries => .table (finishEntries entries)
  | .tables before last => .array (finishAll before ++ [finish last])

/-- The values that drafts have become. -/
def finishAll : List Draft → List Toml
  | [] => []
  | d :: ds => finish d :: finishAll ds

/-- The entries that drafts have become. -/
def finishEntries : List (Text × Draft) → List (Text × Toml)
  | [] => []
  | (key, d) :: ds => (key, finish d) :: finishEntries ds

end

/-! ### Statements -/

/-- Carries out a statement on a document in which entries go to the table under the
given keys. -/
def obey? (here : List Text) (d : Draft) : Statement → Option (List Text × Draft)
  | .table p => (within .implied (declare p.key) p.parents d).map (p.keys, ·)
  | .element p => (within .implied (extend p.key) p.parents d).map (p.keys, ·)
  | .entry p v => (within .implied (assign p v) here d).map (here, ·)

/-- Carries out statements one after the other. -/
def obeyAll? (here : List Text) (d : Draft) : List Statement → Option Draft
  | [] => some d
  | s :: ss => do
    let (here, d) ← obey? here d s
    obeyAll? here d ss

end Draft

/-- The table that statements make. -/
def ofStatements? (ss : List Statement) : Option Toml :=
  (Draft.obeyAll? [] Draft.bare ss).map Draft.finish

/-- The table that entries in braces make. -/
def ofEntries? (es : List (Path × Toml)) : Option Toml :=
  ofStatements? (es.map fun e => .entry e.1 e.2)

end Toml

end HeartKeypad
