import HeartKeypad.Settings.Document
import HeartKeypad.Settings.Environment
import HeartKeypad.Text.Utf8
import HeartKeypad.Toml.Reader

/-!
# Loading settings

Settings are layered: the defaults, over them those of a file, over these the ones of
the environment.  Only the result has to keep the rules.

* `Settings.layer` and `Effects.layer` start from a document, if there is one.
* `Settings.load` and `Effects.load` start from what a file holds.
-/

namespace HeartKeypad

/-- What is found where the settings file should be. -/
inductive Stored where
  | missing
  | unreadable (reason : String)
  | holding (content : List UInt8)
deriving DecidableEq

/-- A directory in the place of the file. -/
def Stored.directory : Stored := .unreadable "Is a directory (os error 21)"

/-- Why settings cannot be loaded: the file cannot be read, it is no document with
settings, or the settings break a rule. -/
inductive LoadFault (ε : Type) where
  | unreadable (reason : String)
  | malformed
  | invalid (fault : ε)
deriving DecidableEq

/-- What is said about settings of a show that cannot be loaded. -/
def EffectsFault.loadReport : LoadFault EffectsFault → String
  | .unreadable reason => "Failed to load config: " ++ reason
  | .malformed => "Failed to load config: the file is malformed"
  | .invalid fault => fault.report

/-- What is said about something that cannot be read. -/
def unreadableReport (reason : String) : String := "I/O error: " ++ reason

/-- What is said about settings of the program that cannot be loaded. -/
def SettingsFault.loadReport : LoadFault SettingsFault → String
  | .unreadable reason => unreadableReport reason
  | .malformed => "Invalid configuration: the file is malformed"
  | .invalid fault => fault.report

/-- The document that a file holds, if the file exists. -/
def Stored.document? {ε : Type} : Stored → Except (LoadFault ε) (Option Toml)
  | .missing => .ok none
  | .unreadable reason => .error (.unreadable reason)
  | .holding content =>
    match Utf8.decode content with
    | .error _ => .error (.unreadable "stream did not contain valid UTF-8")
    | .ok text =>
      match Toml.read? text with
      | some v => .ok (some v)
      | none => .error .malformed

/-- Settings that keep the rules. -/
def checked {α ε : Type} (fault? : α → Option ε) (settings : α) : Except (LoadFault ε) α :=
  match fault? settings with
  | some fault => .error (.invalid fault)
  | none => .ok settings

/-- The settings of a show from a document and the environment. -/
def Effects.layer (document? : Option Toml) (env : Environment) :
    Except (LoadFault EffectsFault) Effects :=
  match Toml.fieldOr Effects.ofToml? {} document? with
  | none => .error .malformed
  | some e => checked Effects.fault? (e.override env)

/-- The settings of the program from a document and the environment. -/
def Settings.layer (document? : Option Toml) (env : Environment) :
    Except (LoadFault SettingsFault) Settings :=
  match Toml.fieldOr Settings.ofToml? {} document? with
  | none => .error .malformed
  | some s => checked Settings.fault? (s.override env)

/-- The settings of a show from a file and the environment. -/
def Effects.load (file : Stored) (env : Environment) :
    Except (LoadFault EffectsFault) Effects := do
  Effects.layer (← file.document?) env

/-- The settings of the program from a file and the environment. -/
def Settings.load (file : Stored) (env : Environment) :
    Except (LoadFault SettingsFault) Settings := do
  Settings.layer (← file.document?) env

end HeartKeypad
