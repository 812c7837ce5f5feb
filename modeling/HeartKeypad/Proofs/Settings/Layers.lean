import HeartKeypad.Proofs.Settings.Documents
import HeartKeypad.Settings.Load

/-!
# Settings in layers

Every single setting has its own value, whatever becomes of the others: that of its variable, if
it has one that is set and valid, otherwise that of the document, and otherwise its default.

* `Setting.layered` — the value of a single setting.
* `Settings.layer_eq` — from a document with settings, the combination of all values is checked.
* `Settings.load_layered` — what this means for a file that holds such a document, or is missing.

### Variables that count for nothing

A number that cannot be read is as good as no variable: `Environment.word?` does not tell the two
apart, and no setting looks at a numeric variable in another way
(`Setting.assigned?_without`).
-/

namespace HeartKeypad

/-! ### The environment -/

namespace Environment

/-- The variables that have to hold numbers. -/
def numeric : List String :=
  ["HEARTCALC_BURST_COUNT", "HEARTCALC_RISE_DELAY_MS", "HEARTCALC_LIFETIME_MS",
    "HEARTCALC_TICK_MS"]

/-- The environment with a variable no longer set. -/
def without (name : String) (env : Environment) : Environment :=
  ⟨env.assigned.filter fun entry => entry.1 != name⟩

variable {env : Environment} {name other : String}

/-- The variable is gone, and the others are as they were. -/
theorem text?_without : (env.without name).text? other =
    if other = name then none else env.text? other := by
  obtain ⟨assigned⟩ := env
  show (assigned.filter _).lookup other = if _ then none else assigned.lookup other
  induction assigned with
  | nil => simp
  | cons entry rest ih =>
      obtain ⟨key, value⟩ := entry
      rw [List.filter_cons]
      by_cases own : key = name <;> by_cases found : other = key <;> grind

/-- A word that cannot be read is as good as no variable. -/
theorem word?_without (unread : env.word? name = none) :
    (env.without name).word? other = env.word? other := by
  rw [word?, text?_without]
  split
  · rename_i same
    rw [same, unread]
    rfl
  · rfl

end Environment

/-! ### Checks -/

section Checks

variable {α ε : Type} {fault? : α → Option ε} {settings t : α}

/-- Settings that are checked are the result iff they keep the rules. -/
theorem checked_eq_ok_iff :
    checked fault? settings = .ok t ↔ t = settings ∧ fault? settings = none := by
  unfold checked
  cases fault? settings with
  | none => simp [eq_comm]
  | some fault => simp

/-- Otherwise the rule that they break is reported. -/
theorem checked_eq_error_iff {fault : LoadFault ε} :
    checked fault? settings = .error fault ↔
      ∃ f, fault? settings = some f ∧ fault = .invalid f := by
  unfold checked
  cases fault? settings with
  | none => simp
  | some fault => simp [eq_comm]

end Checks

/-! ### Values -/

namespace Setting

variable {α : Type} {env : Environment}

/-- The value that the environment gives to a setting. -/
def assigned? (env : Environment) : Setting α → Option α
  | url => env.text? "HEARTCALC_EASTER_EGG_URL"
  | result => env.text? "HEARTCALC_EASTER_EGG_RESULT"
  | openLink => (env.text? "HEARTCALC_OPEN_LINKS").map Environment.isYes
  | count => env.word? "HEARTCALC_BURST_COUNT"
  | riseDelay => env.word? "HEARTCALC_RISE_DELAY_MS"
  | lifetime => env.word? "HEARTCALC_LIFETIME_MS"
  | tick => env.word? "HEARTCALC_TICK_MS"
  | _ => none

/-- **The value of a setting**: that of its variable, that of the document, or its default. -/
def layered (document? : Option Toml) (env : Environment) (l : Setting α) : α :=
  (l.assigned? env).getD ((l.stored? document?).getD l.default)

/-- The environment replaces settings one by one. -/
theorem get_override (l : Setting α) (s : Settings) :
    l.get (s.override env) = (l.assigned? env).getD (l.get s) := by
  cases l <;> rfl

/-- **A number that cannot be read counts for nothing.** -/
theorem assigned?_without {name : String} (numeric : name ∈ Environment.numeric)
    (unread : env.word? name = none) (l : Setting α) :
    l.assigned? (env.without name) = l.assigned? env := by
  have text (other : String) (apart : other ∉ Environment.numeric) :
      (env.without name).text? other = env.text? other := by
    rw [Environment.text?_without, if_neg]
    rintro rfl
    exact apart numeric
  cases l <;>
    simp only [assigned?, Environment.word?_without unread] <;> rw [text _ (by decide)]

end Setting

namespace Settings

variable {document? : Option Toml} {env : Environment} {file : Stored}

/-- The combination of all layers. -/
def layered (document? : Option Toml) (env : Environment) : Settings :=
  ofValues fun l => l.layered document? env

theorem override_stored : (stored document?).override env = layered document? env := by
  refine ext_get fun l => ?_
  rw [Setting.get_override, stored, get_ofValues, layered, get_ofValues, Setting.layered]

/-- **From a document with settings the combination of all layers is checked**, and nothing
else. -/
theorem layer_eq (shaped : Shaped document?) :
    layer document? env = checked fault? (layered document? env) := by
  rw [layer, shaped.ofToml?]
  exact congrArg (checked fault?) override_stored

/-- **What comes of layering a document and an environment.** -/
structure Layered (document? : Option Toml) (env : Environment) (s : Settings) : Prop where
  /-- Every setting has the value of its variable, else that of the document, else its default. -/
  values : ∀ {α : Type} (l : Setting α), l.get s =
    (l.assigned? env).getD ((l.stored? document?).getD l.default)
  /-- These settings are the result iff they keep the rules, and no others are. -/
  kept : ∀ t, layer document? env = .ok t ↔ t = s ∧ s.fault? = none
  /-- Otherwise the rule that they break is reported. -/
  refused : ∀ fault, layer document? env = .error fault ↔
    ∃ f, s.fault? = some f ∧ fault = .invalid f
  /-- Links are opened iff the variable, where it is set, says so in one of three ways. -/
  links : ∀ text, env.text? "HEARTCALC_OPEN_LINKS" = some text → (s.easterEgg.openLink = true ↔
    text = "1".toList ∨ text = "true".toList ∨ text = "yes".toList)
  /-- A variable with a number that cannot be read makes no difference. -/
  unread : ∀ name ∈ Environment.numeric, env.word? name = none →
    layer document? (env.without name) = layer document? env
  /-- The result is the same for every file that holds the document. -/
  loaded : ∀ file : Stored,
    file.document? = (.ok document? : Except (LoadFault SettingsFault) (Option Toml)) →
      load file env = layer document? env

/-- A variable with a number that cannot be read makes no difference to any settings. -/
theorem override_without {name : String} (numeric : name ∈ Environment.numeric)
    (unread : env.word? name = none) (s : Settings) :
    s.override (env.without name) = s.override env := by
  refine ext_get fun l => ?_
  rw [Setting.get_override, Setting.get_override, Setting.assigned?_without numeric unread]

/-- What a variable says on links. -/
theorem openLink_layered {text : Text} (given : env.text? "HEARTCALC_OPEN_LINKS" = some text) :
    (layered document? env).easterEgg.openLink = true ↔
      text = "1".toList ∨ text = "true".toList ∨ text = "yes".toList := by
  show ((env.text? "HEARTCALC_OPEN_LINKS").map Environment.isYes).getD _ = true ↔ _
  rw [given]
  simp [Environment.isYes, or_assoc]

/-- A file with nothing in it holds an empty document. -/
theorem document?_empty : (Stored.holding []).document? =
    (.ok (some (.table [])) : Except (LoadFault SettingsFault) (Option Toml)) := by
  have nothing : Utf8.decode [] = .ok [] := by rw [Utf8.decode, Utf8.decodeFrom]
  rw [Stored.document?, nothing]
  rfl

/-- An empty document gives nothing, like a file that is missing. -/
theorem load_empty (env : Environment) : load (.holding []) env = load .missing env := by
  rw [load, document?_empty]
  rfl

/-- **Settings are layered**, one by one: for every document with settings, or none, and for every
environment.  A file that is missing is one without a document, and as good as one with nothing
in it. -/
theorem load_layered (shaped : Shaped document?) (env : Environment) :
    (∃ s, Layered document? env s) ∧
      load .missing env = layer none env ∧ load (.holding []) env = load .missing env := by
  refine ⟨⟨layered document? env, ?_⟩, rfl, load_empty env⟩
  exact {
    values := fun l => by rw [layered, get_ofValues, Setting.layered]
    kept := fun t => by rw [layer_eq shaped, checked_eq_ok_iff]
    refused := fun fault => by rw [layer_eq shaped, checked_eq_error_iff]
    links := fun text given => openLink_layered given
    unread := fun name numeric unread => by
      rw [layer_eq shaped, layer_eq shaped, ← override_stored, override_without numeric unread,
        override_stored]
    loaded := fun file found => by
      rw [load, found]
      rfl }

/-- A document with a late rise, and with a burst whose fields are in order. -/
def lateRise : Toml :=
  .table [("fx".toList, .table [("timing".toList, .table [("rise_delay_ms".toList, .integer 5000)]),
    ("burst".toList, .array [.integer 4])])]

/-- A long life that comes from the environment makes up for a late rise, a beat that is no number
is left alone, and what nobody gives has its default. -/
theorem load_layered_late_rise :
    let env : Environment :=
      ⟨[("HEARTCALC_LIFETIME_MS", "9000".toList), ("HEARTCALC_TICK_MS", "often".toList)]⟩
    Shaped (some lateRise) ∧ (∃ s, Layered (some lateRise) env s ∧
      s.effects.timing = ⟨5000, 9000, 2000, 16⟩ ∧ s.effects.burst.count = 4 ∧
      s.screen = {} ∧ layer (some lateRise) env = .ok s) ∧
    layer (some lateRise) ⟨[]⟩ = .error (.invalid (.effects (.riseAfterEnd 5000 2100))) := by
  intro env
  have shaped : Shaped (some lateRise) := shaped_iff.2 ⟨_, rfl⟩
  have kept : layer (some lateRise) env =
      .ok { effects := { burst := { count := 4 }, timing := ⟨5000, 9000, 2000, 16⟩ } } := by
    decide
  obtain ⟨⟨s, result⟩, -, -⟩ := load_layered shaped env
  obtain ⟨rfl, -⟩ := (result.kept _).1 kept
  exact ⟨shaped, ⟨_, result, rfl, rfl, rfl, kept⟩, by decide⟩

end Settings

end HeartKeypad
