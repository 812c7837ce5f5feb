import HeartKeypad.Proofs.Settings.Layers
import HeartKeypad.Proofs.Text.Utf8

/-!
# The settings of a show, embedded and by themselves

The settings of a show are a section in the document of the program, and they can be a document
of their own.  Both ways to load them take the same steps in the same order, so they agree on
what comes of that section.

* `adjusted` — the steps: what has been read is replaced in part, and then checked.
* `Settings.Embeds` — the document that stands in the section, which may be missing.
* `Settings.Beside` — the other sections are in order.
* `Settings.load_embedded` — the two ways agree, for all documents and environments.

### What the rest of the document decides

The program looks at its screen and at the easter egg before it looks at the show, and does so
when the environment has replaced what it gives.  A rule that the show breaks is therefore the
one that is reported iff the screen and the easter egg that come of all this are in order.
-/

namespace HeartKeypad

open Toml (child? fieldOr IsRecord?)

/-- A file holds the document that its text is read as. -/
theorem Stored.document?_encode {ε : Type} {s : Text} {v : Toml} (read : Toml.read? s = some v) :
    (holding (Utf8.encode s)).document? = (.ok (some v) : Except (LoadFault ε) (Option Toml)) := by
  rw [document?, Utf8.decode_encode]
  simp only [read]

/-! ### The steps of both ways -/

section Steps

variable {α ε : Type} {read? : Option α} {adjust : α → α} {fault? : α → Option ε} {a : α} {f : ε}

/-- Settings that have been read, if they could be, with something put in place of them, and then
checked. -/
def adjusted (read? : Option α) (adjust : α → α) (fault? : α → Option ε) :
    Except (LoadFault ε) α :=
  match read? with
  | none => .error .malformed
  | some a => checked fault? (adjust a)

theorem adjusted_eq_ok_iff : adjusted read? adjust fault? = .ok a ↔
    ∃ b, read? = some b ∧ a = adjust b ∧ fault? a = none := by
  cases read? with
  | none => simp [adjusted]
  | some b =>
      simp only [adjusted, checked_eq_ok_iff, Option.some.injEq, exists_eq_left']
      exact and_congr_right fun same => by rw [same]

theorem adjusted_eq_invalid_iff : adjusted read? adjust fault? = .error (.invalid f) ↔
    ∃ b, read? = some b ∧ fault? (adjust b) = some f := by
  cases read? with
  | none => simp [adjusted]
  | some b => simp [adjusted, checked_eq_error_iff]

end Steps

theorem Effects.layer_eq_adjusted (document? : Option Toml) (env : Environment) :
    layer document? env = adjusted (fieldOr ofToml? {} document?) (override env) fault? := by
  rw [layer]
  cases fieldOr ofToml? {} document? <;> rfl

theorem Settings.layer_eq_adjusted (document? : Option Toml) (env : Environment) :
    layer document? env = adjusted (fieldOr ofToml? {} document?) (override env) fault? := by
  rw [layer]
  cases fieldOr ofToml? {} document? <;> rfl

namespace Settings

/-! ### The rules of the program -/

/-- Settings keep the rules iff their sections do. -/
theorem fault?_eq_none_iff {s : Settings} : s.fault? = none ↔
    s.screen.fault? = none ∧ s.easterEgg.result.trim ≠ [] ∧ s.effects.fault? = none := by
  rw [fault?, Option.or_eq_none_iff, Option.map_eq_none_iff]
  refine and_congr_right fun _ => ?_
  cases s.easterEgg.result.trim <;> simp

/-- The rule that a show breaks is the first one iff the other sections keep theirs. -/
theorem fault?_eq_effects_iff {s : Settings} {f : EffectsFault} : s.fault? = some (.effects f) ↔
    s.screen.fault? = none ∧ s.easterEgg.result.trim ≠ [] ∧ s.effects.fault? = some f := by
  rw [fault?]
  cases s.screen.fault? with
  | some fault => simp
  | none => cases s.easterEgg.result.trim <;> simp

/-! ### Sections and documents -/

/-- **The document that stands in the section of the show**: the section is a table with these
entries, or it is missing and there are none. -/
inductive Embeds (entries : List (Text × Toml)) : List (Text × Toml) → Prop
  | missing : entries.lookup "fx".toList = none → Embeds entries []
  | table {own : List (Text × Toml)} :
      entries.lookup "fx".toList = some (.table own) → Embeds entries own

/-- **The other sections are in order**: they can be read, and keep their rules with what the
environment gives in place of them. -/
structure Beside (document : Toml) (env : Environment) (screen : Screen) (egg : EasterEgg) :
    Prop where
  screen_read : fieldOr Screen.ofToml? {} (document.child? ⟨"screen", 0⟩) = some screen
  egg_read : fieldOr EasterEgg.ofToml? {} (document.child? ⟨"easter_egg", 1⟩) = some egg
  screen_kept : screen.fault? = none
  egg_kept : (egg.override env).result.trim ≠ []

variable {entries own : List (Text × Toml)} {env : Environment} {s : Settings} {e : Effects}
  {f : EffectsFault}

/-- A section that is missing is as good as a document with nothing in it. -/
theorem Embeds.read (embeds : Embeds entries own) :
    fieldOr Effects.ofToml? {} ((Toml.table entries).child? ⟨"fx", 2⟩) =
      fieldOr Effects.ofToml? {} (some (.table own)) := by
  show fieldOr Effects.ofToml? {} (entries.lookup "fx".toList) = _
  cases embeds with
  | missing none =>
      rw [none]
      rfl
  | table found => rw [found]

/-- The document of the program is read as its sections are, that of the show by itself. -/
theorem Embeds.read_iff (embeds : Embeds entries own) :
    fieldOr ofToml? {} (some (.table entries)) = some s ↔
      fieldOr Screen.ofToml? {} ((Toml.table entries).child? ⟨"screen", 0⟩) = some s.screen ∧
      fieldOr EasterEgg.ofToml? {} ((Toml.table entries).child? ⟨"easter_egg", 1⟩) =
        some s.easterEgg ∧
      fieldOr Effects.ofToml? {} (some (.table own)) = some s.effects := by
  have record : IsRecord? (some (Toml.table entries)) := by
    rintro v ⟨⟩
    rfl
  rw [ofToml?_iff_sections, ← embeds.read]
  exact and_iff_right record

/-- **What the program loads holds what the show would load by itself.** -/
theorem Embeds.loaded (embeds : Embeds entries own)
    (loaded : layer (some (.table entries)) env = .ok s) :
    Effects.layer (some (.table own)) env = .ok s.effects := by
  rw [layer_eq_adjusted, adjusted_eq_ok_iff] at loaded
  obtain ⟨t, read, rfl, kept⟩ := loaded
  have effects := (embeds.read_iff.1 read).2.2
  rw [Effects.layer_eq_adjusted, adjusted_eq_ok_iff]
  exact ⟨t.effects, effects, rfl, (fault?_eq_none_iff.1 kept).2.2⟩

/-- **A rule that the show breaks by itself** is reported iff the other sections are in order. -/
theorem Embeds.reported_iff (embeds : Embeds entries own)
    (broken : Effects.layer (some (.table own)) env = .error (.invalid f)) :
    layer (some (.table entries)) env = .error (.invalid (.effects f)) ↔
      ∃ screen egg, Beside (.table entries) env screen egg := by
  rw [layer_eq_adjusted, adjusted_eq_invalid_iff]
  constructor
  · rintro ⟨s, read, fault⟩
    obtain ⟨screen, egg, -⟩ := embeds.read_iff.1 read
    obtain ⟨screen_kept, egg_kept, -⟩ := fault?_eq_effects_iff.1 fault
    exact ⟨s.screen, s.easterEgg, screen, egg, screen_kept, egg_kept⟩
  · rintro ⟨screen, egg, beside⟩
    rw [Effects.layer_eq_adjusted, adjusted_eq_invalid_iff] at broken
    obtain ⟨e, read, fault⟩ := broken
    exact ⟨⟨screen, egg, e⟩, embeds.read_iff.2 ⟨beside.screen_read, beside.egg_read, read⟩,
      fault?_eq_effects_iff.2 ⟨beside.screen_kept, beside.egg_kept, fault⟩⟩

/-! ### Files -/

/-- **Embedded settings of a show and those of a file of its own agree.**  One file holds a
document of the program, another one the document that stands in its section for the show, or an
empty one if there is no such section.  In every environment:

* what the program loads holds what is loaded from the second file;
* if nothing can be loaded from the second file, the program loads nothing either;
* and if this is for a rule that the settings of the show break, the program reports that very
  rule iff its other sections are in order, and in these words. -/
theorem load_embedded (embeds : Embeds entries own) (env : Environment) {file apart : Stored}
    (whole : file.document? =
      (.ok (some (.table entries)) : Except (LoadFault SettingsFault) (Option Toml)))
    (alone : apart.document? =
      (.ok (some (.table own)) : Except (LoadFault EffectsFault) (Option Toml))) :
    (∀ s, load file env = .ok s → Effects.load apart env = .ok s.effects) ∧
    (∀ fault, Effects.load apart env = .error fault → ∃ fault', load file env = .error fault') ∧
    ∀ f, Effects.load apart env = .error (.invalid f) →
      (load file env = .error (.invalid (.effects f)) ↔
        ∃ screen egg, Beside (.table entries) env screen egg) ∧
      EffectsFault.loadReport (.invalid f) = "Invalid fx configuration: " ++ f.message ∧
      SettingsFault.loadReport (.invalid (.effects f)) =
        "Invalid configuration: " ++ ("Invalid fx configuration: " ++ f.message) := by
  have embedded : load file env = layer (some (.table entries)) env := by
    rw [load, whole]
    rfl
  have separate : Effects.load apart env = Effects.layer (some (.table own)) env := by
    rw [Effects.load, alone]
    rfl
  rw [embedded, separate]
  refine ⟨fun s loaded => embeds.loaded loaded, fun fault refused => ?_,
    fun f broken => ⟨embeds.reported_iff broken, rfl, rfl⟩⟩
  cases result : layer (some (.table entries)) env with
  | error fault' => exact ⟨fault', rfl⟩
  | ok s =>
      have loaded := embeds.loaded result
      rw [refused] at loaded
      cases loaded

/-- A document of the program in which the show has no beat. -/
def beatless : Text := "[fx.timing]\ntick_ms = 0".toList

/-- The document of that show by itself. -/
def beatlessShow : Text := "[timing]\ntick_ms = 0".toList

/-- A beat that comes from the environment makes up for the one that is missing, in both files;
without it both are refused, and the program reports what the show reports, since the screen and
the easter egg are in order. -/
theorem load_embedded_beatless :
    let file := Stored.holding (Utf8.encode beatless)
    let apart := Stored.holding (Utf8.encode beatlessShow)
    let timed : Environment := ⟨[("HEARTCALC_TICK_MS", "5".toList)]⟩
    (∃ s, load file timed = .ok s ∧ s.effects.timing.tick = 5 ∧
      Effects.load apart timed = .ok s.effects) ∧
    Effects.load apart ⟨[]⟩ = .error (.invalid .noTick) ∧
    (∃ fault, load file ⟨[]⟩ = .error fault) ∧
    load file ⟨[]⟩ = .error (.invalid (.effects .noTick)) ∧
    SettingsFault.loadReport (.invalid (.effects .noTick)) = "Invalid configuration: " ++
      ("Invalid fx configuration: " ++ "tick_ms must be greater than 0") := by
  intro file apart timed
  let timing : Toml := .table [("timing".toList, .table [("tick_ms".toList, .integer 0)])]
  have whole {ε : Type} : file.document? =
      (.ok (some (.table [("fx".toList, timing)])) : Except (LoadFault ε) (Option Toml)) :=
    Stored.document?_encode rfl
  have alone {ε : Type} : apart.document? =
      (.ok (some timing) : Except (LoadFault ε) (Option Toml)) := Stored.document?_encode rfl
  have embeds : Embeds [("fx".toList, timing)] [("timing".toList, .table [("tick_ms".toList,
    .integer 0)])] := .table rfl
  obtain ⟨loaded, -, -⟩ := load_embedded embeds timed whole alone
  obtain ⟨-, refused, reported⟩ := load_embedded embeds ⟨[]⟩ whole alone
  have beats : load file timed = .ok { effects := { timing := { tick := 5 } } } := by
    rw [load, whole]
    decide
  have broken : Effects.load apart ⟨[]⟩ = .error (.invalid .noTick) := by
    rw [Effects.load, alone]
    decide
  obtain ⟨same, -, words⟩ := reported .noTick broken
  have beside : Beside (.table [("fx".toList, timing)]) ⟨[]⟩ {} {} :=
    ⟨rfl, rfl, by decide, by decide⟩
  exact ⟨⟨_, beats, rfl, loaded _ beats⟩, broken, refused _ broken, same.2 ⟨_, _, beside⟩, words⟩

end Settings

end HeartKeypad
