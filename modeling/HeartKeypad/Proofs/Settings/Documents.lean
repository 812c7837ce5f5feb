import HeartKeypad.Settings.Document
import Mathlib.Data.List.Basic

/-!
# Settings in documents, one by one

Settings are taken from a document section by section, each field in its place.  Seen from a
single setting this comes to following one path.

* `Setting` — the eighteen single settings, each with its section, its field there and the kind
  of value it takes.
* `Settings.Shaped` — a document in which every section is a record and every setting that is
  there is of its kind.
* `Settings.ofToml?_iff` — a document is read setting by setting.
* `Settings.shaped_iff` — settings can be taken from the documents with this shape.

### Sections that are missing

A section that is missing is replaced as a whole.  `Setting.stored?` knows nothing of that: it
follows the path to a single setting.  The two agree since nothing stands below a section that is
missing, and since the default of a section has the defaults of its settings
(`Toml.fieldOr_record_iff`).
-/

namespace HeartKeypad

/-! ### Places in documents -/

namespace Toml

/-- A field of a record: its name in a table, and its place in an array. -/
structure Field where
  name : String
  place : Nat

/-- The value of a field, if the record has it. -/
def child? (f : Field) : Toml → Option Toml
  | .table entries => entries.lookup f.name.toList
  | .array values => values[f.place]?
  | _ => none

/-- What stands at the end of a path of fields. -/
def descend? : List Field → Option Toml → Option Toml
  | [], v? => v?
  | f :: path, v? => descend? path (v?.bind (child? f))

/-- The value is one that passes for a record. -/
def isRecord : Toml → Bool
  | .table _ | .array _ | .moment => true
  | _ => false

/-- What is there passes for a record. -/
def IsRecord? (v? : Option Toml) : Prop := ∀ v, v? = some v → v.isRecord = true

/-- The fields with some names, each with its place. -/
def fieldsOf (names : List String) : List Field := names.zipIdx.map fun (name, i) => ⟨name, i⟩

variable {α : Type} {names : List String} {a : α} {v? : Option Toml}

/-- A record has its fields at their places. -/
theorem record?_eq (names : List String) (v : Toml) : v.record? names =
    if v.isRecord then some ((fieldsOf names).map fun f => v.child? f) else none := by
  have named (f : String → Option Toml) : names.map f = names.zipIdx.map fun x => f x.1 := by
    conv_lhs => rw [← List.zipIdx_map_fst 0 names, List.map_map]
    rfl
  cases v with
  | table entries => simp [record?, isRecord, fieldsOf, child?, named]
  | array values => simp [record?, isRecord, fieldsOf, child?]
  | moment => simp [record?, isRecord, fieldsOf, child?, Function.comp_def]
  | text s => rfl
  | integer n => rfl
  | real x => rfl
  | boolean b => rfl

/-- **A record that may be missing** is read field by field, if it has its default without any
field. -/
theorem fieldOr_record_iff (read : Toml → Option α) (default : α)
    {build : List (Option Toml) → Option α}
    (fields : ∀ v, read v = (v.record? names).bind build)
    (empty : build ((fieldsOf names).map fun _ => none) = some default) :
    fieldOr read default v? = some a ↔
      IsRecord? v? ∧ build ((fieldsOf names).map fun f => v?.bind (child? f)) = some a := by
  cases v? with
  | none =>
      rw [fieldOr, ← empty]
      simp [IsRecord?]
  | some v =>
      rw [fieldOr, fields, record?_eq]
      cases record : v.isRecord <;> simp [IsRecord?, record]

/-- A field that is of its kind, if it is there, has its value or the default. -/
theorem fieldOr_of_kind {read : Toml → Option α} (default : α)
    (kind : ∀ v, v? = some v → ∃ a, read v = some a) :
    fieldOr read default v? = some ((v?.bind read).getD default) := by
  cases v? with
  | none => rfl
  | some v =>
      obtain ⟨a, value⟩ := kind v rfl
      rw [fieldOr, Option.bind_some, value, Option.getD_some]

/-- A field that can be read is of its kind, if it is there. -/
theorem kind_of_fieldOr {read : Toml → Option α} {default : α}
    (value : fieldOr read default v? = some a) (v : Toml) (here : v? = some v) :
    ∃ a, read v = some a := by
  rw [here] at value
  exact ⟨a, value⟩

end Toml

open Toml (Field child? descend? IsRecord? fieldOr fieldsOf fieldOr_record_iff)

/-! ### Single settings -/

/-- **A single setting**, with the type of its value. -/
inductive Setting : Type → Type
  | width : Setting Float
  | height : Setting Float
  | spacing : Setting Float
  | url : Setting Text
  | result : Setting Text
  | openLink : Setting Bool
  | count : Setting UInt64
  | burstJitterX : Setting Float
  | burstJitterY : Setting Float
  | sizeMin : Setting Float
  | sizeMax : Setting Float
  | topOffset : Setting Float
  | riseJitterX : Setting Float
  | riseJitterY : Setting Float
  | riseDelay : Setting UInt64
  | lifetime : Setting UInt64
  | animation : Setting UInt64
  | tick : Setting UInt64

/-- The sections of a document, by their paths. -/
inductive Settings.Section where
  | whole
  | screen
  | easterEgg
  | effects
  | burst
  | rise
  | timing

/-- The path to a section. -/
def Settings.Section.path : Settings.Section → List Field
  | whole => []
  | screen => [⟨"screen", 0⟩]
  | easterEgg => [⟨"easter_egg", 1⟩]
  | effects => [⟨"fx", 2⟩]
  | burst => [⟨"fx", 2⟩, ⟨"burst", 0⟩]
  | rise => [⟨"fx", 2⟩, ⟨"rise", 1⟩]
  | timing => [⟨"fx", 2⟩, ⟨"timing", 2⟩]

namespace Setting

variable {α : Type}

/-- The section of a setting, and its field there. -/
def home : Setting α → Settings.Section × Field
  | width => (.screen, ⟨"width", 0⟩)
  | height => (.screen, ⟨"height", 1⟩)
  | spacing => (.screen, ⟨"spacing", 2⟩)
  | url => (.easterEgg, ⟨"url", 0⟩)
  | result => (.easterEgg, ⟨"result", 1⟩)
  | openLink => (.easterEgg, ⟨"open_link", 2⟩)
  | count => (.burst, ⟨"count", 0⟩)
  | burstJitterX => (.burst, ⟨"jitter_x", 1⟩)
  | burstJitterY => (.burst, ⟨"jitter_y", 2⟩)
  | sizeMin => (.burst, ⟨"size_min", 3⟩)
  | sizeMax => (.burst, ⟨"size_max", 4⟩)
  | topOffset => (.rise, ⟨"top_offset", 0⟩)
  | riseJitterX => (.rise, ⟨"jitter_x", 1⟩)
  | riseJitterY => (.rise, ⟨"jitter_y", 2⟩)
  | riseDelay => (.timing, ⟨"rise_delay_ms", 0⟩)
  | lifetime => (.timing, ⟨"lifetime_ms", 1⟩)
  | animation => (.timing, ⟨"animation_ms", 2⟩)
  | tick => (.timing, ⟨"tick_ms", 3⟩)

/-- The path to a setting in a document. -/
def path (l : Setting α) : List Field := l.home.1.path ++ [l.home.2]

/-- Reads a value of the kind that a setting takes. -/
def read : Setting α → Toml → Option α
  | width | height | spacing | burstJitterX | burstJitterY | sizeMin | sizeMax | topOffset
  | riseJitterX | riseJitterY => Toml.real?
  | count | riseDelay | lifetime | animation | tick => Toml.word?
  | url | result => Toml.text?
  | openLink => Toml.boolean?

/-- The value of a setting. -/
def get : Setting α → Settings → α
  | width, s => s.screen.width
  | height, s => s.screen.height
  | spacing, s => s.screen.spacing
  | url, s => s.easterEgg.url
  | result, s => s.easterEgg.result
  | openLink, s => s.easterEgg.openLink
  | count, s => s.effects.burst.count
  | burstJitterX, s => s.effects.burst.jitterX
  | burstJitterY, s => s.effects.burst.jitterY
  | sizeMin, s => s.effects.burst.sizeMin
  | sizeMax, s => s.effects.burst.sizeMax
  | topOffset, s => s.effects.rise.topOffset
  | riseJitterX, s => s.effects.rise.jitterX
  | riseJitterY, s => s.effects.rise.jitterY
  | riseDelay, s => s.effects.timing.riseDelay
  | lifetime, s => s.effects.timing.lifetime
  | animation, s => s.effects.timing.animation
  | tick, s => s.effects.timing.tick

/-- The value of a setting that is given nowhere. -/
def default (l : Setting α) : α := l.get {}

/-- The value that a document gives to a setting. -/
def stored? (l : Setting α) (document? : Option Toml) : Option α :=
  (descend? l.path document?).bind l.read

/-- What holds of every single setting. -/
theorem forall_iff {P : ∀ {α}, Setting α → Prop} : (∀ {α} (l : Setting α), P l) ↔
    (P width ∧ P height ∧ P spacing) ∧ (P url ∧ P result ∧ P openLink) ∧
    (P count ∧ P burstJitterX ∧ P burstJitterY ∧ P sizeMin ∧ P sizeMax) ∧
    (P topOffset ∧ P riseJitterX ∧ P riseJitterY) ∧
    (P riseDelay ∧ P lifetime ∧ P animation ∧ P tick) := by
  constructor
  · intro all
    exact ⟨⟨all _, all _, all _⟩, ⟨all _, all _, all _⟩, ⟨all _, all _, all _, all _, all _⟩,
      ⟨all _, all _, all _⟩, all _, all _, all _, all _⟩
  · rintro ⟨⟨_, _, _⟩, ⟨_, _, _⟩, ⟨_, _, _, _, _⟩, ⟨_, _, _⟩, _, _, _, _⟩ α l
    cases l <;> assumption

end Setting

/-- Settings from the values of the single ones. -/
def Settings.ofValues (value : ∀ {α}, Setting α → α) : Settings where
  screen := ⟨value .width, value .height, value .spacing⟩
  easterEgg := ⟨value .url, value .result, value .openLink⟩
  effects :=
    { burst := ⟨value .count, value .burstJitterX, value .burstJitterY, value .sizeMin,
        value .sizeMax⟩
      rise := ⟨value .topOffset, value .riseJitterX, value .riseJitterY⟩
      timing := ⟨value .riseDelay, value .lifetime, value .animation, value .tick⟩ }

@[simp] theorem Settings.get_ofValues (value : ∀ {α}, Setting α → α) {α : Type}
    (l : Setting α) : l.get (ofValues value) = value l := by
  cases l <;> rfl

/-- Settings are told by their single values. -/
theorem Settings.ext_get {s t : Settings} (same : ∀ {α : Type} (l : Setting α), l.get s = l.get t) :
    s = t := by
  calc s = ofValues fun l => l.get s := rfl
    _ = ofValues fun l => l.get t := by simp only [same]
    _ = t := rfl

/-! ### Documents, section by section -/

/-- **What a section gives to a setting**: the value of the field, or the default.  The default
stays folded in what follows, as the one of the link is a long text. -/
def Setting.field? {α : Type} (l : Setting α) (section? : Option Toml) : Option α :=
  fieldOr l.read l.default (section?.bind (child? l.home.2))

section Sections

variable {section? : Option Toml}

theorem Screen.ofToml?_iff {s : Screen} :
    fieldOr Screen.ofToml? {} section? = some s ↔ IsRecord? section? ∧
      Setting.width.field? section? = some s.width ∧
      Setting.height.field? section? = some s.height ∧
      Setting.spacing.field? section? = some s.spacing := by
  refine (fieldOr_record_iff Screen.ofToml? {} (fun _ => rfl) rfl).trans
    (and_congr_right fun _ => ?_)
  obtain ⟨width, height, spacing⟩ := s
  show (do
    let width ← Setting.width.field? section?
    let height ← Setting.height.field? section?
    let spacing ← Setting.spacing.field? section?
    some (Screen.mk width height spacing)) = _ ↔ _
  simp only [Option.bind_eq_bind, Option.bind_eq_some_iff, Option.some.injEq, Screen.mk.injEq,
    ↓existsAndEq, and_true]

theorem EasterEgg.ofToml?_iff {e : EasterEgg} :
    fieldOr EasterEgg.ofToml? {} section? = some e ↔ IsRecord? section? ∧
      Setting.url.field? section? = some e.url ∧ Setting.result.field? section? = some e.result ∧
      Setting.openLink.field? section? = some e.openLink := by
  refine (fieldOr_record_iff EasterEgg.ofToml? {} (fun _ => rfl) rfl).trans
    (and_congr_right fun _ => ?_)
  obtain ⟨url, result, openLink⟩ := e
  show (do
    let url ← Setting.url.field? section?
    let result ← Setting.result.field? section?
    let openLink ← Setting.openLink.field? section?
    some (EasterEgg.mk url result openLink)) = _ ↔ _
  simp only [Option.bind_eq_bind, Option.bind_eq_some_iff, Option.some.injEq, EasterEgg.mk.injEq,
    ↓existsAndEq, and_true]

theorem Burst.ofToml?_iff {b : Burst} :
    fieldOr Burst.ofToml? {} section? = some b ↔ IsRecord? section? ∧
      Setting.count.field? section? = some b.count ∧
      Setting.burstJitterX.field? section? = some b.jitterX ∧
      Setting.burstJitterY.field? section? = some b.jitterY ∧
      Setting.sizeMin.field? section? = some b.sizeMin ∧
      Setting.sizeMax.field? section? = some b.sizeMax := by
  refine (fieldOr_record_iff Burst.ofToml? {} (fun _ => rfl) rfl).trans
    (and_congr_right fun _ => ?_)
  obtain ⟨count, jitterX, jitterY, sizeMin, sizeMax⟩ := b
  show (do
    let count ← Setting.count.field? section?
    let jitterX ← Setting.burstJitterX.field? section?
    let jitterY ← Setting.burstJitterY.field? section?
    let sizeMin ← Setting.sizeMin.field? section?
    let sizeMax ← Setting.sizeMax.field? section?
    some (Burst.mk count jitterX jitterY sizeMin sizeMax)) = _ ↔ _
  simp only [Option.bind_eq_bind, Option.bind_eq_some_iff, Option.some.injEq, Burst.mk.injEq,
    ↓existsAndEq, and_true]

theorem Rise.ofToml?_iff {r : Rise} :
    fieldOr Rise.ofToml? {} section? = some r ↔ IsRecord? section? ∧
      Setting.topOffset.field? section? = some r.topOffset ∧
      Setting.riseJitterX.field? section? = some r.jitterX ∧
      Setting.riseJitterY.field? section? = some r.jitterY := by
  refine (fieldOr_record_iff Rise.ofToml? {} (fun _ => rfl) rfl).trans
    (and_congr_right fun _ => ?_)
  obtain ⟨topOffset, jitterX, jitterY⟩ := r
  show (do
    let topOffset ← Setting.topOffset.field? section?
    let jitterX ← Setting.riseJitterX.field? section?
    let jitterY ← Setting.riseJitterY.field? section?
    some (Rise.mk topOffset jitterX jitterY)) = _ ↔ _
  simp only [Option.bind_eq_bind, Option.bind_eq_some_iff, Option.some.injEq, Rise.mk.injEq,
    ↓existsAndEq, and_true]

theorem Timing.ofToml?_iff {t : Timing} :
    fieldOr Timing.ofToml? {} section? = some t ↔ IsRecord? section? ∧
      Setting.riseDelay.field? section? = some t.riseDelay ∧
      Setting.lifetime.field? section? = some t.lifetime ∧
      Setting.animation.field? section? = some t.animation ∧
      Setting.tick.field? section? = some t.tick := by
  refine (fieldOr_record_iff Timing.ofToml? {} (fun _ => rfl) rfl).trans
    (and_congr_right fun _ => ?_)
  obtain ⟨riseDelay, lifetime, animation, tick⟩ := t
  show (do
    let riseDelay ← Setting.riseDelay.field? section?
    let lifetime ← Setting.lifetime.field? section?
    let animation ← Setting.animation.field? section?
    let tick ← Setting.tick.field? section?
    some (Timing.mk riseDelay lifetime animation tick)) = _ ↔ _
  simp only [Option.bind_eq_bind, Option.bind_eq_some_iff, Option.some.injEq, Timing.mk.injEq,
    ↓existsAndEq, and_true]

theorem Effects.ofToml?_iff {e : Effects} :
    fieldOr Effects.ofToml? {} section? = some e ↔ IsRecord? section? ∧
      fieldOr Burst.ofToml? {} (section?.bind (child? ⟨"burst", 0⟩)) = some e.burst ∧
      fieldOr Rise.ofToml? {} (section?.bind (child? ⟨"rise", 1⟩)) = some e.rise ∧
      fieldOr Timing.ofToml? {} (section?.bind (child? ⟨"timing", 2⟩)) = some e.timing := by
  refine (fieldOr_record_iff Effects.ofToml? {} (fun _ => rfl) rfl).trans
    (and_congr_right fun _ => ?_)
  obtain ⟨burst, rise, timing⟩ := e
  show Option.bind _ _ = _ ↔ _
  simp only [Option.bind_eq_bind, Option.bind_eq_some_iff, Option.some.injEq, Effects.mk.injEq,
    ↓existsAndEq, and_true]

/-- A document is read section by section. -/
theorem Settings.ofToml?_iff_sections {s : Settings} :
    fieldOr Settings.ofToml? {} section? = some s ↔ IsRecord? section? ∧
      fieldOr Screen.ofToml? {} (section?.bind (child? ⟨"screen", 0⟩)) = some s.screen ∧
      fieldOr EasterEgg.ofToml? {} (section?.bind (child? ⟨"easter_egg", 1⟩)) =
        some s.easterEgg ∧
      fieldOr Effects.ofToml? {} (section?.bind (child? ⟨"fx", 2⟩)) = some s.effects := by
  refine (fieldOr_record_iff Settings.ofToml? {} (fun _ => rfl) rfl).trans
    (and_congr_right fun _ => ?_)
  obtain ⟨screen, easterEgg, effects⟩ := s
  show Option.bind _ _ = _ ↔ _
  simp only [Option.bind_eq_bind, Option.bind_eq_some_iff, Option.some.injEq, Settings.mk.injEq,
    ↓existsAndEq, and_true]

end Sections

/-! ### Documents, setting by setting -/

namespace Toml

theorem descend?_concat (path : List Field) (f : Field) (v? : Option Toml) :
    descend? (path ++ [f]) v? = (descend? path v?).bind (child? f) := by
  induction path generalizing v? with
  | nil => rfl
  | cons g path ih => exact ih _

end Toml

variable {document? : Option Toml} {s : Settings}

/-- **A document is read setting by setting**: every section has to be a record, and every
setting is that of its section. -/
theorem Settings.ofToml?_iff : fieldOr Settings.ofToml? {} document? = some s ↔
    (∀ x : Section, IsRecord? (descend? x.path document?)) ∧
      ∀ {α : Type} (l : Setting α), l.field? (descend? l.home.1.path document?) = some (l.get s) := by
  have sections (P : Section → Prop) : (∀ x, P x) ↔ P .whole ∧ P .screen ∧ P .easterEgg ∧
      P .effects ∧ P .burst ∧ P .rise ∧ P .timing := by
    constructor
    · intro all
      exact ⟨all _, all _, all _, all _, all _, all _, all _⟩
    · rintro ⟨_, _, _, _, _, _, _⟩ x
      cases x <;> assumption
  rw [sections, Setting.forall_iff, ofToml?_iff_sections, Screen.ofToml?_iff,
    EasterEgg.ofToml?_iff, Effects.ofToml?_iff, Burst.ofToml?_iff, Rise.ofToml?_iff,
    Timing.ofToml?_iff]
  simp only [Setting.home, Section.path, descend?, Setting.get]
  constructor
  · rintro ⟨whole, ⟨screen, onScreen⟩, ⟨egg, inEgg⟩, effects, ⟨burst, inBurst⟩, ⟨rise, inRise⟩,
      timing, inTiming⟩
    exact ⟨⟨whole, screen, egg, effects, burst, rise, timing⟩, onScreen, inEgg, inBurst, inRise,
      inTiming⟩
  · rintro ⟨⟨whole, screen, egg, effects, burst, rise, timing⟩, onScreen, inEgg, inBurst, inRise,
      inTiming⟩
    exact ⟨whole, ⟨screen, onScreen⟩, ⟨egg, inEgg⟩, effects, ⟨burst, inBurst⟩, ⟨rise, inRise⟩,
      timing, inTiming⟩

/-- **The shape of a document with settings**: every section that is there is a record, and every
setting that is there is of its kind. -/
structure Settings.Shaped (document? : Option Toml) : Prop where
  sections : ∀ x : Section, IsRecord? (descend? x.path document?)
  kinds : ∀ {α : Type} (l : Setting α) v, descend? l.path document? = some v →
    ∃ a, l.read v = some a

/-- The settings of a document by themselves: what it leaves out has its default. -/
def Settings.stored (document? : Option Toml) : Settings :=
  ofValues fun l => (l.stored? document?).getD l.default

/-- From a document that has the shape its settings can be taken. -/
theorem Settings.Shaped.ofToml? (shaped : Shaped document?) :
    fieldOr Settings.ofToml? {} document? = some (stored document?) := by
  refine ofToml?_iff.2 ⟨shaped.sections, fun l => ?_⟩
  rw [Setting.field?, ← Toml.descend?_concat, stored, get_ofValues]
  exact Toml.fieldOr_of_kind l.default (shaped.kinds l)

/-- **Settings can be taken from a document that has the shape, and from no other**. -/
theorem Settings.shaped_iff :
    Shaped document? ↔ ∃ s, fieldOr Settings.ofToml? {} document? = some s := by
  constructor
  · intro shaped
    exact ⟨_, shaped.ofToml?⟩
  · rintro ⟨s, read⟩
    obtain ⟨sections, values⟩ := ofToml?_iff.1 read
    refine ⟨sections, fun l => ?_⟩
    have value := values l
    rw [Setting.field?, ← Toml.descend?_concat] at value
    exact Toml.kind_of_fieldOr value

end HeartKeypad
