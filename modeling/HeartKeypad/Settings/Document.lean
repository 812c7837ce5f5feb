import HeartKeypad.Settings.Basic
import HeartKeypad.Toml.Record

/-!
# Settings in documents

What a document leaves out has its default value, section by section and field by
field.  Settings cannot be taken from a document in which a field is there but not of
its kind.
-/

namespace HeartKeypad

/-- The settings of a burst in a document. -/
def Burst.ofToml? (v : Toml) : Option Burst := do
  let d : Burst := {}
  match ← v.record? ["count", "jitter_x", "jitter_y", "size_min", "size_max"] with
  | [count, jitterX, jitterY, sizeMin, sizeMax] => do
    let count ← Toml.fieldOr Toml.word? d.count count
    let jitterX ← Toml.fieldOr Toml.real? d.jitterX jitterX
    let jitterY ← Toml.fieldOr Toml.real? d.jitterY jitterY
    let sizeMin ← Toml.fieldOr Toml.real? d.sizeMin sizeMin
    let sizeMax ← Toml.fieldOr Toml.real? d.sizeMax sizeMax
    some ⟨count, jitterX, jitterY, sizeMin, sizeMax⟩
  | _ => none

/-- The settings of the rise in a document. -/
def Rise.ofToml? (v : Toml) : Option Rise := do
  let d : Rise := {}
  match ← v.record? ["top_offset", "jitter_x", "jitter_y"] with
  | [topOffset, jitterX, jitterY] => do
    let topOffset ← Toml.fieldOr Toml.real? d.topOffset topOffset
    let jitterX ← Toml.fieldOr Toml.real? d.jitterX jitterX
    let jitterY ← Toml.fieldOr Toml.real? d.jitterY jitterY
    some ⟨topOffset, jitterX, jitterY⟩
  | _ => none

/-- The settings of the times in a document. -/
def Timing.ofToml? (v : Toml) : Option Timing := do
  let d : Timing := {}
  match ← v.record? ["rise_delay_ms", "lifetime_ms", "animation_ms", "tick_ms"] with
  | [riseDelay, lifetime, animation, tick] => do
    let riseDelay ← Toml.fieldOr Toml.word? d.riseDelay riseDelay
    let lifetime ← Toml.fieldOr Toml.word? d.lifetime lifetime
    let animation ← Toml.fieldOr Toml.word? d.animation animation
    let tick ← Toml.fieldOr Toml.word? d.tick tick
    some ⟨riseDelay, lifetime, animation, tick⟩
  | _ => none

/-- The settings of a show in a document. -/
def Effects.ofToml? (v : Toml) : Option Effects := do
  match ← v.record? ["burst", "rise", "timing"] with
  | [burst, rise, timing] => do
    let burst ← Toml.fieldOr Burst.ofToml? {} burst
    let rise ← Toml.fieldOr Rise.ofToml? {} rise
    let timing ← Toml.fieldOr Timing.ofToml? {} timing
    some ⟨burst, rise, timing⟩
  | _ => none

/-- The screen in a document. -/
def Screen.ofToml? (v : Toml) : Option Screen := do
  let d : Screen := {}
  match ← v.record? ["width", "height", "spacing"] with
  | [width, height, spacing] => do
    let width ← Toml.fieldOr Toml.real? d.width width
    let height ← Toml.fieldOr Toml.real? d.height height
    let spacing ← Toml.fieldOr Toml.real? d.spacing spacing
    some ⟨width, height, spacing⟩
  | _ => none

/-- The easter egg in a document. -/
def EasterEgg.ofToml? (v : Toml) : Option EasterEgg := do
  let d : EasterEgg := {}
  match ← v.record? ["url", "result", "open_link"] with
  | [url, result, openLink] => do
    let url ← Toml.fieldOr Toml.text? d.url url
    let result ← Toml.fieldOr Toml.text? d.result result
    let openLink ← Toml.fieldOr Toml.boolean? d.openLink openLink
    some ⟨url, result, openLink⟩
  | _ => none

/-- The settings of the program in a document. -/
def Settings.ofToml? (v : Toml) : Option Settings := do
  match ← v.record? ["screen", "easter_egg", "fx"] with
  | [screen, easterEgg, effects] => do
    let screen ← Toml.fieldOr Screen.ofToml? {} screen
    let easterEgg ← Toml.fieldOr EasterEgg.ofToml? {} easterEgg
    let effects ← Toml.fieldOr Effects.ofToml? {} effects
    some ⟨screen, easterEgg, effects⟩
  | _ => none

end HeartKeypad
