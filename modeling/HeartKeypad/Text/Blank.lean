/-!
# Texts and blanks

A text is its list of characters, so that a position counts characters (code
points) and every function on texts is a plain recursion on a list.

* `Text.isBlank` decides the Unicode property `White_Space` by its ranges.
* `Text.trim` drops the blanks at both ends.
* `Text.words` cuts a text at its blanks.

`words` groups from the right: a character joins the word that starts directly
behind it.  This makes it structural, and no word is ever empty
(`words_ne_nil`) or holds a blank (`words_not_isBlank`).
-/

namespace HeartKeypad

/-- A text, character by character. -/
abbrev Text := List Char

namespace Text

/-- The closed ranges of code points with the Unicode property `White_Space`,
ascending and apart. -/
def blankRanges : List (Nat × Nat) :=
  [(0x09, 0x0D), (0x20, 0x20), (0x85, 0x85), (0xA0, 0xA0), (0x1680, 0x1680),
    (0x2000, 0x200A), (0x2028, 0x2029), (0x202F, 0x202F), (0x205F, 0x205F),
    (0x3000, 0x3000)]

/-- A character is blank if it has the Unicode property `White_Space`. -/
def isBlank (c : Char) : Bool :=
  blankRanges.any fun r => decide (r.1 ≤ c.toNat) && decide (c.toNat ≤ r.2)

/-- The text without the blanks it starts with. -/
def trimStart (s : Text) : Text := s.dropWhile isBlank

/-- The text without the blanks it ends with. -/
def trimEnd (s : Text) : Text := (s.reverse.dropWhile isBlank).reverse

/-- The text without the blanks at either end. -/
def trim (s : Text) : Text := trimEnd (trimStart s)

/-- The text starts with a character that is not blank. -/
def startsWord : Text → Bool
  | [] => false
  | c :: _ => !isBlank c

/-- Puts a character in front of the first word. -/
def joinFirst (c : Char) : List Text → List Text
  | [] => [[c]]
  | w :: ws => (c :: w) :: ws

/-- The maximal runs of characters that are not blank, in order. -/
def words : Text → List Text
  | [] => []
  | c :: cs =>
    if isBlank c then words cs
    else if startsWord cs then joinFirst c (words cs)
    else [c] :: words cs

/-! ### The words of a text -/

@[simp] theorem words_nil : words [] = [] := rfl

/-- A blank in front of a text adds no word. -/
theorem words_cons_blank {c : Char} (h : isBlank c = true) (cs : Text) :
    words (c :: cs) = words cs := by
  simp [words, h]

theorem mem_joinFirst {c : Char} {ws : List Text} {w : Text} (h : w ∈ joinFirst c ws) :
    w = [c] ∨ (∃ v ∈ ws, w = c :: v) ∨ w ∈ ws := by
  cases ws with
  | nil => exact Or.inl (by simpa [joinFirst] using h)
  | cons v vs =>
    rcases List.mem_cons.1 h with rfl | h
    · exact Or.inr (Or.inl ⟨v, List.mem_cons_self, rfl⟩)
    · exact Or.inr (Or.inr (List.mem_cons_of_mem _ h))

/-- No word is empty. -/
theorem words_ne_nil (s : Text) : ∀ w ∈ words s, w ≠ [] := by
  induction s with
  | nil => simp
  | cons c cs ih =>
    intro w hw
    unfold words at hw
    split at hw
    · exact ih w hw
    · split at hw
      · rcases mem_joinFirst hw with rfl | ⟨v, -, rfl⟩ | hw
        · simp
        · simp
        · exact ih w hw
      · rcases List.mem_cons.1 hw with rfl | hw
        · simp
        · exact ih w hw

/-- No word holds a blank. -/
theorem words_not_isBlank (s : Text) : ∀ w ∈ words s, ∀ c ∈ w, isBlank c = false := by
  induction s with
  | nil => simp
  | cons c cs ih =>
    intro w hw
    unfold words at hw
    split at hw
    · exact ih w hw
    · rename_i hc
      have hc' : isBlank c = false := by simpa using hc
      split at hw
      · rcases mem_joinFirst hw with rfl | ⟨v, hv, rfl⟩ | hw
        · simp [hc']
        · intro x hx
          rcases List.mem_cons.1 hx with rfl | hx
          · exact hc'
          · exact ih v hv x hx
        · exact ih w hw
      · rcases List.mem_cons.1 hw with rfl | hw
        · simp [hc']
        · exact ih w hw

end Text

end HeartKeypad
