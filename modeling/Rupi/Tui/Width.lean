import Mathlib.Tactic

/-!
The columns that characters take up on a terminal.

- `charWidth`, `displayWidth`: none, one or two columns for a character, and their sum for a text.
- `truncate`: a text cut to a number of columns, with an ellipsis where something was cut.
-/

namespace Rupi.Tui

/-- `is_control`. -/
def isControl (code : ℕ) : Bool := code < 0x20 || (0x7f ≤ code && code ≤ 0x9f)

/-- The ranges of `is_zero_width`. -/
def zeroWidthRanges : List (ℕ × ℕ) :=
  [(0x0300, 0x036f), (0x1ab0, 0x1aff), (0x1dc0, 0x1dff), (0x20d0, 0x20f0), (0xfe00, 0xfe0f),
    (0xfe20, 0xfe2f), (0x1160, 0x11ff), (0x200b, 0x200f), (0x2060, 0x2064), (0xfeff, 0xfeff)]

/-- The ranges of `is_wide`. -/
def wideRanges : List (ℕ × ℕ) :=
  [(0x1100, 0x115f), (0x2e80, 0x303e), (0x3041, 0x33ff), (0x3400, 0x4dbf), (0x4e00, 0x9fff),
    (0xa000, 0xa4cf), (0xa960, 0xa97f), (0xac00, 0xd7a3), (0xf900, 0xfaff), (0xfe10, 0xfe19),
    (0xfe30, 0xfe6f), (0xff00, 0xff60), (0xffe0, 0xffe6), (0x1f300, 0x1f64f), (0x1f680, 0x1f6ff),
    (0x1f7e0, 0x1f7eb), (0x1f900, 0x1f9ff), (0x20000, 0x3fffd)]

def inRanges (ranges : List (ℕ × ℕ)) (code : ℕ) : Bool :=
  ranges.any fun range => range.1 ≤ code && code ≤ range.2

/-- `char_width`. -/
def charWidth (c : Char) : ℕ :=
  if isControl c.toNat || inRanges zeroWidthRanges c.toNat then 0
  else if inRanges wideRanges c.toNat then 2
  else 1

/-- `display_width`. -/
def displayWidth (text : List Char) : ℕ := (text.map charWidth).sum

section Width

variable {c : Char} {text text' : List Char}

lemma charWidth_le_two : charWidth c ≤ 2 := by
  rw [charWidth]
  split_ifs <;> omega

lemma charWidth_space : charWidth ' ' = 1 := by decide

@[simp] lemma displayWidth_nil : displayWidth [] = 0 := rfl

@[simp] lemma displayWidth_cons : displayWidth (c :: text) = charWidth c + displayWidth text := by
  rw [displayWidth, List.map_cons, List.sum_cons, displayWidth]

@[simp] lemma displayWidth_append :
    displayWidth (text ++ text') = displayWidth text + displayWidth text' := by
  rw [displayWidth, List.map_append, List.sum_append, displayWidth, displayWidth]

@[simp] lemma displayWidth_spaces (n : ℕ) : displayWidth (List.replicate n ' ') = n := by
  rw [displayWidth, List.map_replicate, charWidth_space, List.sum_replicate, smul_eq_mul, mul_one]

end Width

/-- The characters that fit the columns. -/
def takeColumns : ℕ → List Char → List Char
  | _, [] => []
  | columns, c :: text =>
      if columns < charWidth c then [] else c :: takeColumns (columns - charWidth c) text

/-- `truncate`. -/
def truncate (text : List Char) (width : ℕ) : List Char :=
  if displayWidth text ≤ width then text
  else if width = 0 then []
  else takeColumns (width - charWidth '…') text ++ ['…']

lemma displayWidth_takeColumns (columns : ℕ) (text : List Char) :
    displayWidth (takeColumns columns text) ≤ columns := by
  induction text generalizing columns with
  | nil => exact Nat.zero_le _
  | cons c text ih =>
    rw [takeColumns]
    split_ifs with h
    · exact Nat.zero_le _
    · have hrest := ih (columns - charWidth c)
      rw [displayWidth_cons]
      omega

/-- A text that was truncated fits. -/
lemma displayWidth_truncate (text : List Char) (width : ℕ) :
    displayWidth (truncate text width) ≤ width := by
  rw [truncate]
  split_ifs with hfits hzero
  · exact hfits
  · exact Nat.zero_le _
  · have hrest := displayWidth_takeColumns (width - charWidth '…') text
    have hdots : charWidth '…' = 1 := by decide
    rw [displayWidth_append, displayWidth_cons, displayWidth_nil]
    omega

end Rupi.Tui
