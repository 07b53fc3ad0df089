import DirectiveLowering.Text.Printable

/-!
# Quoted texts

The form in which messages show a text that they cannot show bare: between single quotes, or between
double quotes when the text has single quotes only; the enclosing quote, the backslash and whatever
cannot be printed are escaped.

Results:
* `inAscii_of_forall`: ASCII text is not changed when it is brought into ASCII.
* `quotedChars_of_forall`: printable text without quotes and backslashes is merely enclosed.
-/

namespace DirectiveLowering.Text

/-- The quote that encloses a text. -/
def quoteMark (s : List Char) : Char :=
  if s.contains '\x27' && !s.contains '\x22' then '\x22' else '\x27'

/-- Hexadecimal digits of a number, filled up with zeros to a width. -/
def hexDigits (width n : Nat) : List Char :=
  let digits := Nat.toDigits 16 n
  List.replicate (width - digits.length) '0' ++ digits

/-- A character written by its code point. -/
def codeEscape (c : Char) : List Char :=
  if c.toNat < 0x100 then '\\' :: 'x' :: hexDigits 2 c.toNat
  else if c.toNat < 0x10000 then '\\' :: 'u' :: hexDigits 4 c.toNat
  else '\\' :: 'U' :: hexDigits 8 c.toNat

/-- How a character is written between two `mark`s. -/
def escaped (mark c : Char) : List Char :=
  if c = mark || c = '\\' then ['\\', c]
  else if c = '\n' then ['\\', 'n']
  else if c = '\r' then ['\\', 'r']
  else if c = '\t' then ['\\', 't']
  else if isPrintable c then [c]
  else codeEscape c

/-- A text in quotes. -/
def quotedChars (s : List Char) : List Char :=
  let mark := quoteMark s
  mark :: s.flatMap (escaped mark) ++ [mark]

/-- A text in quotes. -/
def quoted (s : String) : String :=
  String.ofList (quotedChars s.toList)

/-- A text with every character beyond ASCII written by its code point. -/
def inAscii (s : List Char) : List Char :=
  s.flatMap fun c => if c.toNat < 0x80 then [c] else codeEscape c

theorem inAscii_of_forall {s : List Char} (h : ∀ c ∈ s, c.toNat < 0x80) : inAscii s = s := by
  induction s with
  | nil => rfl
  | cons c rest ih =>
    have hrest := ih fun d hd => h d (List.mem_cons_of_mem _ hd)
    simp [inAscii] at hrest ⊢
    rw [if_pos (h c (by simp)), hrest]
    rfl

theorem quotedChars_of_forall {s : List Char}
    (h : ∀ c ∈ s, isPrintable c = true ∧ c ≠ '\x27' ∧ c ≠ '\\') :
    quotedChars s = '\x27' :: s ++ ['\x27'] := by
  have hmark : quoteMark s = '\x27' := by
    unfold quoteMark
    rw [if_neg]
    simp only [Bool.and_eq_true, List.contains_iff_mem]
    exact fun hq => (h _ hq.1).2.1 rfl
  have hsame : s.flatMap (escaped '\x27') = s := by
    clear hmark
    induction s with
    | nil => rfl
    | cons c rest ih =>
      obtain ⟨hp, hq, hb⟩ := h c (by simp)
      have hn : c ≠ '\n' := fun he => absurd (he ▸ hp) (by decide)
      have hr : c ≠ '\r' := fun he => absurd (he ▸ hp) (by decide)
      have ht : c ≠ '\t' := fun he => absurd (he ▸ hp) (by decide)
      rw [List.flatMap_cons, ih fun d hd => h d (List.mem_cons_of_mem _ hd)]
      simp [escaped, hp, hq, hb, hn, hr, ht]
  rw [quotedChars, hmark, hsame]

end DirectiveLowering.Text
