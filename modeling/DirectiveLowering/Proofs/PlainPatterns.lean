import DirectiveLowering.Proofs.FirstWord

/-!
# Patterns on plain texts

Which of the seven patterns of a word fits a plain text, and how far it reaches. Contractions and
letters outside ASCII do not occur, so what the patterns look for is the longest start of a text in one
class, perhaps after a capital, and the character behind it.

Results:
* `nextWord?_small`, `nextWord?_capitalised`, `nextWord?_butLast`, `nextWord?_capitals`: the pattern that
  fits letters, by how they start.
* `nextWord?_number`: the patterns of ordinals and numbers.
* `nextWord?_separator`: no pattern fits at another character.
-/

namespace DirectiveLowering.Naming

open Text

/-! ## Plain characters -/

/-- The character is in ASCII and no apostrophe. -/
def IsPlain (c : Char) : Prop :=
  c.toNat < 128 ∧ c ≠ '\x27'

/-- The text consists of plain characters. -/
def Plain (s : List Char) : Prop :=
  ∀ c ∈ s, IsPlain c

/-- In ASCII the classes of names are those of `Char`. -/
theorem classes_of_lt : ∀ i, i < 128 →
    isCapital (Char.ofNat i) = (Char.ofNat i).isUpper ∧
    isSmall (Char.ofNat i) = (Char.ofNat i).isLower ∧
    isDecimalDigit (Char.ofNat i) = (Char.ofNat i).isDigit ∧
    isSeparator (Char.ofNat i) = !(Char.ofNat i).isAlphanum := by
  decide +kernel

namespace IsPlain

variable {c : Char}

theorem capital (h : IsPlain c) : isCapital c = c.isUpper := by
  simpa using (classes_of_lt c.toNat h.1).1

theorem small (h : IsPlain c) : isSmall c = c.isLower := by
  simpa using (classes_of_lt c.toNat h.1).2.1

theorem digit (h : IsPlain c) : isDecimalDigit c = c.isDigit := by
  simpa using (classes_of_lt c.toNat h.1).2.2.1

theorem separator (h : IsPlain c) : isSeparator c = !c.isAlphanum := by
  simpa using (classes_of_lt c.toNat h.1).2.2.2

theorem other (h : IsPlain c) : isOther c = false := by
  rw [isOther, h.capital, h.small, h.digit, h.separator, isAlphanum_eq]
  cases c.isUpper <;> cases c.isLower <;> cases c.isDigit <;> rfl

theorem letter (h : IsPlain c) : isLetter c = c.isAlpha := by
  rw [isLetter, h.separator, h.digit, isAlphanum_eq, isAlpha_eq]
  cases hdigit : c.isDigit with
  | false => simp
  | true => simp [not_isUpper_of_isDigit hdigit, not_isLower_of_isDigit hdigit]

theorem apostrophe (h : IsPlain c) : isApostrophe c = false := by
  have hcurly : c ≠ '’' := by
    rintro rfl
    exact absurd h.1 (by decide)
  simp [isApostrophe, h.2, hcurly]

end IsPlain

namespace Plain

variable {a b s : List Char}

theorem left (h : Plain (a ++ b)) : Plain a :=
  fun c hc => h c (List.mem_append_left b hc)

theorem right (h : Plain (a ++ b)) : Plain b :=
  fun c hc => h c (List.mem_append_right a hc)

theorem tail {c : Char} (h : Plain (c :: s)) : Plain s :=
  fun d hd => h d (List.mem_cons_of_mem c hd)

theorem head {c : Char} (h : Plain (c :: s)) : IsPlain c :=
  h c List.mem_cons_self

theorem leads_small (h : Plain s) : leads isSmall s = leads Char.isLower s := by
  cases s with
  | nil => rfl
  | cons c s => exact h.head.small

theorem leads_letter (h : Plain s) :
    leads (fun c => isSmall c || isOther c) s = leads Char.isLower s := by
  cases s with
  | nil => rfl
  | cons c s => rw [leads_cons, h.head.small, h.head.other, Bool.or_false, leads_cons]

theorem leads_digit (h : Plain s) : leads isDecimalDigit s = leads Char.isDigit s := by
  cases s with
  | nil => rfl
  | cons c s => exact h.head.digit

end Plain

/-! ## The pattern that fits -/

section Next

variable {caps lows rest : List Char}

theorem cutContraction_of_plain (endings : List (List Char)) {s : List Char} (h : Plain s) :
    cutContraction endings s = ([], s) := by
  refine cutContraction_eq_nil endings ?_
  cases s with
  | nil => rfl
  | cons c s => exact h.head.apostrophe

theorem Plain.isSmall_of_isLower (h : Plain lows) (hlows : ∀ c ∈ lows, c.isLower = true) :
    ∀ c ∈ lows, isSmall c = true :=
  fun c hc => (h c hc).small.trans (hlows c hc)

theorem Plain.isCapital_of_isUpper (h : Plain caps) (hcaps : ∀ c ∈ caps, c.isUpper = true) :
    ∀ c ∈ caps, isCapital c = true :=
  fun c hc => (h c hc).capital.trans (hcaps c hc)

theorem nextWord?_small (h : Plain (lows ++ rest)) (hne : lows ≠ [])
    (hlows : ∀ c ∈ lows, c.isLower = true) (hrest : leads Char.isLower rest = false) :
    nextWord? (lows ++ rest) = some (lows, rest) := by
  have hfound := nextWord?_smallRun hne (h.left.isSmall_of_isLower hlows)
    (h.right.leads_letter.trans hrest) (cutContraction_of_plain _ h.right)
  rwa [List.append_nil, ite_self] at hfound

theorem nextWord?_capitalised {c : Char} (h : Plain (c :: (lows ++ rest))) (hc : c.isUpper = true)
    (hne : lows ≠ []) (hlows : ∀ c ∈ lows, c.isLower = true)
    (hrest : leads Char.isLower rest = false) :
    nextWord? (c :: (lows ++ rest)) = some (c :: lows, rest) := by
  have hfound := nextWord?_capitalisedRun (h.head.capital.trans hc) hne
    (h.tail.left.isSmall_of_isLower hlows) (h.tail.right.leads_letter.trans hrest)
    (cutContraction_of_plain _ h.tail.right)
  rwa [List.append_nil, ite_self] at hfound

theorem nextWord?_butLast {d : Char} (h : Plain (caps ++ d :: rest)) (hne : caps ≠ [])
    (hcaps : ∀ c ∈ caps, c.isUpper = true) (hd : d.isUpper = true)
    (hrest : leads Char.isLower rest = true) :
    nextWord? (caps ++ d :: rest) = some (caps, d :: rest) := by
  have hcapital := h.left.isCapital_of_isUpper hcaps
  have hlast : isCapital d = true := h.right.head.capital.trans hd
  have hnext : atNextWord (d :: rest) = true := by
    have hletter := h.right.tail.leads_letter.trans hrest
    rw [leads] at hletter
    rw [atNextWord, hlast, hletter, Bool.and_true, Bool.or_true]
  have hrun := capitalRun?_of_next hne (fun c hc => by rw [hcapital c hc, Bool.true_or])
    (capitalRun?_of_capitalised hlast (h.right.tail.leads_small.trans hrest)) hnext
  obtain ⟨c, caps, rfl⟩ := List.exists_cons_of_ne_nil hne
  rw [List.cons_append] at h hrun ⊢
  have hlower : leads Char.isLower (caps ++ d :: rest) = false := by
    cases caps with
    | nil => exact not_isLower_of_isUpper hd
    | cons e caps => exact not_isLower_of_isUpper (hcaps e (by simp))
  rw [nextWord?, (wordPatterns_of_capitals (hcapital c List.mem_cons_self)
    (h.tail.leads_letter.trans hlower)).1, hrun]
  rfl

theorem nextWord?_capitals (h : Plain (caps ++ rest)) (hne : caps ≠ [])
    (hcaps : ∀ c ∈ caps, c.isUpper = true) (hupper : leads Char.isUpper rest = false)
    (hlower : leads Char.isLower rest = false) :
    nextWord? (caps ++ rest) = some (caps, rest) := by
  refine nextWord?_capitalRun hne (h.left.isCapital_of_isUpper hcaps) ?_
  cases rest with
  | nil => rfl
  | cons c rest =>
    rw [leads_cons] at hupper hlower
    rw [leads_cons, h.right.head.letter, isAlpha_eq, hupper, hlower]
    rfl

theorem nextWord?_separator {c : Char} (h : Plain (c :: rest)) (hc : c.isAlphanum = false) :
    nextWord? (c :: rest) = none := by
  refine nextWord?_of_separator ?_ rest
  rw [h.head.separator, hc]
  rfl

end Next

/-! ## Numbers -/

section Numbers

variable {digits rest : List Char}

/-- In ASCII a character ends the capitals of an ordinal when it is neither a digit nor a capital, and
its small letters when it is neither a digit nor a small letter. -/
theorem ordinalEnds_of_lt : ∀ i, i < 128 →
    (!isWordChar (Char.ofNat i) || isAsciiSmallOrLine (Char.ofNat i)) =
      !((Char.ofNat i).isDigit || (Char.ofNat i).isUpper) ∧
    (!isWordChar (Char.ofNat i) || isAsciiCapitalOrLine (Char.ofNat i)) =
      !((Char.ofNat i).isDigit || (Char.ofNat i).isLower) := by
  decide +kernel

theorem atBoundaryOr_eq {allowed next : Char → Bool}
    (hchar : ∀ c, IsPlain c → (!isWordChar c || allowed c) = !next c) (h : Plain rest) :
    atBoundaryOr allowed rest = !leads next rest := by
  cases rest with
  | nil => rfl
  | cons c rest => exact hchar c h.head

theorem atBoundaryOr_small (h : Plain rest) :
    atBoundaryOr isAsciiSmallOrLine rest =
      !leads (fun c => c.isDigit || c.isUpper) rest := by
  apply atBoundaryOr_eq _ h
  intro c hc
  simpa using (ordinalEnds_of_lt c.toNat hc.1).1

theorem atBoundaryOr_capital (h : Plain rest) :
    atBoundaryOr isAsciiCapitalOrLine rest =
      !leads (fun c => c.isDigit || c.isLower) rest := by
  apply atBoundaryOr_eq _ h
  intro c hc
  simpa using (ordinalEnds_of_lt c.toNat hc.1).2

theorem ordinal?_eq {letters : Char → List Char} {allowed : Char → Bool} {last x y : Char}
    (h : Plain (digits ++ rest)) (hdigits : ∀ c ∈ digits, c.isDigit = true)
    (hrest : leads Char.isDigit rest = false) (hlast : digits.getLast? = some last)
    (hletters : letters last = [x, y]) :
    ordinal? letters allowed (digits ++ rest) =
      if [x, y].isPrefixOf rest && atBoundaryOr allowed (rest.drop 2) then
        some (digits ++ rest.take 2, rest.drop 2)
      else none := by
  have hdecimal : ∀ c ∈ digits, isDecimalDigit c = true :=
    fun c hc => (h.left c hc).digit.trans (hdigits c hc)
  rw [ordinal?_of_parts letters allowed hdecimal hlast (h.right.leads_digit.trans hrest), hletters]
  by_cases hprefix : [x, y].isPrefixOf rest = true
  · obtain ⟨after, rfl⟩ := List.isPrefixOf_iff_prefix.1 hprefix
    rfl
  · rw [Bool.eq_false_iff.2 hprefix]
    rfl

theorem capitalOrdinal_eq (last : Char) :
    capitalOrdinal last = [(ordinalLetters last).1, (ordinalLetters last).2] := by
  unfold capitalOrdinal ordinalLetters
  repeat' split
  all_goals rfl

theorem smallOrdinal_eq (last : Char) :
    smallOrdinal last = [(ordinalLetters last).1.toLower, (ordinalLetters last).2.toLower] := by
  unfold smallOrdinal ordinalLetters
  repeat' split
  all_goals rfl

/-- The two patterns of ordinals fit exactly when a number takes the next two letters with it. -/
theorem takesLetters_eq (h : Plain rest) (last : Char) :
    takesLetters last rest =
      (([(ordinalLetters last).1, (ordinalLetters last).2].isPrefixOf rest &&
          atBoundaryOr isAsciiSmallOrLine (rest.drop 2)) ||
        ([(ordinalLetters last).1.toLower, (ordinalLetters last).2.toLower].isPrefixOf rest &&
          atBoundaryOr isAsciiCapitalOrLine (rest.drop 2))) := by
  match rest, h with
  | [], _ => rfl
  | [a], _ => simp [takesLetters, List.isPrefixOf]
  | a :: b :: after, h =>
    have hafter : Plain after := h.tail.tail
    have hbeq : ∀ p q : Char, (p == q) = decide (q = p) := by
      intro p q
      by_cases hpq : q = p
      · simp [hpq]
      · simp [hpq, Ne.symm hpq]
    simp only [takesLetters, List.isPrefixOf, List.drop_succ_cons, List.drop_zero,
      atBoundaryOr_small hafter, atBoundaryOr_capital hafter, leads, hbeq, Bool.and_true]

theorem nextWord?_number {last : Char} (h : Plain (digits ++ rest))
    (hdigits : ∀ c ∈ digits, c.isDigit = true) (hrest : leads Char.isDigit rest = false)
    (hlast : digits.getLast? = some last) :
    nextWord? (digits ++ rest) =
      if takesLetters last rest then some (digits ++ rest.take 2, rest.drop 2)
      else some (digits, rest) := by
  have hdecimal : ∀ c ∈ digits, isDecimalDigit c = true :=
    fun c hc => (h.left c hc).digit.trans (hdigits c hc)
  rw [nextWord?_of_digits hdecimal hlast (h.right.leads_digit.trans hrest),
    ordinal?_eq h hdigits hrest hlast (capitalOrdinal_eq last),
    ordinal?_eq h hdigits hrest hlast (smallOrdinal_eq last), takesLetters_eq h.right]
  generalize ([(ordinalLetters last).1, (ordinalLetters last).2].isPrefixOf rest &&
    atBoundaryOr isAsciiSmallOrLine (rest.drop 2)) = inCapitals
  generalize ([(ordinalLetters last).1.toLower, (ordinalLetters last).2.toLower].isPrefixOf rest &&
    atBoundaryOr isAsciiCapitalOrLine (rest.drop 2)) = inSmall
  cases inCapitals <;> cases inSmall <;> rfl

end Numbers

end DirectiveLowering.Naming
