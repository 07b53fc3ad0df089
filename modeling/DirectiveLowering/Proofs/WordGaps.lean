import Mathlib.Data.Option.Basic
import DirectiveLowering.Proofs.FirstWord

/-!
# Words and the gaps between them

A text is its words with gaps of separators between them: whatever is not a separator is in a word, once
and in its place. A pattern fits wherever no separator stands, since a character of any other class starts
one of them. Inside a word there is neither a capital behind a small letter nor a small letter behind two
capitals. For such a word would hold a capital that is not at its start together with a small letter, and
every pattern excludes the one or the other.

Results:
* `isSeparator_of_nextWord?_none`: no word is missed.
* `exists_gaps`: the words and the gaps make up the text.
* `evenlyCased_of_nextWord?`: how capitals and small letters are mixed in a word.
* `words_between_gaps`: all of this for the words of a text.
-/

namespace DirectiveLowering.Naming

open Text

variable {c : Char} {s w rest word after : List Char}

/-! ## Where a word starts -/

theorem openWord?_ne_none (hc : (isSmall c || isOther c) = true) : openWord? (c :: rest) ≠ none := by
  have hcapital : isCapital c = false := (isSmall_or_isOther_iff.1 hc).2
  rw [openWord?, cutCapital_eq_nil (s := c :: rest) hcapital]
  simp [cutWhile, hc]

theorem capitals?_ne_none (hc : isCapital c = true) : capitals? (c :: rest) ≠ none := by
  simp [capitals?, cutWhile, hc]

theorem number?_ne_none (hc : isDecimalDigit c = true) : number? (c :: rest) ≠ none := by
  simp [number?, cutWhile, hc]

/-- **Some pattern fits at every character that is no separator.** -/
theorem isSeparator_of_nextWord?_none (h : nextWord? (c :: rest) = none) : isSeparator c = true := by
  simp only [nextWord?, Option.orElse_eq_none] at h
  obtain ⟨-, -, hopen, hcapitals, -, -, hnumber⟩ := h
  cases hseparator : isSeparator c with
  | true => rfl
  | false =>
    have hdigit : isDecimalDigit c = false :=
      Bool.eq_false_iff.2 fun hc => number?_ne_none hc hnumber
    have hcapital : isCapital c = false :=
      Bool.eq_false_iff.2 fun hc => capitals?_ne_none hc hcapitals
    have hletter := isSmall_or_isOther_iff.2 ⟨isLetter_iff.2 ⟨hseparator, hdigit⟩, hcapital⟩
    exact absurd hopen (openWord?_ne_none hletter)

/-! ## Gaps -/

/-- The text is the words with gaps of separators before, between and after them. -/
theorem exists_gaps (s : List Char) : ∃ (gap : List Char) (gaps : List (List Char)),
    gaps.length = (words s).length ∧ (∀ g ∈ gap :: gaps, ∀ c ∈ g, isSeparator c = true) ∧
      s = gap ++ (List.zipWith (· ++ ·) (words s) gaps).flatten := by
  induction s using words_induct with
  | nil => exact ⟨[], [], rfl, by simp, rfl⟩
  | gap c rest hnone ih =>
    obtain ⟨gap, gaps, hlength, hgaps, hs⟩ := ih
    rw [words_of_none hnone]
    refine ⟨c :: gap, gaps, hlength, fun g hg => ?_, ?_⟩
    · rcases List.mem_cons.1 hg with rfl | hg
      · intro d hd
        rcases List.mem_cons.1 hd with rfl | hd
        · exact isSeparator_of_nextWord?_none hnone
        · exact hgaps gap List.mem_cons_self d hd
      · exact hgaps g (List.mem_cons_of_mem gap hg)
    · rw [List.cons_append, ← hs]
  | word w after hnext ih =>
    obtain ⟨gap, gaps, hlength, hgaps, hs⟩ := ih
    rw [words_of_some hnext]
    refine ⟨[], gap :: gaps, by simp [hlength], fun g hg => ?_, ?_⟩
    · rcases List.mem_cons.1 hg with rfl | hg
      · exact fun d hd => absurd hd List.not_mem_nil
      · exact hgaps g hg
    · rw [List.zipWith_cons_cons, List.flatten_cons, List.nil_append, List.append_assoc, ← hs]

/-- What is left when all separators are dropped is in the words. -/
theorem filter_flatten_words (s : List Char) :
    (words s).flatten.filter (fun c => !isSeparator c) = s.filter fun c => !isSeparator c := by
  induction s using words_induct with
  | nil => rfl
  | gap c rest hnone ih =>
    rw [words_of_none hnone, ih, List.filter_cons, isSeparator_of_nextWord?_none hnone]
    rfl
  | word w after hnext ih =>
    rw [words_of_some hnext, List.flatten_cons, List.filter_append, ih, List.filter_append]

/-! ## Capitals and small letters in a word -/

/-- Only the first character of the word is a capital, or none of them is a small letter. -/
def EvenlyCased (w : List Char) : Prop :=
  (∀ c ∈ w.tail, isCapital c = false) ∨ ∀ c ∈ w, isSmall c = false

/-- One capital at most, and behind it none. -/
theorem not_isCapital_of_mem_tail {s body : List Char} (hbody : ∀ c ∈ body, isCapital c = false) :
    ∀ c ∈ ((cutCapital s).1 ++ body).tail, isCapital c = false := by
  intro c hc
  cases s with
  | nil => exact hbody c (List.mem_of_mem_tail hc)
  | cons d s =>
    rw [cutCapital] at hc
    split at hc
    · exact hbody c hc
    · exact hbody c (List.mem_of_mem_tail hc)

theorem not_isCapital_of_mem_contraction (hc : c ∈ (cutContraction smallContractions s).1) :
    isCapital c = false := by
  rcases cutContraction_cases smallContractions s with h | ⟨a, ending, hending, ha, h⟩
  · rw [h] at hc
    cases hc
  · rw [h] at hc
    exact isCapital_of_settled (settled_contraction ha hending c hc)

theorem evenlyCased_closedWord? (h : closedWord? s = some (word, after)) : EvenlyCased word := by
  refine Or.inl ?_
  have hbody : ∀ c ∈ (cutWhile isSmall (cutCapital s).2).1 ++
      (cutContraction smallContractions (cutWhile isSmall (cutCapital s).2).2).1, isCapital c = false :=
    List.forall_mem_append.2 ⟨fun c hc => (latin_of_isSmall (mem_cutWhile hc)).2.1,
      fun c => not_isCapital_of_mem_contraction⟩
  simp only [closedWord?] at h
  split at h
  · cases h
  split at h
  · obtain ⟨rfl, -⟩ := Prod.mk.inj (Option.some.inj h)
    rw [List.append_assoc]
    exact not_isCapital_of_mem_tail hbody
  split at h
  · obtain ⟨rfl, -⟩ := Prod.mk.inj (Option.some.inj h)
    exact not_isCapital_of_mem_tail fun c hc => hbody c (List.mem_append_left _ hc)
  · cases h

theorem evenlyCased_capitalRun? (h : capitalRun? s = some (word, after)) : EvenlyCased word := by
  refine Or.inr fun c hc => Bool.eq_false_iff.2 fun hsmall => ?_
  rcases Bool.or_eq_true_iff.1 (mem_capitalRun? h c hc) with hcapital | hother
  · rw [(latin_of_isSmall hsmall).2.1] at hcapital
    cases hcapital
  · rw [(isOther_iff.1 hother).2.2.2] at hsmall
    cases hsmall

theorem evenlyCased_openWord? (h : openWord? s = some (word, after)) : EvenlyCased word := by
  refine Or.inl ?_
  simp only [openWord?] at h
  split at h
  · cases h
  obtain ⟨rfl, -⟩ := Prod.mk.inj (Option.some.inj h)
  rw [List.append_assoc]
  refine not_isCapital_of_mem_tail (List.forall_mem_append.2 ⟨fun c hc => ?_, fun c => ?_⟩)
  · exact (isSmall_or_isOther_iff.1 (mem_cutWhile hc)).2
  · exact not_isCapital_of_mem_contraction

/-- Neither capitals nor a contraction in capitals hold a small letter. -/
theorem evenlyCased_capitals? (h : capitals? s = some (word, after)) : EvenlyCased word := by
  refine Or.inr ?_
  have hnoSmall : ∀ {c : Char}, isCapital c = true → isSmall c = false := fun hc =>
    Bool.eq_false_iff.2 fun hsmall => by rw [(latin_of_isSmall hsmall).2.1] at hc; cases hc
  have hendings : capitalContractions.all (·.all isCapital) = true := by decide
  simp only [capitals?] at h
  split at h
  · cases h
  obtain ⟨rfl, -⟩ := Prod.mk.inj (Option.some.inj h)
  refine List.forall_mem_append.2 ⟨fun c hc => hnoSmall (mem_cutWhile hc), fun c hc => ?_⟩
  rcases cutContraction_cases capitalContractions (cutWhile isCapital s).2 with
    hnone | ⟨a, ending, hending, ha, hsome⟩
  · rw [hnone] at hc
    cases hc
  · rw [hsome] at hc
    rcases List.mem_cons.1 hc with rfl | hc
    · refine Bool.eq_false_iff.2 fun hsmall => ?_
      have hletter := (latin_of_isSmall hsmall).1
      rw [isLetter_of_isApostrophe ha] at hletter
      cases hletter
    · exact hnoSmall (List.all_eq_true.1 (List.all_eq_true.1 hendings ending hending) c hc)

/-- The letters that make an ordinal of some number. -/
def ordinalEndings : List (List Char) :=
  [['S', 'T'], ['N', 'D'], ['R', 'D'], ['T', 'H'], ['s', 't'], ['n', 'd'], ['r', 'd'], ['t', 'h']]

theorem mem_ordinalEndings {letters : List Char} {last : Char}
    (h : letters = smallOrdinal last ∨ letters = capitalOrdinal last) : letters ∈ ordinalEndings := by
  rcases h with rfl | rfl
  · unfold smallOrdinal
    repeat' split
    all_goals decide
  · unfold capitalOrdinal
    repeat' split
    all_goals decide

theorem not_latin_of_isDecimalDigit (h : isDecimalDigit c = true) :
    isCapital c = false ∧ isSmall c = false := by
  have hletter := isLetter_of_isDecimalDigit h
  refine ⟨Bool.eq_false_iff.2 fun hcapital => ?_, Bool.eq_false_iff.2 fun hsmall => ?_⟩
  · rw [(latin_of_isCapital hcapital).1] at hletter
    cases hletter
  · rw [(latin_of_isSmall hsmall).1] at hletter
    cases hletter

/-- The letters of an ordinal are all capitals or all small. -/
theorem evenlyCased_append_ordinal {digits letters : List Char}
    (hdigits : ∀ c ∈ digits, isDecimalDigit c = true) (hletters : letters ∈ ordinalEndings) :
    EvenlyCased (digits ++ letters) := by
  have hendings : ordinalEndings.all (fun letters => letters.all (!isCapital ·) ||
    letters.all (!isSmall ·)) = true := by decide
  have hcased := List.all_eq_true.1 hendings letters hletters
  rcases Bool.or_eq_true_iff.1 hcased with hcapital | hsmall
  · refine Or.inl fun c hc => ?_
    rcases List.mem_append.1 (List.mem_of_mem_tail hc) with hc | hc
    · exact (not_latin_of_isDecimalDigit (hdigits c hc)).1
    · simpa using List.all_eq_true.1 hcapital c hc
  · refine Or.inr (List.forall_mem_append.2 ⟨fun c hc => ?_, fun c hc => ?_⟩)
    · exact (not_latin_of_isDecimalDigit (hdigits c hc)).2
    · simpa using List.all_eq_true.1 hsmall c hc

theorem evenlyCased_ordinal? {letters : Char → List Char} {allowed : Char → Bool}
    (hletters : ∀ last, letters last = smallOrdinal last ∨ letters last = capitalOrdinal last)
    (h : ordinal? letters allowed s = some (word, after)) : EvenlyCased word := by
  simp only [ordinal?] at h
  split at h
  · cases h
  next last hlast =>
    split at h
    · obtain ⟨rfl, -⟩ := Prod.mk.inj (Option.some.inj h)
      exact evenlyCased_append_ordinal (fun c => mem_cutWhile) (mem_ordinalEndings (hletters last))
    · cases h

theorem evenlyCased_number? (h : number? s = some (word, after)) : EvenlyCased word := by
  simp only [number?] at h
  split at h
  · cases h
  obtain ⟨rfl, -⟩ := Prod.mk.inj (Option.some.inj h)
  exact Or.inr fun c hc => (not_latin_of_isDecimalDigit (mem_cutWhile hc)).2

theorem evenlyCased_of_nextWord? (h : nextWord? s = some (word, after)) : EvenlyCased word := by
  rcases nextWord?_cases h with h | h | ⟨-, h | h⟩ | ⟨letters, allowed, hletters, h⟩ | h
  · exact evenlyCased_closedWord? h
  · exact evenlyCased_capitalRun? h
  · exact evenlyCased_openWord? h
  · exact evenlyCased_capitals? h
  · exact evenlyCased_ordinal? hletters h
  · exact evenlyCased_number? h

theorem evenlyCased_of_mem_words (h : w ∈ words s) : EvenlyCased w := by
  obtain ⟨t, after, -, ht⟩ := exists_nextWord?_of_mem_words h
  exact evenlyCased_of_nextWord? ht

/-! ## Words of a text -/

/-- What every word of a text is like. -/
structure Wordlike (w : List Char) : Prop where
  ne_nil : w ≠ []
  /-- A separator in it is an apostrophe, the only separator in it, before the ending of a contraction. -/
  separator : ∀ c ∈ w, isSeparator c = true → ∃ u a ending, w = u ++ a :: ending ∧ c = a ∧
    isApostrophe a = true ∧ ending ∈ smallContractions ∧ ∀ d ∈ u ++ ending, isSeparator d = false
  /-- If there is a digit in it, it is a number, with or without the letters of an ordinal. -/
  digit : (∃ c ∈ w, isDecimalDigit c = true) → ∃ digits letters, w = digits ++ letters ∧ digits ≠ [] ∧
    (∀ c ∈ digits, isDecimalDigit c = true) ∧ (letters = [] ∨ letters ∈ ordinalEndings)
  /-- No capital comes behind a small letter. -/
  noRise : ∀ a b, [a, b] <:+: w → isSmall a = true → isCapital b = false
  /-- No small letter comes behind two capitals. -/
  noFall : ∀ a b c, [a, b, c] <:+: w → isCapital a = true → isCapital b = true → isSmall c = false

theorem isLetter_of_mem_ending {ending : List Char} (hending : ending ∈ smallContractions)
    (hc : c ∈ ending) : isLetter c = true := by
  have hendings : smallContractions.all (·.all isLetter) = true := by decide
  exact List.all_eq_true.1 (List.all_eq_true.1 hendings ending hending) c hc

theorem Shape.separator (h : Shape w) (hc : c ∈ w) (hseparator : isSeparator c = true) :
    ∃ u a ending, w = u ++ a :: ending ∧ c = a ∧ isApostrophe a = true ∧
      ending ∈ smallContractions ∧ ∀ d ∈ u ++ ending, isSeparator d = false := by
  cases h with
  | letters _ hw =>
    rw [(isLetter_iff.1 (hw c hc)).1] at hseparator
    cases hseparator
  | @contracted u ending a hu _ ha hending =>
    have hrest : ∀ d ∈ u ++ ending, isSeparator d = false :=
      List.forall_mem_append.2 ⟨fun d hd => (isLetter_iff.1 (hu d hd)).1,
        fun d hd => (isLetter_iff.1 (isLetter_of_mem_ending hending hd)).1⟩
    have hca : c = a := by
      rcases List.mem_append.1 hc with hc | hc
      · rw [hrest c (List.mem_append_left _ hc)] at hseparator
        cases hseparator
      rcases List.mem_cons.1 hc with hc | hc
      · exact hc
      · rw [hrest c (List.mem_append_right _ hc)] at hseparator
        cases hseparator
    exact ⟨u, a, ending, rfl, hca, ha, hending, hrest⟩
  | number _ hdigits =>
    rw [isSeparator_of_isDecimalDigit (hdigits c hc)] at hseparator
    cases hseparator
  | ordinal hdigits _ hletters =>
    have hendings : ordinalEndings.all (·.all (!isSeparator ·)) = true := by decide
    rcases List.mem_append.1 hc with hc | hc
    · rw [isSeparator_of_isDecimalDigit (hdigits c hc)] at hseparator
      cases hseparator
    · have hletter := List.all_eq_true.1 (List.all_eq_true.1 hendings _ (mem_ordinalEndings hletters)) c hc
      rw [hseparator] at hletter
      cases hletter

theorem Shape.digit (h : Shape w) (hc : c ∈ w) (hdigit : isDecimalDigit c = true) :
    ∃ digits letters, w = digits ++ letters ∧ digits ≠ [] ∧
      (∀ c ∈ digits, isDecimalDigit c = true) ∧ (letters = [] ∨ letters ∈ ordinalEndings) := by
  have hnoLetter := isLetter_of_isDecimalDigit hdigit
  cases h with
  | letters _ hw =>
    rw [hw c hc] at hnoLetter
    cases hnoLetter
  | @contracted u ending a hu _ ha hending =>
    rcases List.mem_append.1 hc with hc | hc
    · rw [hu c hc] at hnoLetter
      cases hnoLetter
    rcases List.mem_cons.1 hc with rfl | hc
    · have hseparator := isSeparator_of_isApostrophe ha
      rw [isSeparator_of_isDecimalDigit hdigit] at hseparator
      cases hseparator
    · rw [isLetter_of_mem_ending hending hc] at hnoLetter
      cases hnoLetter
  | number hne hdigits => exact ⟨w, [], (List.append_nil w).symm, hne, hdigits, Or.inl rfl⟩
  | @ordinal digits letters last hdigits hlast hletters =>
    refine ⟨digits, letters, rfl, ?_, hdigits, Or.inr (mem_ordinalEndings hletters)⟩
    rintro rfl
    cases hlast

theorem mem_tail_of_part {d : Char} {l : List Char} (h : c :: l <:+: w) (hd : d ∈ l) :
    d ∈ w.tail := by
  obtain ⟨before, after, rfl⟩ := h
  cases before with
  | nil => exact List.mem_append_left after hd
  | cons e before => simp [hd]

theorem EvenlyCased.noRise (h : EvenlyCased w) {a b : Char} (hab : [a, b] <:+: w)
    (ha : isSmall a = true) : isCapital b = false := by
  rcases h with h | h
  · exact h b (mem_tail_of_part hab (by simp))
  · rw [h a (hab.subset (by simp))] at ha
    cases ha

theorem EvenlyCased.noFall (h : EvenlyCased w) {a b d : Char} (habd : [a, b, d] <:+: w)
    (hb : isCapital b = true) : isSmall d = false := by
  rcases h with h | h
  · rw [h b (mem_tail_of_part habd (by simp))] at hb
    cases hb
  · exact h d (habd.subset (by simp))

theorem wordlike_of_mem_words (h : w ∈ words s) : Wordlike w where
  ne_nil := ne_nil_of_mem_words h
  separator _ := (shape_of_mem_words h).separator
  digit := fun ⟨_, hc, hdigit⟩ => (shape_of_mem_words h).digit hc hdigit
  noRise _ _ := (evenlyCased_of_mem_words h).noRise
  noFall _ _ _ habc _ := (evenlyCased_of_mem_words h).noFall habc

/-- **A text is its words and the gaps between them**, whatever characters it consists of. The gaps hold
separators only; no other character is lost, repeated or moved. A word holds no separator but the
apostrophe of a contraction, no digits but those of a number at its start, no capital behind a small
letter and no small letter behind two capitals. -/
theorem words_between_gaps (s : List Char) :
    (∃ (gap : List Char) (gaps : List (List Char)), gaps.length = (words s).length ∧
      (∀ g ∈ gap :: gaps, ∀ c ∈ g, isSeparator c = true) ∧
      s = gap ++ (List.zipWith (· ++ ·) (words s) gaps).flatten) ∧
    (words s).flatten.filter (fun c => !isSeparator c) = s.filter (fun c => !isSeparator c) ∧
    ∀ w ∈ words s, Wordlike w :=
  ⟨exists_gaps s, filter_flatten_words s, fun _ => wordlike_of_mem_words⟩

end DirectiveLowering.Naming
