import DirectiveLowering.Proofs.PatternParts

/-!
# The first word of a text

Which pattern fits at the start of a text, by the class of the first character: none at a separator, those
of ordinals and numbers at a digit. The longest run of small letters, and the longest run of capitals that no
letter follows, are found by different patterns depending on what comes next, but always as a whole.
Between the two there is no symmetry in contractions: an apostrophe starts a next word for the second
pattern, so that capitals never come to take a contraction with them.

Results:
* `nextWord?_of_separator`, `nextWord?_of_digits`: where no pattern of letters fits.
* `nextWord?_smallRun`, `nextWord?_capitalisedRun`: small letters take a contraction that ends at a break.
* `nextWord?_capitalRun`: capitals take none.
-/

namespace DirectiveLowering.Naming

open Text

variable {c : Char} {s capital lows caps rest contraction after : List Char}

/-! ## Where no letter starts -/

/-- No pattern of letters fits where no letter starts. -/
theorem letterPatterns_of_not_leads (h : leads isLetter s = false) :
    closedWord? s = none ∧ capitalRun? s = none ∧ openWord? s = none ∧ capitals? s = none := by
  have hcapital : leads isCapital s = false :=
    leads_eq_false h fun c hc => (latin_of_isCapital hc).1
  have hcut : cutCapital s = ([], [] ++ s) := cutCapital_eq_nil hcapital
  have hnone : ∀ {p : Char → Bool}, ∀ c ∈ ([] : List Char), p c = true := by simp
  refine ⟨?_, capitalRun?_eq_none (leads_eq_false h fun c hc => ?_), ?_, ?_⟩
  · exact closedWord?_of_parts hcut hnone
      (leads_eq_false h fun c hc => (latin_of_isSmall hc).1) rfl
  · rcases Bool.or_eq_true_iff.1 hc with hc | hc
    · exact (latin_of_isCapital hc).1
    · exact isLetter_of_isOther hc
  · exact openWord?_of_parts hcut hnone
      (leads_eq_false h fun c hc => (isSmall_or_isOther_iff.1 hc).1) rfl
  · have hcapitals : capitals? ([] ++ s) = none := capitals?_of_parts hnone hcapital rfl
    exact hcapitals

theorem isSeparator_of_isDecimalDigit (h : isDecimalDigit c = true) : isSeparator c = false := by
  have hapart : digitRanges.all (apart · separatorRanges) = true := by decide +kernel
  obtain ⟨r, hr, hlow, hhigh⟩ := exists_of_covers h
  exact not_covers_of_apart (List.all_eq_true.1 hapart r hr) hlow hhigh

/-- No pattern fits at a separator. -/
theorem nextWord?_of_separator (hc : isSeparator c = true) (rest : List Char) :
    nextWord? (c :: rest) = none := by
  have hdigit : isDecimalDigit c = false := by
    rw [Bool.eq_false_iff]
    intro hdigit
    rw [isSeparator_of_isDecimalDigit hdigit] at hc
    cases hc
  have hletter : leads isLetter (c :: rest) = false := by
    rw [leads_cons, isLetter, hc]
    rfl
  obtain ⟨hclosed, hrun, hopen, hcapitals⟩ := letterPatterns_of_not_leads hletter
  have hdigits : cutWhile isDecimalDigit (c :: rest) = ([], c :: rest) := cutWhile_of_not_leads hdigit
  rw [nextWord?, hclosed, hrun, hopen, hcapitals, ordinal?, ordinal?, number?, hdigits]
  rfl

/-- At a digit only the patterns of ordinals and numbers fit. -/
theorem nextWord?_of_digits {digits : List Char} {last : Char}
    (hdigits : ∀ c ∈ digits, isDecimalDigit c = true) (hlast : digits.getLast? = some last)
    (hrest : leads isDecimalDigit rest = false) :
    nextWord? (digits ++ rest) = (ordinal? capitalOrdinal isAsciiSmallOrLine (digits ++ rest) <|>
      ordinal? smallOrdinal isAsciiCapitalOrLine (digits ++ rest) <|> some (digits, rest)) := by
  have hlead : leads isLetter (digits ++ rest) = false := by
    cases digits with
    | nil => cases hlast
    | cons c digits => exact isLetter_of_isDecimalDigit (hdigits c List.mem_cons_self)
  have hnumber : number? (digits ++ rest) = some (digits, rest) := by
    rw [number?, cutWhile_append_of hdigits hrest]
    cases digits with
    | nil => cases hlast
    | cons c digits => rfl
  obtain ⟨hclosed, hrun, hopen, hcapitals⟩ := letterPatterns_of_not_leads hlead
  rw [nextWord?, hclosed, hrun, hopen, hcapitals, hnumber]
  rfl

/-! ## Runs of letters in one case -/

/-- Where there is no break there is no contraction. -/
theorem leads_isApostrophe_of_not_atBreak (h : atBreak rest = false) :
    leads isApostrophe rest = false := by
  cases rest with
  | nil => rfl
  | cons c rest =>
    rw [atBreak, Bool.or_eq_false_iff] at h
    rw [leads_cons, Bool.eq_false_iff]
    intro hc
    rw [isSeparator_of_isApostrophe hc] at h
    cases h.1

/-- Small letters, perhaps after a capital, are found as a whole, together with a contraction if a break
follows it. -/
theorem nextWord?_of_smalls (hcut : cutCapital s = (capital, lows ++ rest)) (hne : lows ≠ [])
    (hlows : ∀ c ∈ lows, isSmall c = true)
    (hrest : leads (fun c => isSmall c || isOther c) rest = false)
    (hcontraction : cutContraction smallContractions rest = (contraction, after))
    (hrun : capitalRun? s = none) :
    nextWord? s =
      if atBreak after then some (capital ++ lows ++ contraction, after)
      else some (capital ++ lows, rest) := by
  have hempty : lows.isEmpty = false := by simpa using hne
  have hclosed := closedWord?_of_parts hcut hlows
    (leads_eq_false hrest fun c hc => by rw [hc, Bool.true_or]) hcontraction
  have hopen := openWord?_of_parts hcut (fun c hc => by rw [hlows c hc, Bool.true_or]) hrest hcontraction
  rw [hempty, if_neg Bool.false_ne_true] at hclosed hopen
  rw [nextWord?, hclosed, hrun, hopen]
  by_cases hafter : atBreak after = true
  · rw [if_pos hafter, if_pos hafter]
    rfl
  rw [if_neg hafter, if_neg hafter]
  by_cases hbreak : atBreak rest = true
  · rw [if_pos hbreak]
    rfl
  · rw [cutContraction_eq_nil _ (leads_isApostrophe_of_not_atBreak (by simpa using hbreak))]
      at hcontraction
    obtain ⟨rfl, rfl⟩ := Prod.mk.inj hcontraction
    rw [if_neg hbreak, List.append_nil]
    rfl

theorem nextWord?_smallRun (hne : lows ≠ []) (hlows : ∀ c ∈ lows, isSmall c = true)
    (hrest : leads (fun c => isSmall c || isOther c) rest = false)
    (hcontraction : cutContraction smallContractions rest = (contraction, after)) :
    nextWord? (lows ++ rest) =
      if atBreak after then some (lows ++ contraction, after) else some (lows, rest) := by
  obtain ⟨hcapital, hrun⟩ : leads isCapital (lows ++ rest) = false ∧
      leads (fun c => isCapital c || isOther c) (lows ++ rest) = false := by
    cases lows with
    | nil => exact absurd rfl hne
    | cons c lows =>
      have hsmall := hlows c List.mem_cons_self
      have hno := (latin_of_isSmall hsmall).2.1
      exact ⟨hno, by simp [hno, isOther, hsmall]⟩
  exact nextWord?_of_smalls (cutCapital_eq_nil hcapital) hne hlows hrest hcontraction
    (capitalRun?_eq_none hrun)

/-- One capital before a small letter is no run of capitals. -/
theorem capitalRun?_of_capitalised (hc : isCapital c = true) (hrest : leads isSmall rest = true) :
    capitalRun? (c :: rest) = none := by
  cases rest with
  | nil => cases hrest
  | cons d rest =>
    have hd : isSmall d = true := hrest
    obtain ⟨hletter, hcapital, -⟩ := latin_of_isSmall hd
    have hrun : capitalRun? (d :: rest) = none := by
      refine capitalRun?_eq_none ?_
      simp [hcapital, isOther, hd]
    rw [capitalRun?, hc, hrun, atNextWord, (isLetter_iff.1 hletter).1, hcapital]
    rfl

theorem nextWord?_capitalisedRun (hc : isCapital c = true) (hne : lows ≠ [])
    (hlows : ∀ c ∈ lows, isSmall c = true)
    (hrest : leads (fun c => isSmall c || isOther c) rest = false)
    (hcontraction : cutContraction smallContractions rest = (contraction, after)) :
    nextWord? (c :: (lows ++ rest)) =
      if atBreak after then some (c :: lows ++ contraction, after) else some (c :: lows, rest) := by
  have hcut : cutCapital (c :: (lows ++ rest)) = ([c], lows ++ rest) := by
    rw [cutCapital, if_pos hc]
  have hsmall : leads isSmall (lows ++ rest) = true := by
    cases lows with
    | nil => exact absurd rfl hne
    | cons d lows => exact hlows d List.mem_cons_self
  exact nextWord?_of_smalls hcut hne hlows hrest hcontraction (capitalRun?_of_capitalised hc hsmall)

/-- Capitals that no letter follows are no word of small letters. -/
theorem wordPatterns_of_capitals (hc : isCapital c = true)
    (hrest : leads (fun c => isSmall c || isOther c) rest = false) :
    closedWord? (c :: rest) = none ∧ openWord? (c :: rest) = none := by
  have hcut : cutCapital (c :: rest) = ([c], [] ++ rest) := by
    rw [cutCapital, if_pos hc]
    rfl
  have hnone : ∀ {p : Char → Bool}, ∀ c ∈ ([] : List Char), p c = true := by simp
  exact ⟨closedWord?_of_parts hcut hnone
      (leads_eq_false hrest fun d hd => by rw [hd, Bool.true_or]) rfl,
    openWord?_of_parts hcut hnone hrest rfl⟩

/-- **Capitals that no letter follows are found as a whole**, without a contraction. -/
theorem nextWord?_capitalRun (hne : caps ≠ []) (hcaps : ∀ c ∈ caps, isCapital c = true)
    (hrest : leads isLetter rest = false) : nextWord? (caps ++ rest) = some (caps, rest) := by
  have hletter : leads (fun c => isSmall c || isOther c) rest = false :=
    leads_eq_false hrest fun c hc => (isSmall_or_isOther_iff.1 hc).1
  have hrun : capitalRun? rest = none := (letterPatterns_of_not_leads hrest).2.1
  obtain ⟨d, caps, rfl⟩ := List.exists_cons_of_ne_nil hne
  have hd := hcaps d List.mem_cons_self
  have htail : leads (fun c => isSmall c || isOther c) (caps ++ rest) = false := by
    cases caps with
    | nil => exact hletter
    | cons e caps =>
      rw [List.cons_append, leads_cons, Bool.eq_false_iff]
      intro he
      have hcapital := hcaps e (by simp)
      rw [(isSmall_or_isOther_iff.1 he).2] at hcapital
      cases hcapital
  obtain ⟨hclosed, hopen⟩ := wordPatterns_of_capitals hd htail
  by_cases hnext : atNextWord rest = true
  · have hcapitalRun := capitalRun?_of_next hne (fun c hc => by rw [hcaps c hc, Bool.true_or]) hrun hnext
    rw [List.cons_append] at hcapitalRun ⊢
    rw [nextWord?, hclosed, hcapitalRun]
    rfl
  · -- a digit follows, and no apostrophe
    have happ : leads isApostrophe rest = false := by
      cases rest with
      | nil => rfl
      | cons e rest =>
        rw [leads_cons, Bool.eq_false_iff]
        exact fun he => hnext (atNextWord_of_isApostrophe he rest)
    have hcapital : leads isCapital rest = false :=
      leads_eq_false hrest fun c hc => (latin_of_isCapital hc).1
    have hcapitals := capitals?_of_parts hcaps hcapital (cutContraction_eq_nil capitalContractions happ)
    have hstuck := (capitalRun?_of_stuck hcaps hrun (by simpa using hnext) hletter).1
    rw [List.cons_append] at hcapitals hstuck ⊢
    rw [nextWord?, hclosed, hstuck, hopen, hcapitals, List.append_nil]
    rfl

end DirectiveLowering.Naming
