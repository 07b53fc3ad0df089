import DirectiveLowering.Proofs.PlainPatterns

/-!
# Words of plain texts

The patterns give the words that the rule gives. Either splitter finds the same words at the start of a
text: first of letters, then of a run of letters and digits, then of the whole text, where whatever is
neither is skipped.

Results:
* `words_letters`, `words_run`: the words at the start of a text.
* `words_eq_plainWords`: the patterns give the words that the rule gives.
-/

namespace DirectiveLowering.Naming

open Text

/-! ## Letters at the start of a text -/

/-- The first word of letters is the one that the rule cuts off. -/
theorem exists_firstWord {letters u : List Char} (h : Plain (letters ++ u)) (hne : letters ≠ [])
    (hletters : ∀ c ∈ letters, c.isAlpha = true) (hu : leads Char.isAlpha u = false) :
    ∃ word q, word ≠ [] ∧ letters = word ++ q ∧ nextWord? (letters ++ u) = some (word, q ++ u) ∧
      letterWords letters = word :: letterWords q := by
  obtain ⟨hupper, hlower⟩ : leads Char.isUpper u = false ∧ leads Char.isLower u = false := by
    cases u with
    | nil => exact ⟨rfl, rfl⟩
    | cons d u => exact Bool.or_eq_false_iff.1 hu
  -- capitals, then small letters, then nothing or another capital
  obtain ⟨caps, q, rfl, hcaps, hq, -⟩ := exists_split Char.isUpper letters
  obtain ⟨lows, q', rfl, hlows, hq', -⟩ := exists_split Char.isLower q
  have hrest : q' = [] ∨ leads Char.isUpper q' = true := by
    cases q' with
    | nil => exact Or.inl rfl
    | cons d q' =>
      have hd := hletters d (by simp)
      rw [isAlpha_eq, Bool.or_eq_true] at hd
      exact Or.inr (hd.resolve_right (by simpa using hq'))
  have hstop : leads Char.isLower (q' ++ u) = false := by
    cases q' with
    | nil => exact hlower
    | cons d q' => exact hq'
  by_cases hnoLows : lows = []
  · subst hnoLows
    obtain rfl : q' = [] := hrest.resolve_right (by rw [← List.nil_append q', hq]; simp)
    rw [List.nil_append, List.append_nil] at h hne ⊢
    exact ⟨caps, [], hne, (List.append_nil caps).symm, nextWord?_capitals h hne hcaps hupper hlower,
      letterWords_capitals hne hcaps⟩
  rcases List.eq_nil_or_concat caps with rfl | ⟨caps, d, hconcat⟩
  · rw [List.nil_append, List.append_assoc] at h
    rw [List.nil_append, List.append_assoc]
    exact ⟨lows, q', hnoLows, rfl, nextWord?_small h hnoLows hlows hstop,
      letterWords_small hnoLows hlows hrest⟩
  obtain rfl : _ = caps ++ [d] := hconcat.trans List.concat_eq_append
  have hd := hcaps d (by simp)
  by_cases hnoCaps : caps = []
  · subst hnoCaps
    rw [List.nil_append, List.singleton_append, List.cons_append, List.append_assoc] at h ⊢
    exact ⟨d :: lows, q', List.cons_ne_nil d lows, rfl,
      nextWord?_capitalised h hd hnoLows hlows hstop, letterWords_capitalised hnoLows hlows hrest⟩
  · have hcaps' : ∀ c ∈ caps, c.isUpper = true := fun c hc => hcaps c (by simp [hc])
    have hnext : leads Char.isLower (lows ++ q') = true := by
      cases lows with
      | nil => exact absurd rfl hnoLows
      | cons e lows => exact hlows e List.mem_cons_self
    have hnext' : leads Char.isLower (lows ++ q' ++ u) = true := by
      rw [leads_append_of_ne_nil (by simp [hnoLows])]
      exact hnext
    have hletters' : caps ++ [d] ++ (lows ++ q') = caps ++ d :: (lows ++ q') := by simp
    have hall : caps ++ [d] ++ (lows ++ q') ++ u = caps ++ d :: (lows ++ q' ++ u) := by simp
    rw [hall] at h ⊢
    rw [hletters']
    exact ⟨caps, d :: (lows ++ q'), hnoCaps, rfl,
      nextWord?_butLast h hnoCaps hcaps' hd hnext', letterWords_butLast hnoCaps hcaps' hd hnext⟩

/-- Letters that are followed by no letter are split on their own. -/
theorem words_letters {letters u : List Char} (h : Plain (letters ++ u))
    (hletters : ∀ c ∈ letters, c.isAlpha = true) (hu : leads Char.isAlpha u = false) :
    words (letters ++ u) = letterWords letters ++ words u := by
  induction hsize : letters.length using Nat.strongRecOn generalizing letters with
  | ind size ih =>
    by_cases hne : letters = []
    · subst hne
      rfl
    · obtain ⟨word, q, hword, rfl, hnext, hcut⟩ := exists_firstWord h hne hletters hu
      have hlength := List.length_pos_iff.2 hword
      rw [List.length_append] at hsize
      rw [List.append_assoc] at h
      have hrest := ih q.length (by omega) h.right
        (fun c hc => hletters c (List.mem_append_right word hc)) rfl
      rw [words_of_some hnext, hcut, hrest]
      rfl

/-! ## Runs at the start of a text -/

section Runs

variable {run rest u : List Char}

/-- Some words are found at the start of a run by either splitter, and the same rest is left. -/
def Front (run u : List Char) : Prop :=
  ∃ found rest, rest.length < run.length ∧ (∀ c ∈ rest, c ∈ run) ∧
    words (run ++ u) = found ++ words (rest ++ u) ∧ runWords run = found ++ runWords rest

/-- Letters at the start of a run, up to the next digit. -/
theorem front_letters (h : Plain (run ++ u)) (hne : run ≠ [])
    (hrun : ∀ c ∈ run, c.isAlphanum = true) (hletter : leads Char.isDigit run = false)
    (hu : leads Char.isAlphanum u = false) : Front run u := by
  obtain ⟨letters, rest, rfl, hletters, hstop, hnonempty⟩ :=
    exists_split (fun c => !c.isDigit) run
  have hlettersNe : letters ≠ [] := by
    refine hnonempty ?_
    cases hs : letters ++ rest with
    | nil => exact absurd hs hne
    | cons c s =>
      rw [hs, leads_cons] at hletter
      rw [leads_cons, hletter]
      rfl
  have hnotDigit : ∀ c ∈ letters, c.isDigit = false := fun c hc => by simpa using hletters c hc
  have halpha : ∀ c ∈ letters, c.isAlpha = true := by
    intro c hc
    have hc' := hrun c (List.mem_append_left rest hc)
    rwa [isAlphanum_eq, hnotDigit c hc, Bool.or_false, ← isAlpha_eq] at hc'
  have hnext : leads Char.isAlpha (rest ++ u) = false := by
    cases rest with
    | nil =>
      cases u with
      | nil => rfl
      | cons d u =>
        obtain ⟨hupper, hlower, -⟩ := classes_of_not_isAlphanum hu
        rw [List.nil_append, leads_cons, isAlpha_eq, hupper, hlower]
        rfl
    | cons d rest =>
      have hd : d.isDigit = true := by simpa using hstop
      rw [List.cons_append, leads_cons, isAlpha_eq, not_isUpper_of_isDigit hd,
        not_isLower_of_isDigit hd]
      rfl
  refine ⟨letterWords letters, rest, ?_, fun c hc => List.mem_append_right letters hc, ?_,
    runWords_letters hlettersNe hnotDigit hstop⟩
  · have hpos := List.length_pos_iff.2 hlettersNe
    rw [List.length_append]
    omega
  · rw [List.append_assoc] at h ⊢
    exact words_letters h halpha hnext

/-- A number at the start of a run, with or without the letters of an ordinal. -/
theorem front_number (h : Plain (run ++ u)) (hdigit : leads Char.isDigit run = true)
    (hu : leads Char.isAlphanum u = false) : Front run u := by
  obtain ⟨digits, rest, rfl, hdigits, hrest, hnonempty⟩ := exists_split Char.isDigit run
  have hne := hnonempty hdigit
  have hpos := List.length_pos_iff.2 hne
  obtain ⟨last, hlast⟩ : ∃ last, digits.getLast? = some last :=
    Option.isSome_iff_exists.1 (by simpa using hne)
  have hstop : leads Char.isDigit (rest ++ u) = false := by
    cases rest with
    | nil =>
      cases u with
      | nil => rfl
      | cons d u => exact (classes_of_not_isAlphanum hu).2.2
    | cons d rest => exact hrest
  rw [List.append_assoc] at h
  have hnext := nextWord?_number h hdigits hstop hlast
  have hwords := runWords_number hdigits hrest hlast
  rw [takesLetters_append last hu] at hnext
  rw [Front, List.length_append, List.append_assoc]
  by_cases htakes : takesLetters last rest = true
  · have htwo := two_le_length_of_takesLetters htakes
    rw [if_pos htakes, List.take_append_of_le_length htwo,
      List.drop_append_of_le_length htwo] at hnext
    rw [if_pos htakes] at hwords
    refine ⟨[digits ++ rest.take 2], rest.drop 2, ?_, fun c hc => ?_, words_of_some hnext, hwords⟩
    · rw [List.length_drop]
      omega
    · exact List.mem_append_right digits (List.mem_of_mem_drop hc)
  · rw [if_neg htakes] at hnext hwords
    exact ⟨[digits], rest, by omega, fun c hc => List.mem_append_right digits hc,
      words_of_some hnext, hwords⟩

/-- A run of letters and digits is split on its own. -/
theorem words_run (h : Plain (run ++ u)) (hrun : ∀ c ∈ run, c.isAlphanum = true)
    (hu : leads Char.isAlphanum u = false) : words (run ++ u) = runWords run ++ words u := by
  induction hsize : run.length using Nat.strongRecOn generalizing run with
  | ind size ih =>
    by_cases hne : run = []
    · subst hne
      rw [runWords]
      rfl
    have hfront : Front run u := by
      by_cases hdigit : leads Char.isDigit run = true
      · exact front_number h hdigit hu
      · exact front_letters h hne hrun (by simpa using hdigit) hu
    obtain ⟨found, rest, hlength, hmem, hwords, hrunWords⟩ := hfront
    have hplain : Plain (rest ++ u) := by
      intro c hc
      rcases List.mem_append.1 hc with hc | hc
      · exact h.left c (hmem c hc)
      · exact h.right c hc
    rw [hwords, hrunWords, ih rest.length (by omega) hplain (fun c hc => hrun c (hmem c hc)) rfl,
      List.append_assoc]

end Runs

/-! ## Whole texts -/

/-- **Words of plain texts**: for ASCII texts without apostrophes the patterns give the words that the
rule gives. -/
theorem words_eq_plainWords (s : List Char) (h : ∀ c ∈ s, c.toNat < 128 ∧ c ≠ '\x27') :
    words s = plainWords s := by
  have hplain : Plain s := h
  clear h
  induction hsize : s.length using Nat.strongRecOn generalizing s with
  | ind size ih =>
    obtain ⟨run, u, rfl, hrun, hu, -⟩ := exists_split Char.isAlphanum s
    rw [words_run hplain hrun hu, plainWords_run hrun hu]
    cases u with
    | nil => rfl
    | cons c u =>
      have hskip := plainWords_append_cons [] u hu
      rw [List.length_append, List.length_cons] at hsize
      rw [words_of_none (nextWord?_separator hplain.right hu),
        ih u.length (by omega) u hplain.right.tail rfl]
      rw [List.nil_append] at hskip
      rw [hskip]
      rfl

/-- The rule on a name with capitals inside, an ordinal and a number that is none. -/
theorem plainWords_buttonXMLHttp :
    plainWords "buttonXMLHttp_2nd-11TH".toList =
      ["button".toList, "XML".toList, "Http".toList, "2nd".toList, "11".toList, "TH".toList] := by
  rw [← words_eq_plainWords "buttonXMLHttp_2nd-11TH".toList (by simp)]
  decide

end DirectiveLowering.Naming
