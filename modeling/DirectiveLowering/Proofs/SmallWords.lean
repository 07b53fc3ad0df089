import DirectiveLowering.Proofs.FirstWord

/-!
# Words without capitals

A word without capitals that is followed by a hyphen, a low line or nothing is found again, whole. Which
pattern finds it depends on its letters: the first one if they are all small, the second one if they are
all of other scripts, else the third one, which takes a contraction with it as the first one does.

Results:
* `nextWord?_of_letters`, `nextWord?_of_number`, `nextWord?_of_ordinal`: the patterns by shape.
* `words_intercalate`: words without capitals that are joined are found again.
-/

namespace DirectiveLowering.Naming

open Text

variable {c : Char} {s u contraction rest : List Char}

/-! ## Before a joint -/

/-- Words are joined by the character. -/
def IsJoint (c : Char) : Prop :=
  c = '-' ∨ c = '_'

/-- The text is at its end or starts with a joint. -/
def AtJoint (s : List Char) : Prop :=
  ∀ c ∈ s.head?, IsJoint c

namespace AtJoint

variable (h : AtJoint rest)
include h

theorem not_leads {p : Char → Bool} (hp : p '-' = false ∧ p '_' = false) : leads p rest = false := by
  cases rest with
  | nil => rfl
  | cons c rest =>
    rcases h c rfl with rfl | rfl
    · exact hp.1
    · exact hp.2

theorem atBreak : atBreak rest = true := by
  cases rest with
  | nil => rfl
  | cons c rest => rcases h c rfl with rfl | rfl <;> rfl

theorem atNextWord : atNextWord rest = true := by
  cases rest with
  | nil => rfl
  | cons c rest => rcases h c rfl with rfl | rfl <;> rfl

theorem atBoundaryOr : atBoundaryOr isAsciiCapitalOrLine rest = true := by
  cases rest with
  | nil => rfl
  | cons c rest =>
    rw [Naming.atBoundaryOr]
    rcases h c rfl with rfl | rfl <;> decide

theorem not_isPrefixOf_ordinal (last : Char) :
    (capitalOrdinal last).isPrefixOf rest = false ∧ (smallOrdinal last).isPrefixOf rest = false := by
  unfold capitalOrdinal smallOrdinal
  cases rest with
  | nil =>
    repeat' split
    all_goals exact ⟨rfl, rfl⟩
  | cons c rest =>
    rcases h c rfl with rfl | rfl
    all_goals
      repeat' split
      all_goals exact ⟨rfl, rfl⟩

end AtJoint

/-! ## Letters -/

theorem cutContraction_append_of {a : Char} {ending : List Char} (ha : isApostrophe a = true)
    (hending : ending ∈ smallContractions) :
    cutContraction smallContractions (a :: ending ++ rest) = (a :: ending, rest) := by
  have hfind : smallContractions.find? (·.isPrefixOf (ending ++ rest)) = some ending := by
    simp only [smallContractions, List.mem_cons, List.not_mem_nil, or_false] at hending
    rcases hending with rfl | rfl | rfl | rfl | rfl | rfl | rfl <;> rfl
  rw [List.cons_append, cutContraction, if_pos ha, hfind]
  simp

/-- Small letters up to a letter of another script do not make the first pattern. -/
theorem closedWord?_of_other (hu : ∀ c ∈ u, isSmall c = true) (hc : isOther c = true) :
    closedWord? (u ++ c :: rest) = none := by
  obtain ⟨hseparator, -, hnoCapital, hnoSmall⟩ := isOther_iff.1 hc
  have hcapital : leads isCapital (u ++ c :: rest) = false := by
    cases u with
    | nil => exact hnoCapital
    | cons d u => exact (latin_of_isSmall (hu d List.mem_cons_self)).2.1
  have hapostrophe : leads isApostrophe (c :: rest) = false := by
    rw [leads_cons, Bool.eq_false_iff]
    intro h
    rw [isSeparator_of_isApostrophe h] at hseparator
    cases hseparator
  have hbreak : atBreak (c :: rest) = false := by
    rw [atBreak, hseparator, hnoCapital]
    rfl
  rw [closedWord?_of_parts (cutCapital_eq_nil hcapital) hu hnoSmall
    (cutContraction_eq_nil _ hapostrophe), hbreak]
  cases u.isEmpty <;> rfl

/-- A small letter stops the second pattern. -/
theorem capitalRun?_of_small (hu : ∀ c ∈ u, (isSmall c || isOther c) = true)
    (hsmall : ∃ c ∈ u, isSmall c = true) : capitalRun? (u ++ rest) = none := by
  induction u with
  | nil => simp at hsmall
  | cons c u ih =>
    obtain ⟨-, hcapital⟩ := isSmall_or_isOther_iff.1 (hu c List.mem_cons_self)
    cases hother : isOther c with
    | false =>
      refine capitalRun?_eq_none ?_
      rw [List.cons_append, leads_cons, hcapital, hother]
      rfl
    | true =>
      have hu' : ∀ d ∈ u, (isSmall d || isOther d) = true := fun d hd => hu d (List.mem_cons_of_mem c hd)
      have hsmall' : ∃ d ∈ u, isSmall d = true := by
        obtain ⟨d, hd, hsmall⟩ := hsmall
        rcases List.mem_cons.1 hd with rfl | hd
        · rw [(isOther_iff.1 hother).2.2.2] at hsmall
          cases hsmall
        · exact ⟨d, hd, hsmall⟩
      have hnext : atNextWord (u ++ rest) = false := by
        cases u with
        | nil => simp at hsmall'
        | cons d u =>
          obtain ⟨hletter, hcapital'⟩ := isSmall_or_isOther_iff.1 (hu' d List.mem_cons_self)
          rw [List.cons_append, atNextWord, (isLetter_iff.1 hletter).1, hcapital']
          rfl
      rw [List.cons_append, capitalRun?, ih hu' hsmall', hother, hnext, Bool.or_true]
      rfl

/-- Letters without capitals, with a contraction if there is a small one among them, are found up to a
joint. -/
theorem nextWord?_of_letters (hne : u ≠ []) (hu : ∀ c ∈ u, (isSmall c || isOther c) = true)
    (hlead : leads isLetter (contraction ++ rest) = false)
    (hcontraction : cutContraction smallContractions (contraction ++ rest) = (contraction, rest))
    (hsmall : contraction = [] ∨ ∃ c ∈ u, isSmall c = true) (hrest : AtJoint rest) :
    nextWord? (u ++ (contraction ++ rest)) = some (u ++ contraction, rest) := by
  have hempty : u.isEmpty = false := by simpa using hne
  have hcapital : cutCapital (u ++ (contraction ++ rest)) = ([], u ++ (contraction ++ rest)) := by
    cases u with
    | nil => exact absurd rfl hne
    | cons c u =>
      exact cutCapital_eq_nil (isSmall_or_isOther_iff.1 (hu c List.mem_cons_self)).2
  have hopen := openWord?_of_parts hcapital hu
    (leads_eq_false hlead fun c hc => (isSmall_or_isOther_iff.1 hc).1) hcontraction
  rw [hempty, if_neg Bool.false_ne_true, List.nil_append] at hopen
  obtain ⟨smalls, v, rfl, hsmalls, hv, -⟩ := exists_split isSmall u
  cases v with
  | nil =>
    -- all letters are small
    rw [List.append_nil] at hempty hcapital ⊢
    have hclosed := closedWord?_of_parts hcapital hsmalls
      (leads_eq_false hlead fun c hc => (latin_of_isSmall hc).1) hcontraction
    rw [hempty, hrest.atBreak, if_neg Bool.false_ne_true, if_pos rfl, List.nil_append] at hclosed
    rw [nextWord?, hclosed]
    rfl
  | cons c v =>
    have hother : isOther c = true := by
      rw [leads_cons] at hv
      simpa [hv] using hu c (by simp)
    have hclosed : closedWord? (smalls ++ c :: v ++ (contraction ++ rest)) = none := by
      rw [List.append_assoc, List.cons_append]
      exact closedWord?_of_other hsmalls hother
    by_cases hmixed : ∃ d ∈ smalls ++ c :: v, isSmall d = true
    · rw [nextWord?, hclosed, capitalRun?_of_small hu hmixed, hopen]
      rfl
    · -- all letters are of other scripts
      obtain rfl := hsmall.resolve_right hmixed
      have hothers : ∀ d ∈ smalls ++ c :: v, isOther d = true := by
        intro d hd
        have hnoSmall : isSmall d = false := Bool.eq_false_iff.2 fun h => hmixed ⟨d, hd, h⟩
        simpa [hnoSmall] using hu d hd
      rw [List.nil_append] at hclosed ⊢
      rw [List.append_nil, nextWord?, hclosed, capitalRun?_of_next hne
        (fun d hd => by rw [hothers d hd, Bool.or_true])
        (capitalRun?_eq_none (hrest.not_leads ⟨rfl, rfl⟩)) hrest.atNextWord]
      rfl

/-! ## Numbers -/

section Numbers

variable {digits : List Char} {last : Char} (hdigits : ∀ c ∈ digits, isDecimalDigit c = true)
  (hlast : digits.getLast? = some last)
include hdigits hlast

/-- A number is found up to a joint. -/
theorem nextWord?_of_number (hrest : AtJoint rest) :
    nextWord? (digits ++ rest) = some (digits, rest) := by
  have hlead : leads isDecimalDigit rest = false := hrest.not_leads (by decide)
  obtain ⟨hcapitals, hsmall⟩ := hrest.not_isPrefixOf_ordinal last
  rw [nextWord?_of_digits hdigits hlast hlead, ordinal?_of_parts _ _ hdigits hlast hlead,
    ordinal?_of_parts _ _ hdigits hlast hlead, hcapitals, hsmall]
  rfl

/-- A number with the small letters of its ordinal is found up to a joint. -/
theorem nextWord?_of_ordinal (hrest : AtJoint rest) :
    nextWord? (digits ++ (smallOrdinal last ++ rest)) = some (digits ++ smallOrdinal last, rest) := by
  have hlead : leads isDecimalDigit (smallOrdinal last ++ rest) = false := by
    unfold smallOrdinal
    repeat' split
    all_goals rfl
  have hcapitals : (capitalOrdinal last).isPrefixOf (smallOrdinal last ++ rest) = false := by
    unfold capitalOrdinal smallOrdinal
    repeat' split
    all_goals rfl
  have hsmall : (smallOrdinal last).isPrefixOf (smallOrdinal last ++ rest) = true :=
    List.isPrefixOf_iff_prefix.2 (List.prefix_append _ _)
  rw [nextWord?_of_digits hdigits hlast hlead, ordinal?_of_parts _ _ hdigits hlast hlead,
    ordinal?_of_parts _ _ hdigits hlast hlead, hcapitals, hsmall, List.drop_left,
    hrest.atBoundaryOr]
  rfl

end Numbers

/-! ## Words -/

theorem exists_isCapital_capitalOrdinal (last : Char) :
    ∃ c ∈ capitalOrdinal last, isCapital c = true := by
  unfold capitalOrdinal
  repeat' split
  all_goals exact ⟨_, List.mem_cons_self, rfl⟩

/-- **A word without capitals is found again before a joint**, whole. -/
theorem Shape.nextWord? {w : List Char} (h : Shape w) (hcapital : ∀ c ∈ w, isCapital c = false)
    (hrest : AtJoint rest) : nextWord? (w ++ rest) = some (w, rest) := by
  cases h with
  | letters hne hw =>
    have hfound : Naming.nextWord? (w ++ ([] ++ rest)) = some (w ++ [], rest) :=
      nextWord?_of_letters hne
        (fun c hc => isSmall_or_isOther_iff.2 ⟨hw c hc, hcapital c hc⟩) (hrest.not_leads (by decide))
        (cutContraction_eq_nil _ (hrest.not_leads (by decide))) (Or.inl rfl) hrest
    rwa [List.nil_append, List.append_nil] at hfound
  | @contracted u ending a hu hsmall ha hending =>
    have hne : u ≠ [] := by
      obtain ⟨c, hc, -⟩ := hsmall
      exact List.ne_nil_of_mem hc
    rw [List.append_assoc]
    exact nextWord?_of_letters hne
      (fun c hc => isSmall_or_isOther_iff.2 ⟨hu c hc, hcapital c (List.mem_append_left _ hc)⟩)
      (isLetter_of_isApostrophe ha) (cutContraction_append_of ha hending) (Or.inr hsmall) hrest
  | number hne hdigits =>
    obtain ⟨last, hlast⟩ : ∃ last, w.getLast? = some last :=
      Option.isSome_iff_exists.1 (by simpa using hne)
    exact nextWord?_of_number hdigits hlast hrest
  | @ordinal digits letters last hdigits hlast hletters =>
    rw [List.append_assoc]
    rcases hletters with rfl | rfl
    · exact nextWord?_of_ordinal hdigits hlast hrest
    · obtain ⟨c, hc, hc'⟩ := exists_isCapital_capitalOrdinal last
      rw [hcapital c (List.mem_append_right digits hc)] at hc'
      cases hc'

/-- Words without capitals that are joined are found again. -/
theorem words_intercalate {joint : Char} (hj : IsJoint joint) {ws : List (List Char)}
    (hshape : ∀ w ∈ ws, Shape w) (hcapital : ∀ w ∈ ws, ∀ c ∈ w, isCapital c = false) :
    words ([joint].intercalate ws) = ws := by
  induction ws with
  | nil => rfl
  | cons w ws ih =>
    have hnext : ∀ {rest : List Char}, AtJoint rest → words (w ++ rest) = w :: words rest :=
      fun hrest => words_of_some ((hshape w List.mem_cons_self).nextWord?
        (hcapital w List.mem_cons_self) hrest)
    have hothers := ih (fun v hv => hshape v (List.mem_cons_of_mem w hv))
      fun v hv => hcapital v (List.mem_cons_of_mem w hv)
    cases ws with
    | nil =>
      have hlast : words (w ++ []) = w :: words [] := hnext fun c hc => nomatch hc
      rw [List.append_nil, words_nil] at hlast
      rw [List.intercalate_singleton, hlast]
    | cons next ws =>
      have hskip : isSeparator joint = true := by
        rcases hj with rfl | rfl <;> decide
      rw [List.intercalate_cons_cons, List.append_assoc, List.singleton_append, hnext, words_of_none
        (nextWord?_of_separator hskip _), hothers]
      rintro c ⟨⟩
      exact hj

end DirectiveLowering.Naming
