import DirectiveLowering.Proofs.WordShape

/-!
# Patterns by their parts

What the patterns of a word answer, given how their parts cut the text: a capital, the longest run of
letters or digits, a contraction, the letters of an ordinal.

Results:
* `closedWord?_of_parts`, `openWord?_of_parts`, `capitals?_of_parts`, `ordinal?_of_parts`: the patterns
  that cut the text once from the left.
* `capitalRun?_eq_none`, `capitalRun?_of_next`, `capitalRun?_of_stuck`: where the second pattern does not
  start, how far it reaches, and where it reaches nothing.
-/

namespace DirectiveLowering.Naming

open Text

variable {s capital letters rest contraction after : List Char}

/-! ## Parts that are missing -/

theorem leads_eq_false {p q : Char → Bool} (h : leads q s = false) (hp : ∀ c, p c = true → q c = true) :
    leads p s = false := by
  cases s with
  | nil => rfl
  | cons c s =>
    rw [leads_cons] at h
    rw [leads_cons, Bool.eq_false_iff]
    intro hc
    rw [hp c hc] at h
    cases h

theorem cutCapital_eq_nil (h : leads isCapital s = false) : cutCapital s = ([], s) := by
  cases s with
  | nil => rfl
  | cons c s =>
    rw [leads_cons] at h
    rw [cutCapital, h]
    rfl

theorem cutContraction_eq_nil (endings : List (List Char)) (h : leads isApostrophe s = false) :
    cutContraction endings s = ([], s) := by
  cases s with
  | nil => rfl
  | cons c s =>
    rw [leads_cons] at h
    rw [cutContraction, h]
    rfl

/-! ## Patterns -/

theorem closedWord?_of_parts (hcapital : cutCapital s = (capital, letters ++ rest))
    (hletters : ∀ c ∈ letters, isSmall c = true) (hrest : leads isSmall rest = false)
    (hcontraction : cutContraction smallContractions rest = (contraction, after)) :
    closedWord? s =
      if letters.isEmpty then none
      else if atBreak after then some (capital ++ letters ++ contraction, after)
      else if atBreak rest then some (capital ++ letters, rest)
      else none := by
  rw [closedWord?, hcapital]
  dsimp only
  rw [cutWhile_append_of hletters hrest]
  dsimp only
  rw [hcontraction]

theorem capitalRun?_eq_none (h : leads (fun c => isCapital c || isOther c) s = false) :
    capitalRun? s = none := by
  cases s with
  | nil => rfl
  | cons c s =>
    rw [leads_cons] at h
    rw [capitalRun?, h]
    rfl

/-- Capitals and letters of other scripts make the second pattern where it cannot go on and a next word
may start. -/
theorem capitalRun?_of_next (hne : letters ≠ [])
    (hletters : ∀ c ∈ letters, (isCapital c || isOther c) = true) (hrest : capitalRun? rest = none)
    (hnext : atNextWord rest = true) : capitalRun? (letters ++ rest) = some (letters, rest) := by
  induction letters with
  | nil => exact absurd rfl hne
  | cons c letters ih =>
    rw [List.cons_append, capitalRun?, if_pos (hletters c List.mem_cons_self)]
    by_cases hletters' : letters = []
    · rw [hletters', List.nil_append, hrest]
      dsimp only
      rw [if_pos hnext]
    · rw [ih hletters' fun d hd => hletters d (List.mem_cons_of_mem c hd)]

/-- Capitals do not make it before what neither makes it nor starts a next word. -/
theorem capitalRun?_of_stuck (hletters : ∀ c ∈ letters, isCapital c = true)
    (hrun : capitalRun? rest = none) (hnext : atNextWord rest = false)
    (hrest : leads (fun c => isSmall c || isOther c) rest = false) :
    capitalRun? (letters ++ rest) = none ∧ atNextWord (letters ++ rest) = false ∧
      leads (fun c => isSmall c || isOther c) (letters ++ rest) = false := by
  induction letters with
  | nil => exact ⟨hrun, hnext, hrest⟩
  | cons c letters ih =>
    have hc := hletters c List.mem_cons_self
    have hseparator := (isLetter_iff.1 (latin_of_isCapital hc).1).1
    have hno : (isSmall c || isOther c) = false := by
      rw [Bool.eq_false_iff]
      intro h
      rw [(isSmall_or_isOther_iff.1 h).2] at hc
      cases hc
    obtain ⟨hrun', hnext', hrest'⟩ := ih fun d hd => hletters d (List.mem_cons_of_mem c hd)
    refine ⟨?_, ?_, hno⟩
    · rw [List.cons_append, capitalRun?, hc, hrun', hnext']
      rfl
    · rw [leads] at hrest'
      rw [List.cons_append, atNextWord, hseparator, hrest', Bool.and_false]
      rfl

theorem openWord?_of_parts (hcapital : cutCapital s = (capital, letters ++ rest))
    (hletters : ∀ c ∈ letters, (isSmall c || isOther c) = true)
    (hrest : leads (fun c => isSmall c || isOther c) rest = false)
    (hcontraction : cutContraction smallContractions rest = (contraction, after)) :
    openWord? s =
      if letters.isEmpty then none else some (capital ++ letters ++ contraction, after) := by
  rw [openWord?, hcapital]
  dsimp only
  rw [cutWhile_append_of hletters hrest]
  dsimp only
  rw [hcontraction]

theorem capitals?_of_parts (hletters : ∀ c ∈ letters, isCapital c = true)
    (hrest : leads isCapital rest = false)
    (hcontraction : cutContraction capitalContractions rest = (contraction, after)) :
    capitals? (letters ++ rest) =
      if letters.isEmpty then none else some (letters ++ contraction, after) := by
  rw [capitals?, cutWhile_append_of hletters hrest]
  dsimp only
  rw [hcontraction]

theorem ordinal?_of_parts {digits : List Char} {last : Char} (ordinal : Char → List Char)
    (allowed : Char → Bool) (hdigits : ∀ c ∈ digits, isDecimalDigit c = true)
    (hlast : digits.getLast? = some last) (hrest : leads isDecimalDigit rest = false) :
    ordinal? ordinal allowed (digits ++ rest) =
      if (ordinal last).isPrefixOf rest && atBoundaryOr allowed (rest.drop (ordinal last).length) then
        some (digits ++ ordinal last, rest.drop (ordinal last).length)
      else none := by
  rw [ordinal?, cutWhile_append_of hdigits hrest]
  dsimp only
  rw [hlast]

end DirectiveLowering.Naming
