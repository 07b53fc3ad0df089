import Mathlib.Data.Option.Basic
import DirectiveLowering.Proofs.LowerCase
import DirectiveLowering.Proofs.WordRule

/-!
# Shapes of words

Whatever the seven patterns find in a text has one of four shapes: letters of any script, letters with a
contraction, a number, or a number with the letters of its ordinal. A contraction only ever follows
letters of which one is small: before an apostrophe the second pattern already fits capitals and letters of
other scripts, so the third and the fourth never come to see them.

Results:
* `latin_of_isCapital`, `latin_of_isSmall`, `isSmall_or_isOther_iff`: how the classes of letters lie.
* `isLetter_of_mem_lowerBetween`, `settled_of_isDecimalDigit`: letters are lower-cased to letters, and
  digits not at all.
* `shape_of_nextWord?`, `shape_of_mem_words`: words have shapes.
-/

namespace DirectiveLowering.Naming

open Text

/-! ## Letters of any script -/

/-- Whether the character is neither a separator nor a digit: a Latin letter, or one that counts as part
of a word. -/
def isLetter (c : Char) : Bool :=
  !(isSeparator c || isDecimalDigit c)

variable {c d : Char}

theorem isLetter_iff : isLetter c = true ↔ isSeparator c = false ∧ isDecimalDigit c = false := by
  simp [isLetter]

/-- Latin letters lie in the first 256 code points. -/
theorem lt_of_latin : ∀ r ∈ capitalRanges ++ smallRanges, r.2 < 256 := by
  decide

/-- The classes of Latin letters are apart from the others, and small letters alone are settled. -/
theorem latin_of_lt : ∀ n, n < 256 →
    (covers capitalRanges n = true → covers separatorRanges n = false ∧ covers digitRanges n = false ∧
      shifted lowerSpans n ≠ n) ∧
    (covers smallRanges n = true → covers separatorRanges n = false ∧ covers digitRanges n = false ∧
      covers capitalRanges n = false ∧ shifted lowerSpans n = n) := by
  decide +kernel

theorem latin_of_isCapital (h : isCapital c = true) : isLetter c = true ∧ ¬ Settled c := by
  obtain ⟨r, hr, -, hhigh⟩ := exists_of_covers h
  have hlt := lt_of_latin r (List.mem_append_left _ hr)
  obtain ⟨hseparator, hdigit, hmoved⟩ := (latin_of_lt c.toNat (by omega)).1 h
  exact ⟨isLetter_iff.2 ⟨hseparator, hdigit⟩, fun hsettled => hmoved hsettled.2⟩

theorem latin_of_isSmall (h : isSmall c = true) :
    isLetter c = true ∧ isCapital c = false ∧ Settled c := by
  obtain ⟨r, hr, -, hhigh⟩ := exists_of_covers h
  have hlt := lt_of_latin r (List.mem_append_right _ hr)
  obtain ⟨hseparator, hdigit, hcapital, hsame⟩ := (latin_of_lt c.toNat (by omega)).2 h
  refine ⟨isLetter_iff.2 ⟨hseparator, hdigit⟩, hcapital, ?_, hsame⟩
  rintro rfl
  exact absurd (Nat.lt_of_le_of_lt hhigh hlt) (by decide)

theorem isCapital_of_settled (h : Settled c) : isCapital c = false := by
  rw [Bool.eq_false_iff]
  exact fun hcapital => (latin_of_isCapital hcapital).2 h

theorem isLetter_of_isOther (h : isOther c = true) : isLetter c = true := by
  obtain ⟨hseparator, hdigit, -⟩ := isOther_iff.1 h
  exact isLetter_iff.2 ⟨hseparator, hdigit⟩

/-- The letters that are no capitals are small or of another script. -/
theorem isSmall_or_isOther_iff :
    (isSmall c || isOther c) = true ↔ isLetter c = true ∧ isCapital c = false := by
  constructor
  · intro h
    rcases Bool.or_eq_true_iff.1 h with h | h
    · exact ⟨(latin_of_isSmall h).1, (latin_of_isSmall h).2.1⟩
    · exact ⟨isLetter_of_isOther h, (isOther_iff.1 h).2.2.1⟩
  · rintro ⟨h, hcapital⟩
    obtain ⟨hseparator, hdigit⟩ := isLetter_iff.1 h
    cases hsmall : isSmall c with
    | true => rfl
    | false => exact isOther_iff.2 ⟨hseparator, hdigit, hcapital, hsmall⟩

theorem isLetter_of_isDecimalDigit (h : isDecimalDigit c = true) : isLetter c = false := by
  rw [isLetter, h, Bool.or_true]
  rfl

theorem isSeparator_of_isApostrophe (h : isApostrophe c = true) : isSeparator c = true := by
  rw [isApostrophe, Bool.or_eq_true, decide_eq_true_eq, decide_eq_true_eq] at h
  rcases h with rfl | rfl <;> decide

theorem isLetter_of_isApostrophe (h : isApostrophe c = true) : isLetter c = false := by
  rw [isLetter, isSeparator_of_isApostrophe h]
  rfl

/-! ## Lower-casing letters and digits -/

/-- Letters are mapped to letters, and digits are not mapped. -/
theorem apart_lowerSpans : lowerSpans.all (fun s => apart s.image separatorRanges &&
    (apart s.image digitRanges && apart (s.low, s.high) digitRanges)) = true := by
  decide +kernel

theorem settled_of_isDecimalDigit (h : isDecimalDigit c = true) : Settled c := by
  refine ⟨?_, (shifted_cases lowerSpans c.toNat).resolve_right ?_⟩
  · rintro rfl
    exact absurd h (by decide)
  · rintro ⟨s, hs, hmaps, -⟩
    have hapart := List.all_eq_true.1 apart_lowerSpans s hs
    rw [Bool.and_eq_true, Bool.and_eq_true] at hapart
    have hno := not_covers_of_apart hapart.2.2 hmaps.1 hmaps.2.1
    rw [isDecimalDigit, hno] at h
    cases h

theorem isLetter_of_mem_lowerBetween {before after : List Char} (hc : isLetter c = true)
    (h : d ∈ lowerBetween before c after) : isLetter d = true := by
  have hspecial : specialForms.all isLetter = true := by decide
  rcases cases_of_mem_lowerBetween h with h | ⟨-, rfl⟩ | ⟨s, hs, hmaps, rfl⟩
  · exact List.all_eq_true.1 hspecial d h
  · exact hc
  · have hapart := List.all_eq_true.1 apart_lowerSpans s hs
    rw [Bool.and_eq_true, Bool.and_eq_true] at hapart
    obtain ⟨hfirst, hlast⟩ := CaseSpan.mem_image hmaps
    rw [isLetter_iff, isSeparator, isDecimalDigit, (settled_image hs hmaps).1]
    exact ⟨not_covers_of_apart hapart.1 hfirst hlast, not_covers_of_apart hapart.2.1 hfirst hlast⟩

/-- A contraction is in small letters. -/
theorem settled_contraction {a : Char} {ending : List Char} (ha : isApostrophe a = true)
    (hending : ending ∈ smallContractions) : ∀ c ∈ a :: ending, Settled c := by
  have hletters : smallContractions.all (·.all fun c => Settled c) = true := by decide
  intro c hc
  rcases List.mem_cons.1 hc with rfl | hc
  · rw [isApostrophe, Bool.or_eq_true, decide_eq_true_eq, decide_eq_true_eq] at ha
    rcases ha with rfl | rfl <;> decide
  · exact of_decide_eq_true (List.all_eq_true.1 (List.all_eq_true.1 hletters ending hending) c hc)

/-! ## Shapes -/

/-- What a word looks like. -/
inductive Shape : List Char → Prop
  /-- It consists of letters. -/
  | letters {u : List Char} : u ≠ [] → (∀ c ∈ u, isLetter c = true) → Shape u
  /-- It consists of letters, a small one among them, and a contraction. -/
  | contracted {u ending : List Char} {a : Char} : (∀ c ∈ u, isLetter c = true) →
      (∃ c ∈ u, isSmall c = true) → isApostrophe a = true → ending ∈ smallContractions →
      Shape (u ++ a :: ending)
  /-- It is a number. -/
  | number {digits : List Char} : digits ≠ [] → (∀ c ∈ digits, isDecimalDigit c = true) → Shape digits
  /-- It is a number with the letters of its ordinal. -/
  | ordinal {digits letters : List Char} {last : Char} : (∀ c ∈ digits, isDecimalDigit c = true) →
      digits.getLast? = some last → letters = smallOrdinal last ∨ letters = capitalOrdinal last →
      Shape (digits ++ letters)

/-! ## Parts of words -/

section Parts

variable {s word after : List Char}

theorem mem_cutWhile {p : Char → Bool} (h : c ∈ (cutWhile p s).1) : p c = true :=
  List.all_eq_true.1 List.all_takeWhile c h

theorem mem_cutCapital (h : c ∈ (cutCapital s).1) : isCapital c = true := by
  cases s with
  | nil => cases h
  | cons d s =>
    rw [cutCapital] at h
    split at h
    next hd => rwa [List.mem_singleton.1 h]
    · cases h

theorem cutContraction_cases (endings : List (List Char)) (s : List Char) :
    (cutContraction endings s).1 = [] ∨ ∃ a, ∃ ending ∈ endings, isApostrophe a = true ∧
      (cutContraction endings s).1 = a :: ending := by
  cases s with
  | nil => exact Or.inl rfl
  | cons a s =>
    rw [cutContraction]
    split
    next ha =>
      split
      next ending hfind => exact Or.inr ⟨a, ending, List.mem_of_find?_eq_some hfind, ha, rfl⟩
      · exact Or.inl rfl
    · exact Or.inl rfl

/-- Letters with or without a contraction. -/
theorem shape_append {u v : List Char} (hne : u ≠ []) (hu : ∀ c ∈ u, isLetter c = true)
    (hv : v = [] ∨ (∃ c ∈ u, isSmall c = true) ∧ ∃ a, ∃ ending ∈ smallContractions,
      isApostrophe a = true ∧ v = a :: ending) : Shape (u ++ v) := by
  rcases hv with rfl | ⟨hsmall, a, ending, hending, ha, rfl⟩
  · rw [List.append_nil]
    exact .letters hne hu
  · exact .contracted hu hsmall ha hending

/-! ## What the patterns find -/

theorem shape_closedWord? (h : closedWord? s = some (word, after)) : Shape word := by
  have hcapital : ∀ c ∈ (cutCapital s).1, isLetter c = true :=
    fun c hc => (latin_of_isCapital (mem_cutCapital hc)).1
  have hsmall : ∀ c ∈ (cutWhile isSmall (cutCapital s).2).1, isSmall c = true :=
    fun c hc => mem_cutWhile hc
  have hcontraction := cutContraction_cases smallContractions (cutWhile isSmall (cutCapital s).2).2
  simp only [closedWord?] at h
  split at h
  · cases h
  next hne =>
    obtain ⟨d, hd⟩ := List.exists_mem_of_ne_nil _ (by simpa using hne)
    have hletters : ∀ c ∈ (cutCapital s).1 ++ (cutWhile isSmall (cutCapital s).2).1,
        isLetter c = true := by
      intro c hc
      rcases List.mem_append.1 hc with hc | hc
      · exact hcapital c hc
      · exact (latin_of_isSmall (hsmall c hc)).1
    have hmem := List.mem_append_right (cutCapital s).1 hd
    have hnonempty := List.ne_nil_of_mem hmem
    split at h
    · obtain ⟨rfl, -⟩ := Prod.mk.inj (Option.some.inj h)
      exact shape_append hnonempty hletters (hcontraction.imp id fun h => ⟨⟨d, hmem, hsmall d hd⟩, h⟩)
    · split at h
      · obtain ⟨rfl, -⟩ := Prod.mk.inj (Option.some.inj h)
        exact .letters hnonempty hletters
      · cases h

theorem mem_capitalRun? (h : capitalRun? s = some (word, after)) :
    ∀ c ∈ word, (isCapital c || isOther c) = true := by
  induction s generalizing word after with
  | nil => cases h
  | cons d s ih =>
    rw [capitalRun?] at h
    split at h
    next hd =>
      split at h
      next found rest hrun =>
        obtain ⟨rfl, -⟩ := Prod.mk.inj (Option.some.inj h)
        intro c hc
        rcases List.mem_cons.1 hc with rfl | hc
        · exact hd
        · exact ih hrun c hc
      · split at h
        · obtain ⟨rfl, -⟩ := Prod.mk.inj (Option.some.inj h)
          intro c hc
          rwa [List.mem_singleton.1 hc]
        · cases h
    · cases h

/-- Capitals and letters of other scripts make a word where a next word may start. -/
theorem capitalRun?_ne_none {u v : List Char} (hne : u ≠ [])
    (hu : ∀ c ∈ u, (isCapital c || isOther c) = true) (hv : atNextWord v = true) :
    capitalRun? (u ++ v) ≠ none := by
  induction u with
  | nil => exact absurd rfl hne
  | cons c u ih =>
    rw [List.cons_append, capitalRun?, if_pos (hu c List.mem_cons_self)]
    cases hrun : capitalRun? (u ++ v) with
    | some found => simp
    | none =>
      cases u with
      | nil => rw [List.nil_append, hv]; simp
      | cons d u =>
        exact absurd hrun (ih (List.cons_ne_nil d u) fun e he => hu e (List.mem_cons_of_mem c he))

theorem shape_capitalRun? (h : capitalRun? s = some (word, after)) : Shape word := by
  refine .letters (cuts_capitalRun? s word after h).1 fun c hc => ?_
  rcases Bool.or_eq_true_iff.1 (mem_capitalRun? h c hc) with hc | hc
  · exact (latin_of_isCapital hc).1
  · exact isLetter_of_isOther hc

/-- A text that starts with an apostrophe. -/
theorem atNextWord_of_isApostrophe {a : Char} (h : isApostrophe a = true) (s : List Char) :
    atNextWord (a :: s) = true := by
  rw [atNextWord, isSeparator_of_isApostrophe h]
  rfl

/-- Where capitals and letters of other scripts alone make no word, there is a small letter. -/
theorem exists_isSmall {u v : List Char} (hne : u ≠ [])
    (hu : ∀ c ∈ u, isCapital c = true ∨ (isSmall c || isOther c) = true) (hv : atNextWord v = true)
    (hrun : capitalRun? (u ++ v) = none) : ∃ c ∈ u, isSmall c = true := by
  by_cases hsmall : ∃ c ∈ u, isSmall c = true
  · exact hsmall
  · refine absurd hrun (capitalRun?_ne_none hne (fun c hc => ?_) hv)
    have hno : isSmall c = false := Bool.eq_false_iff.2 fun h => hsmall ⟨c, hc, h⟩
    rcases hu c hc with h | h
    · rw [h, Bool.true_or]
    · rw [hno, Bool.false_or] at h
      rw [h, Bool.or_true]

theorem shape_openWord? (hrun : capitalRun? s = none) (h : openWord? s = some (word, after)) :
    Shape word := by
  have happend := (cuts_openWord? s word after h).2
  have hletters : ∀ c ∈ (cutCapital s).1 ++
      (cutWhile (fun c => isSmall c || isOther c) (cutCapital s).2).1,
      isCapital c = true ∨ (isSmall c || isOther c) = true := fun c hc =>
    (List.mem_append.1 hc).imp mem_cutCapital mem_cutWhile
  have hcontraction := cutContraction_cases smallContractions
    (cutWhile (fun c => isSmall c || isOther c) (cutCapital s).2).2
  simp only [openWord?] at h
  split at h
  · cases h
  next hne =>
    obtain ⟨rfl, -⟩ := Prod.mk.inj (Option.some.inj h)
    have hnonempty := List.append_ne_nil_of_right_ne_nil (cutCapital s).1
      (show (cutWhile (fun c => isSmall c || isOther c) (cutCapital s).2).1 ≠ [] by simpa using hne)
    generalize (cutCapital s).1 ++ (cutWhile (fun c => isSmall c || isOther c) (cutCapital s).2).1 = u
      at happend hletters hnonempty
    refine shape_append hnonempty (fun c hc => ?_) (hcontraction.imp id ?_)
    · rcases hletters c hc with h | h
      · exact (latin_of_isCapital h).1
      · exact (isSmall_or_isOther_iff.1 h).1
    · rintro ⟨a, ending, hending, ha, hv⟩
      refine ⟨exists_isSmall hnonempty hletters (atNextWord_of_isApostrophe ha (ending ++ after)) ?_,
        a, ending, hending, ha, hv⟩
      rw [← hrun, ← happend, hv]
      simp

/-- A contraction after capitals alone is not found: the capitals are a word before it. -/
theorem shape_capitals? (hrun : capitalRun? s = none) (h : capitals? s = some (word, after)) :
    Shape word := by
  have happend := (cuts_capitals? s word after h).2
  have hcapital : ∀ c ∈ (cutWhile isCapital s).1, isCapital c = true := fun c hc => mem_cutWhile hc
  have hcontraction := cutContraction_cases capitalContractions (cutWhile isCapital s).2
  simp only [capitals?] at h
  split at h
  · cases h
  next hne =>
    obtain ⟨rfl, -⟩ := Prod.mk.inj (Option.some.inj h)
    have hnonempty : (cutWhile isCapital s).1 ≠ [] := by simpa using hne
    rcases hcontraction with hnone | ⟨a, ending, -, ha, hv⟩
    · rw [hnone, List.append_nil]
      exact .letters hnonempty fun c hc => (latin_of_isCapital (hcapital c hc)).1
    · refine absurd hrun ?_
      rw [← happend, hv, List.append_assoc]
      refine capitalRun?_ne_none hnonempty (fun c hc => ?_)
        (atNextWord_of_isApostrophe ha (ending ++ after))
      rw [hcapital c hc, Bool.true_or]

theorem shape_ordinal? {letters : Char → List Char} {allowed : Char → Bool}
    (hletters : ∀ last, letters last = smallOrdinal last ∨ letters last = capitalOrdinal last)
    (h : ordinal? letters allowed s = some (word, after)) : Shape word := by
  simp only [ordinal?] at h
  split at h
  · cases h
  next last hlast =>
    split at h
    · obtain ⟨rfl, -⟩ := Prod.mk.inj (Option.some.inj h)
      exact .ordinal (fun c hc => mem_cutWhile hc) hlast (hletters last)
    · cases h

theorem shape_number? (h : number? s = some (word, after)) : Shape word := by
  simp only [number?] at h
  split at h
  · cases h
  next hne =>
    obtain ⟨rfl, -⟩ := Prod.mk.inj (Option.some.inj h)
    exact .number (by simpa using hne) fun c hc => mem_cutWhile hc

/-- Which pattern has found a word. The third and the fourth pattern are only asked where the second one
finds nothing. -/
theorem nextWord?_cases (h : nextWord? s = some (word, after)) :
    closedWord? s = some (word, after) ∨ capitalRun? s = some (word, after) ∨
      (capitalRun? s = none ∧ (openWord? s = some (word, after) ∨ capitals? s = some (word, after))) ∨
      (∃ letters allowed, (∀ last, letters last = smallOrdinal last ∨ letters last = capitalOrdinal last) ∧
        ordinal? letters allowed s = some (word, after)) ∨
      number? s = some (word, after) := by
  rcases (Option.orElse_eq_some _ _ _).1 h with h | ⟨-, h⟩
  · exact .inl h
  refine .inr ?_
  rcases (Option.orElse_eq_some _ _ _).1 h with h | ⟨hrun, h⟩
  · exact .inl h
  refine .inr ?_
  rcases (Option.orElse_eq_some _ _ _).1 h with h | ⟨-, h⟩
  · exact .inl ⟨hrun, .inl h⟩
  rcases (Option.orElse_eq_some _ _ _).1 h with h | ⟨-, h⟩
  · exact .inl ⟨hrun, .inr h⟩
  refine .inr ?_
  rcases (Option.orElse_eq_some _ _ _).1 h with h | ⟨-, h⟩
  · exact .inl ⟨capitalOrdinal, _, fun _ => .inr rfl, h⟩
  rcases (Option.orElse_eq_some _ _ _).1 h with h | ⟨-, h⟩
  · exact .inl ⟨smallOrdinal, _, fun _ => .inl rfl, h⟩
  · exact .inr h

/-- **Whatever the patterns find has one of the shapes.** -/
theorem shape_of_nextWord? (h : nextWord? s = some (word, after)) : Shape word := by
  rcases nextWord?_cases h with h | h | ⟨hrun, h | h⟩ | ⟨letters, allowed, hletters, h⟩ | h
  · exact shape_closedWord? h
  · exact shape_capitalRun? h
  · exact shape_openWord? hrun h
  · exact shape_capitals? hrun h
  · exact shape_ordinal? hletters h
  · exact shape_number? h

theorem shape_of_mem_words {s w : List Char} (h : w ∈ words s) : Shape w := by
  obtain ⟨t, after, -, ht⟩ := exists_nextWord?_of_mem_words h
  exact shape_of_nextWord? ht

end Parts

end DirectiveLowering.Naming
