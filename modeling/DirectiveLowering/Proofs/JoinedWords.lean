import DirectiveLowering.Naming.Casing
import DirectiveLowering.Proofs.SmallWords

/-!
# Words of joined names

A name that is joined by hyphens or low lines consists of the words of the name, each lower-cased on its
own. Lower-casing keeps the shape of a word and leaves no capital in it, so the words are found again in
the joined name, although another pattern may find them: `XML` was a run of capitals, `xml` is a word of
small letters.

Results:
* `Shape.lower`: lower-casing keeps the shape of a word.
* `joinedCase_eq`, `words_joinedCase`: a joined name and its words.
* `words_kebabCase_snakeCase`: what hyphens and low lines have in common.
-/

namespace DirectiveLowering.Naming

open Text

variable {u : List Char}

/-! ## Lower-casing words -/

/-- Letters at the start of a text are lower-cased to letters, and the small ones stay. -/
theorem exists_lowerAfter_letters (before rest : List Char) (hu : ∀ c ∈ u, isLetter c = true) :
    ∃ v, lowerAfter before (u ++ rest) = v ++ lowerAfter (u.reverse ++ before) rest ∧
      (∀ c ∈ v, isLetter c = true) ∧ (u ≠ [] → v ≠ []) ∧ ∀ c ∈ u, isSmall c = true → c ∈ v := by
  induction u generalizing before with
  | nil => exact ⟨[], rfl, by simp, by simp, by simp⟩
  | cons c u ih =>
    obtain ⟨v, hv, hletters, -, hsmall⟩ := ih (c :: before) fun d hd => hu d (List.mem_cons_of_mem c hd)
    refine ⟨lowerBetween before c (u ++ rest) ++ v, ?_, fun d hd => ?_, fun _ => ?_, fun d hd hd' => ?_⟩
    · rw [List.cons_append, lowerAfter_cons, hv, List.reverse_cons, List.append_assoc,
        List.append_assoc]
      rfl
    · rcases List.mem_append.1 hd with hd | hd
      · exact isLetter_of_mem_lowerBetween (hu c List.mem_cons_self) hd
      · exact hletters d hd
    · exact List.append_ne_nil_of_left_ne_nil (lowerBetween_ne_nil _ _ _) v
    · rcases List.mem_cons.1 hd with rfl | hd
      · refine List.mem_append_left v ?_
        rw [(latin_of_isSmall hd').2.2.lowerBetween]
        exact List.mem_singleton.2 rfl
      · exact List.mem_append_right _ (hsmall d hd hd')

/-- The letters of an ordinal are lower-cased to its small letters. -/
theorem lowerAfter_ordinal (before : List Char) {letters : List Char} {last : Char}
    (h : letters = smallOrdinal last ∨ letters = capitalOrdinal last) :
    lowerAfter before letters = smallOrdinal last := by
  rcases h with rfl | rfl
  · unfold smallOrdinal
    repeat' split
    all_goals rfl
  · unfold capitalOrdinal smallOrdinal
    repeat' split
    all_goals rfl

/-- Lower-casing keeps the shape of a word. -/
theorem Shape.lower {w : List Char} (h : Shape w) : Shape (lower w) := by
  cases h with
  | letters hne hw =>
    obtain ⟨v, hv, hletters, hnonempty, -⟩ := exists_lowerAfter_letters [] [] hw
    rw [List.append_nil, lowerAfter, List.append_nil] at hv
    rw [Text.lower, hv]
    exact .letters (hnonempty hne) hletters
  | @contracted u ending a hu hsmall ha hending =>
    obtain ⟨v, hv, hletters, -, hsmall'⟩ := exists_lowerAfter_letters [] (a :: ending) hu
    obtain ⟨c, hc, hc'⟩ := hsmall
    rw [Text.lower, hv, lowerAfter_of_settled (settled_contraction ha hending)]
    exact .contracted hletters ⟨c, hsmall' c hc hc', hc'⟩ ha hending
  | number hne hdigits =>
    rw [Text.lower, lowerAfter_of_settled fun c hc => settled_of_isDecimalDigit (hdigits c hc)]
    exact .number hne hdigits
  | ordinal hdigits hlast hletters =>
    rw [Text.lower, lowerAfter_append_of_settled fun c hc => settled_of_isDecimalDigit (hdigits c hc),
      lowerAfter_ordinal _ hletters]
    exact .ordinal hdigits hlast (Or.inl rfl)

/-! ## Joined names -/

theorem caseless_of_joint {joint : Char} (hj : IsJoint joint) : Caseless joint := by
  rcases hj with rfl | rfl
  · exact caseless_hyphen
  · exact caseless_line

/-- A joined name is its words in lower case, joined. -/
theorem joinedCase_eq {joint : Char} (hj : IsJoint joint) (s : List Char) :
    joinedCase joint s = [joint].intercalate ((words s).map lower) := by
  rw [joinedCase, lower_intercalate (caseless_of_joint hj)]

/-- The words of a joined name are the words of the name, in lower case. -/
theorem words_joinedCase {joint : Char} (hj : IsJoint joint) (s : List Char) :
    words (joinedCase joint s) = (words s).map lower := by
  rw [joinedCase_eq hj]
  refine words_intercalate hj (fun w hw => ?_) fun w hw c hc => ?_
  · obtain ⟨v, hv, rfl⟩ := List.mem_map.1 hw
    exact (shape_of_mem_words hv).lower
  · obtain ⟨v, hv, rfl⟩ := List.mem_map.1 hw
    exact isCapital_of_settled (settled_of_mem_lower hc)

/-- Each word is found again, the first and the last one by another pattern. -/
example : words (kebabCase "XMLHttp2ND".toList) = ["xml".toList, "http".toList, "2nd".toList] := by
  decide +kernel

/-- A name that is joined in two ways, one after the other, is joined in the second way. -/
theorem joinedCase_joinedCase {first second : Char} (h₁ : IsJoint first)
    (h₂ : IsJoint second) (s : List Char) :
    joinedCase second (joinedCase first s) = joinedCase second s := by
  rw [joinedCase_eq h₂, words_joinedCase h₁, joinedCase_eq h₂, List.map_map]
  congr 2
  funext w
  exact lower_lower w

/-- Two names become the same exactly if their words are the same in lower case. -/
theorem joinedCase_eq_iff {joint : Char} (hj : IsJoint joint) (s t : List Char) :
    joinedCase joint s = joinedCase joint t ↔ (words s).map lower = (words t).map lower := by
  constructor
  · intro h
    rw [← words_joinedCase hj, h, words_joinedCase hj]
  · intro h
    rw [joinedCase_eq hj, h, joinedCase_eq hj]

/-- **Joined names keep their words**: what is joined by hyphens or by low lines has the words of the name
in lower case. So joining a joined name is joining the name, and two names that are joined become the
same, by hyphens or by low lines, exactly if their words are the same in lower case. -/
theorem words_kebabCase_snakeCase (s : List Char) :
    words (kebabCase s) = (words s).map lower ∧ words (snakeCase s) = (words s).map lower ∧
      kebabCase (kebabCase s) = kebabCase s ∧ snakeCase (snakeCase s) = snakeCase s ∧
      kebabCase (snakeCase s) = kebabCase s ∧ snakeCase (kebabCase s) = snakeCase s ∧
      ∀ t, (kebabCase s = kebabCase t ↔ snakeCase s = snakeCase t) ∧
        (kebabCase s = kebabCase t ↔ (words s).map lower = (words t).map lower) := by
  have hkebab : IsJoint '-' := Or.inl rfl
  have hsnake : IsJoint '_' := Or.inr rfl
  refine ⟨words_joinedCase hkebab s, words_joinedCase hsnake s,
    joinedCase_joinedCase hkebab hkebab s, joinedCase_joinedCase hsnake hsnake s,
    joinedCase_joinedCase hsnake hkebab s, joinedCase_joinedCase hkebab hsnake s, fun t => ⟨?_, ?_⟩⟩
  · exact (joinedCase_eq_iff hkebab s t).trans (joinedCase_eq_iff hsnake s t).symm
  · exact joinedCase_eq_iff hkebab s t

end DirectiveLowering.Naming
