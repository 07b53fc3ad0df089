import Mathlib.Data.List.Basic
import DirectiveLowering.Proofs.JoinedWords

/-!
# Spelling

A casing spells the words of a name: it lower-cases them and glues or joins them again. Names with the same
words in lower case are therefore spelt alike. In ASCII both case mappings go letter by letter, and what has
no case in a name is spelt as it is.

Results:
* `upper_of_ascii`, `lower_of_ascii`: the case mappings of ASCII texts.
* `camelCase_eq`, `Casing.chars_congr`: a name is spelt by its words in lower case.
* `apostrophe_mem_chars`: an apostrophe is spelt wherever a word has one.
-/

namespace DirectiveLowering.Text

variable {c : Char} {s : List Char}

/-! ## Case in ASCII -/

/-- What holds of the first 128 characters holds of every ASCII character. -/
theorem forall_ascii {P : Char → Prop} (h : ∀ i, i < 128 → P (Char.ofNat i)) (hc : c.toNat < 128) :
    P c := by
  have hat := h c.toNat hc
  rwa [Char.ofNat_toNat] at hat

theorem upperChar_of_ascii (h : c.toNat < 128) : upperChar c = [c.toUpper] := by
  refine forall_ascii (P := fun c => upperChar c = [c.toUpper]) ?_ h
  decide +kernel

theorem lowerBetween_of_ascii (h : c.toNat < 128) (before after : List Char) :
    lowerBetween before c after = [c.toLower] := by
  obtain ⟨hsigma, hlower⟩ : c ≠ 'Σ' ∧ lowerChar c = [c.toLower] := by
    refine forall_ascii (P := fun c => c ≠ 'Σ' ∧ lowerChar c = [c.toLower]) ?_ h
    decide +kernel
  rw [lowerBetween, if_neg hsigma, hlower]

theorem upper_of_ascii (h : ∀ c ∈ s, c.toNat < 128) : upper s = s.map Char.toUpper := by
  induction s with
  | nil => rfl
  | cons c s ih =>
    rw [upper, List.flatMap_cons, upperChar_of_ascii (h c List.mem_cons_self), ← upper,
      ih fun d hd => h d (List.mem_cons_of_mem c hd)]
    rfl

theorem lowerAfter_of_ascii (before : List Char) (h : ∀ c ∈ s, c.toNat < 128) :
    lowerAfter before s = s.map Char.toLower := by
  induction s generalizing before with
  | nil => rfl
  | cons c s ih =>
    rw [lowerAfter_cons, lowerBetween_of_ascii (h c List.mem_cons_self),
      ih (c :: before) fun d hd => h d (List.mem_cons_of_mem c hd)]
    rfl

theorem lower_of_ascii (h : ∀ c ∈ s, c.toNat < 128) : lower s = s.map Char.toLower :=
  lowerAfter_of_ascii [] h

theorem toLower_toUpper (h : c.toNat < 128) : c.toUpper.toLower = c.toLower := by
  refine forall_ascii (P := fun c => c.toUpper.toLower = c.toLower) ?_ h
  decide +kernel

theorem ascii_lower (h : ∀ c ∈ s, c.toNat < 128) : ∀ c ∈ lower s, c.toNat < 128 := by
  intro c hc
  rw [lower_of_ascii h] at hc
  obtain ⟨d, hd, rfl⟩ := List.mem_map.1 hc
  refine forall_ascii (P := fun d => d.toLower.toNat < 128) ?_ (h d hd)
  decide +kernel

end DirectiveLowering.Text

namespace DirectiveLowering.Naming

open Text

variable {s t : List Char}

/-! ## Casings of words -/

/-- Words glued together, all but the first with a capital. -/
def glue : List (List Char) → List Char
  | [] => []
  | first :: others => first ++ others.flatMap upperFirst

theorem camelCase_eq (s : List Char) : camelCase s = glue ((words s).map lower) := by
  rw [camelCase]
  split
  next hwords => rw [hwords]; rfl
  next first others hwords => rw [hwords, List.map_cons, glue, List.flatMap_map]

theorem ascii_upperFirst (h : ∀ c ∈ s, c.toNat < 128) : ∀ c ∈ upperFirst s, c.toNat < 128 := by
  cases s with
  | nil => exact h
  | cons c s =>
    have hc := h c List.mem_cons_self
    intro d hd
    rw [upperFirst, upperChar_of_ascii hc, List.singleton_append, List.mem_cons] at hd
    rcases hd with rfl | hd
    · refine forall_ascii (P := fun c => c.toUpper.toNat < 128) ?_ hc
      decide +kernel
    · exact h d (List.mem_cons_of_mem c hd)

theorem lower_upperFirst (h : ∀ c ∈ s, c.toNat < 128) : lower (upperFirst s) = lower s := by
  rw [lower_of_ascii (ascii_upperFirst h), lower_of_ascii h]
  cases s with
  | nil => rfl
  | cons c s =>
    have hc := h c List.mem_cons_self
    rw [upperFirst, upperChar_of_ascii hc, List.singleton_append, List.map_cons, toLower_toUpper hc,
      List.map_cons]

theorem ascii_glue {ws : List (List Char)} (h : ∀ w ∈ ws, ∀ c ∈ w, c.toNat < 128) :
    ∀ c ∈ glue ws, c.toNat < 128 := by
  cases ws with
  | nil => exact fun c hc => absurd hc List.not_mem_nil
  | cons first others =>
    intro c hc
    rcases List.mem_append.1 hc with hc | hc
    · exact h first List.mem_cons_self c hc
    · obtain ⟨w, hw, hc⟩ := List.mem_flatMap.1 hc
      exact ascii_upperFirst (h w (List.mem_cons_of_mem first hw)) c hc

/-- **Names with the same words in lower case are spelt alike.** -/
theorem Casing.chars_congr {casing : Casing} (hcasing : casing ≠ .unchanged)
    (h : (words s).map lower = (words t).map lower) : casing.chars s = casing.chars t := by
  have hcamel : camelCase s = camelCase t := by rw [camelCase_eq, camelCase_eq, h]
  have hjoined : ∀ {joint : Char}, IsJoint joint → joinedCase joint s = joinedCase joint t := by
    intro joint hj
    rw [joinedCase_eq hj, joinedCase_eq hj, h]
  cases casing with
  | camel => exact hcamel
  | pascal => exact congrArg upperFirst hcamel
  | kebab => exact hjoined (Or.inl rfl)
  | snake => exact hjoined (Or.inr rfl)
  | unchanged => exact absurd rfl hcasing

/-! ## Apostrophes in names -/

/-- No other character of ASCII is mapped to an apostrophe. -/
theorem apostrophe_of_ascii {c : Char} (h : c.toNat < 128) :
    (c.toUpper = '\x27' ↔ c = '\x27') ∧ (c.toLower = '\x27' ↔ c = '\x27') := by
  refine forall_ascii (P := fun c => (c.toUpper = '\x27' ↔ c = '\x27') ∧
    (c.toLower = '\x27' ↔ c = '\x27')) ?_ h
  decide +kernel

theorem apostrophe_mem_lower (h : ∀ c ∈ s, c.toNat < 128) : '\x27' ∈ lower s ↔ '\x27' ∈ s := by
  rw [lower_of_ascii h, List.mem_map]
  constructor
  · rintro ⟨c, hc, heq⟩
    rwa [(apostrophe_of_ascii (h c hc)).2.1 heq] at hc
  · intro hmem
    exact ⟨'\x27', hmem, rfl⟩

theorem apostrophe_mem_upperFirst (h : ∀ c ∈ s, c.toNat < 128) : '\x27' ∈ upperFirst s ↔ '\x27' ∈ s := by
  cases s with
  | nil => rfl
  | cons c s =>
    have hc := h c List.mem_cons_self
    rw [upperFirst, upperChar_of_ascii hc, List.singleton_append, List.mem_cons, List.mem_cons,
      eq_comm, (apostrophe_of_ascii hc).1, eq_comm]

theorem apostrophe_mem_glue {ws : List (List Char)} (h : ∀ w ∈ ws, ∀ c ∈ w, c.toNat < 128) :
    '\x27' ∈ glue ws ↔ ∃ w ∈ ws, '\x27' ∈ w := by
  cases ws with
  | nil => simp [glue]
  | cons first others =>
    have hothers : '\x27' ∈ others.flatMap upperFirst ↔ ∃ w ∈ others, '\x27' ∈ w := by
      rw [List.mem_flatMap]
      exact exists_congr fun w => and_congr_right fun hw =>
        apostrophe_mem_upperFirst (h w (List.mem_cons_of_mem first hw))
    rw [glue, List.mem_append, hothers, List.exists_mem_cons_iff]

theorem apostrophe_mem_intercalate {joint : Char} (hj : IsJoint joint) (ws : List (List Char)) :
    '\x27' ∈ [joint].intercalate ws ↔ ∃ w ∈ ws, '\x27' ∈ w := by
  have hne : '\x27' ≠ joint := by rcases hj with rfl | rfl <;> decide
  induction ws with
  | nil => simp
  | cons w ws ih =>
    cases ws with
    | nil => simp
    | cons v ws =>
      rw [List.intercalate_cons_cons, List.append_assoc, List.mem_append, List.mem_append,
        List.exists_mem_cons_iff, List.mem_singleton, or_iff_right hne]
      exact or_congr_right ih

/-- **A casing spells the apostrophes of the words**, and no other ones. -/
theorem apostrophe_mem_chars {casing : Casing} (hcasing : casing ≠ .unchanged)
    (h : ∀ c ∈ s, c.toNat < 128) : '\x27' ∈ casing.chars s ↔ ∃ w ∈ words s, '\x27' ∈ w := by
  have hascii : ∀ w ∈ words s, ∀ c ∈ w, c.toNat < 128 :=
    fun w hw c hc => h c (subset_of_mem_words hw hc)
  have hlower : ∀ w ∈ (words s).map lower, ∀ c ∈ w, c.toNat < 128 := by
    intro w hw
    obtain ⟨v, hv, rfl⟩ := List.mem_map.1 hw
    exact ascii_lower (hascii v hv)
  have hwords : (∃ w ∈ (words s).map lower, '\x27' ∈ w) ↔ ∃ w ∈ words s, '\x27' ∈ w := by
    constructor
    · rintro ⟨w, hw, hmem⟩
      obtain ⟨v, hv, rfl⟩ := List.mem_map.1 hw
      exact ⟨v, hv, (apostrophe_mem_lower (hascii v hv)).1 hmem⟩
    · rintro ⟨v, hv, hmem⟩
      exact ⟨lower v, List.mem_map_of_mem hv, (apostrophe_mem_lower (hascii v hv)).2 hmem⟩
  have hcamel : '\x27' ∈ camelCase s ↔ ∃ w ∈ words s, '\x27' ∈ w := by
    rw [camelCase_eq, apostrophe_mem_glue hlower, hwords]
  have hjoined : ∀ {joint : Char}, IsJoint joint →
      ('\x27' ∈ joinedCase joint s ↔ ∃ w ∈ words s, '\x27' ∈ w) := by
    intro joint hj
    rw [joinedCase_eq hj, apostrophe_mem_intercalate hj, hwords]
  cases casing with
  | camel => exact hcamel
  | pascal =>
    rw [← hcamel]
    refine apostrophe_mem_upperFirst ?_
    rw [camelCase_eq]
    exact ascii_glue hlower
  | kebab => exact hjoined (Or.inl rfl)
  | snake => exact hjoined (Or.inr rfl)
  | unchanged => exact absurd rfl hcasing

end DirectiveLowering.Naming
