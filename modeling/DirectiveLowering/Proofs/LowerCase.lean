import DirectiveLowering.Text.Lower

/-!
# Lower-case texts

A character is settled when lower-casing leaves it alone, wherever it stands. All that lower-casing leaves
is settled, so a text is lower-cased once and for all. A sigma looks for its neighbours no further than
the next character that has no case and is not looked through, such as a hyphen or a low line, so the
texts before and after such a character are lower-cased on their own.

Results:
* `shifted_cases`, `shifted_of_clears`: what a mapping does to a code point and to an image.
* `settled_of_mem_lower`, `lower_lower`: lower-casing a second time changes nothing.
* `lower_intercalate`: texts that are joined by a character without case.
-/

namespace DirectiveLowering.Text

/-! ## Ranges and spans -/

/-- Whether none of the ranges, in ascending order, shares a code point with one range. -/
def apart (r : Nat × Nat) : List (Nat × Nat) → Bool
  | [] => true
  | (low, high) :: rest => Nat.blt r.2 low || (Nat.blt high r.1 && apart r rest)

theorem not_covers_of_apart {r : Nat × Nat} {ranges : List (Nat × Nat)} {c : Nat}
    (h : apart r ranges = true) (hlow : r.1 ≤ c) (hhigh : c ≤ r.2) : covers ranges c = false := by
  induction ranges with
  | nil => rfl
  | cons q ranges ih =>
    rw [apart, Bool.or_eq_true, Bool.and_eq_true, Nat.blt_eq, Nat.blt_eq] at h
    rw [covers]
    split
    · rfl
    · obtain ⟨hbefore, hrest⟩ := h.resolve_left (by omega)
      rw [decide_eq_false (by omega), ih hrest, Bool.false_or]

namespace CaseSpan

/-- The span maps the code point. -/
def Maps (s : CaseSpan) (c : Nat) : Prop :=
  s.low ≤ c ∧ c ≤ s.high ∧ (c - s.low) % s.step = 0

/-- The first and the last code point that the span maps to. -/
def image (s : CaseSpan) : Nat × Nat :=
  (((s.low : Int) + s.shift).toNat, ((s.high : Int) + s.shift).toNat)

/-- Whether a span maps no image of another one among those that are not below it: there is none, or it
maps every other code point and the images are those between. -/
def avoids (s r : CaseSpan) : Bool :=
  Nat.blt r.high s.image.1 ||
    ((s.step == 2 || s.low == s.high) && r.step == 2 && Nat.blt 0 s.image.1 &&
      s.image.1 % 2 != r.low % 2)

/-- Whether no span, in ascending order, maps an image of one span. -/
def clears (s : CaseSpan) : List CaseSpan → Bool
  | [] => true
  | r :: rest => Nat.blt s.image.2 r.low || (s.avoids r && s.clears rest)

variable {s r : CaseSpan} {c : Nat}

theorem mem_image (h : s.Maps c) :
    s.image.1 ≤ ((c : Int) + s.shift).toNat ∧ ((c : Int) + s.shift).toNat ≤ s.image.2 := by
  obtain ⟨hlow, hhigh, -⟩ := h
  dsimp only [image]
  omega

theorem not_maps_of_avoids (h : s.avoids r = true) (hc : s.Maps c) :
    ¬ r.Maps ((c : Int) + s.shift).toNat := by
  rintro ⟨hlow, hhigh, hstep⟩
  obtain ⟨hfirst, hlast⟩ := mem_image hc
  obtain ⟨hlow', hhigh', hstep'⟩ := hc
  simp only [avoids, Bool.or_eq_true, Bool.and_eq_true, Nat.blt_eq, beq_iff_eq, bne_iff_ne, ne_eq] at h
  rcases h with h | ⟨⟨⟨hevery, htwo⟩, hpos⟩, hparity⟩
  · omega
  · dsimp only [image] at hparity hpos
    rw [htwo] at hstep
    rcases hevery with hevery | hevery
    · rw [hevery] at hstep'
      omega
    · omega

end CaseSpan

/-- A code point stays where it is unless one of the spans maps it. -/
theorem shifted_cases (spans : List CaseSpan) (c : Nat) :
    shifted spans c = c ∨ ∃ s ∈ spans, s.Maps c ∧ shifted spans c = ((c : Int) + s.shift).toNat := by
  induction spans with
  | nil => exact Or.inl rfl
  | cons s spans ih =>
    rw [shifted]
    split
    · exact Or.inl rfl
    next hlow =>
      split
      next hhigh =>
        split
        next hstep => exact Or.inr ⟨s, by simp, ⟨by omega, hhigh, hstep⟩, rfl⟩
        · exact Or.inl rfl
      · rcases ih with h | ⟨r, hr, hmaps, h⟩
        · exact Or.inl h
        · exact Or.inr ⟨r, List.mem_cons_of_mem s hr, hmaps, h⟩

/-- An image that no span maps again stays where it is. -/
theorem shifted_of_clears {s : CaseSpan} {spans : List CaseSpan} {c : Nat} (h : s.clears spans = true)
    (hc : s.Maps c) : shifted spans ((c : Int) + s.shift).toNat = ((c : Int) + s.shift).toNat := by
  induction spans with
  | nil => rfl
  | cons r spans ih =>
    obtain ⟨-, hlast⟩ := CaseSpan.mem_image hc
    rw [CaseSpan.clears, Bool.or_eq_true, Bool.and_eq_true, Nat.blt_eq] at h
    rw [shifted]
    split
    · rfl
    next hlow =>
      obtain ⟨havoids, hrest⟩ := h.resolve_left (by omega)
      split
      next hhigh =>
        rw [if_neg fun hstep => CaseSpan.not_maps_of_avoids havoids hc ⟨by omega, hhigh, hstep⟩]
      · exact ih hrest

/-! ## Settled characters -/

/-- Lower-casing leaves the character alone. -/
def Settled (c : Char) : Prop :=
  c ≠ 'İ' ∧ shifted lowerSpans c.toNat = c.toNat

instance : DecidablePred Settled := fun _ => inferInstanceAs (Decidable (_ ∧ _))

/-- The code points that nothing is mapped to: that of the capital i with a dot above, and the
surrogates. -/
def unreached : List (Nat × Nat) := [(0x130, 0x130), (0xd800, 0xdfff)]

theorem clears_lowerSpans : lowerSpans.all (fun s => s.clears lowerSpans) = true := by
  decide +kernel

theorem apart_unreached :
    lowerSpans.all (fun s => apart s.image unreached && Nat.blt s.image.2 0x110000) = true := by
  decide +kernel

variable {c d : Char}

/-- An image of a span is a character, and settled. -/
theorem settled_image {s : CaseSpan} {n : Nat} (hs : s ∈ lowerSpans) (hn : s.Maps n) :
    (Char.ofNat ((n : Int) + s.shift).toNat).toNat = ((n : Int) + s.shift).toNat ∧
      Settled (Char.ofNat ((n : Int) + s.shift).toNat) := by
  have hshifted := shifted_of_clears (List.all_eq_true.1 clears_lowerSpans s hs) hn
  obtain ⟨hapart, hbound⟩ := Bool.and_eq_true_iff.1 (List.all_eq_true.1 apart_unreached s hs)
  obtain ⟨hfirst, hlast⟩ := CaseSpan.mem_image hn
  generalize ((n : Int) + s.shift).toNat = m at hshifted hfirst hlast
  have hreached := not_covers_of_apart hapart hfirst hlast
  have hm : m ≠ 0x130 ∧ (m < 0xd800 ∨ 0xdfff < m) := by
    simp only [covers, unreached, Bool.or_false] at hreached
    split at hreached
    · omega
    · simp at hreached
      omega
  have hvalid : m.isValidChar := by
    rw [Nat.blt_eq] at hbound
    exact hm.2.imp id fun h => ⟨h, by omega⟩
  have htoNat : (Char.ofNat m).toNat = m := by
    rw [Char.ofNat, dif_pos hvalid]
    rfl
  refine ⟨htoNat, fun hdot => hm.1 ?_, by rw [htoNat, hshifted]⟩
  rw [← htoNat, hdot]
  rfl

theorem Settled.lowerChar (h : Settled c) : lowerChar c = [c] := by
  rw [Text.lowerChar, if_neg h.1, h.2, Char.ofNat_toNat]

theorem Settled.lowerBetween (h : Settled c) (before after : List Char) :
    lowerBetween before c after = [c] := by
  have hsigma : c ≠ 'Σ' := by
    rintro rfl
    exact absurd h (by decide)
  rw [Text.lowerBetween, if_neg hsigma, h.lowerChar]

/-- What is left of the two capitals that no span maps. -/
def specialForms : List Char := ['ς', 'σ', 'i', '\u0307']

/-- Lower-casing makes a special form of a character, leaves it alone, or maps it to an image. -/
theorem cases_of_mem_lowerBetween {before after : List Char} (h : d ∈ lowerBetween before c after) :
    d ∈ specialForms ∨ (Settled c ∧ d = c) ∨
      ∃ s ∈ lowerSpans, s.Maps c.toNat ∧ d = Char.ofNat ((c.toNat : Int) + s.shift).toNat := by
  rw [lowerBetween] at h
  split at h
  · rw [List.mem_singleton.1 h]
    refine Or.inl ?_
    split <;> simp [specialForms]
  · rw [lowerChar] at h
    split at h
    · exact Or.inl (List.mem_append_right ['ς', 'σ'] h)
    next hdot =>
      rw [List.mem_singleton] at h
      rcases shifted_cases lowerSpans c.toNat with hsame | ⟨s, hs, hmaps, himage⟩
      · rw [hsame, Char.ofNat_toNat] at h
        exact Or.inr (Or.inl ⟨⟨hdot, hsame⟩, h⟩)
      · rw [himage] at h
        exact Or.inr (Or.inr ⟨s, hs, hmaps, h⟩)

/-- What lower-casing makes of a character is settled. -/
theorem settled_of_mem_lowerBetween {before after : List Char} (h : d ∈ lowerBetween before c after) :
    Settled d := by
  have hspecial : specialForms.all (Settled ·) = true := by decide
  rcases cases_of_mem_lowerBetween h with h | ⟨h, rfl⟩ | ⟨s, hs, hmaps, rfl⟩
  · exact of_decide_eq_true (List.all_eq_true.1 hspecial d h)
  · exact h
  · exact (settled_image hs hmaps).2

theorem settled_of_mem_lowerAfter {before s : List Char} (h : d ∈ lowerAfter before s) : Settled d := by
  induction s generalizing before with
  | nil => cases h
  | cons c s ih =>
    rw [lowerAfter_cons] at h
    rcases List.mem_append.1 h with h | h
    · exact settled_of_mem_lowerBetween h
    · exact ih h

theorem settled_of_mem_lower {s : List Char} (h : d ∈ lower s) : Settled d :=
  settled_of_mem_lowerAfter h

/-- Settled characters at the start of a text are left alone. -/
theorem lowerAfter_append_of_settled {before a b : List Char} (h : ∀ c ∈ a, Settled c) :
    lowerAfter before (a ++ b) = a ++ lowerAfter (a.reverse ++ before) b := by
  induction a generalizing before with
  | nil => rfl
  | cons c a ih =>
    rw [List.cons_append, lowerAfter_cons, (h c List.mem_cons_self).lowerBetween,
      ih fun d hd => h d (List.mem_cons_of_mem c hd)]
    simp

theorem lowerAfter_of_settled {before s : List Char} (h : ∀ c ∈ s, Settled c) :
    lowerAfter before s = s := by
  have hs : lowerAfter before (s ++ []) = s ++ lowerAfter (s.reverse ++ before) [] :=
    lowerAfter_append_of_settled h
  rwa [List.append_nil, lowerAfter, List.append_nil] at hs

/-- **Lower-casing a second time changes nothing.** -/
theorem lower_lower (s : List Char) : lower (lower s) = lower s :=
  lowerAfter_of_settled fun _ h => settled_of_mem_lower h

/-! ## Texts that are joined -/

/-- The character has no case, and nobody looks through it for a neighbour with a case. -/
structure Caseless (c : Char) : Prop where
  settled : Settled c
  ignorable : isCaseIgnorable c = false
  cased : isCased c = false

theorem caseless_hyphen : Caseless '-' := ⟨by decide, by decide, by decide⟩

theorem caseless_line : Caseless '_' := ⟨by decide, by decide, by decide⟩

variable {joint : Char} (hj : Caseless joint)
include hj

theorem startsCased_append (a b : List Char) :
    startsCased (a ++ joint :: b) = startsCased a := by
  induction a with
  | nil =>
    rw [startsCased, List.nil_append, List.dropWhile_cons_of_neg (by simp [hj.ignorable])]
    exact hj.cased
  | cons c a ih =>
    rw [startsCased, startsCased, List.cons_append, List.dropWhile_cons, List.dropWhile_cons]
    split
    · exact ih
    · rfl

/-- What stands before the joint makes no difference after it. -/
theorem lowerAfter_before (a b s : List Char) :
    lowerAfter (a ++ joint :: b) s = lowerAfter a s := by
  induction s generalizing a with
  | nil => rfl
  | cons c s ih =>
    rw [lowerAfter_cons, lowerAfter_cons, lowerBetween, lowerBetween, endsWord, endsWord,
      startsCased_append hj, ← List.cons_append, ih]

/-- The texts before and after the joint are lower-cased on their own. -/
theorem lowerAfter_append (before a b : List Char) :
    lowerAfter before (a ++ joint :: b) = lowerAfter before a ++ joint :: lower b := by
  induction a generalizing before with
  | nil =>
    rw [List.nil_append, lowerAfter_cons, hj.settled.lowerBetween, lower,
      ← lowerAfter_before hj [] before b]
    rfl
  | cons c a ih =>
    rw [List.cons_append, lowerAfter_cons, lowerAfter_cons, lowerBetween, lowerBetween, endsWord,
      endsWord, startsCased_append hj, ih, List.append_assoc]

/-- Texts that are joined are lower-cased one by one. -/
theorem lower_intercalate (texts : List (List Char)) :
    lower ([joint].intercalate texts) = [joint].intercalate (texts.map lower) := by
  induction texts with
  | nil => rfl
  | cons text texts ih =>
    cases texts with
    | nil => simp
    | cons next texts =>
      rw [List.intercalate_cons_cons, List.map_cons, List.map_cons, List.intercalate_cons_cons,
        ← List.map_cons, ← ih, List.append_assoc, List.singleton_append, lower, lowerAfter_append hj,
        List.append_assoc]
      rfl

end DirectiveLowering.Text
