/-!
# Sets and maps of code points given by tables

A character property is written as a list of code point ranges in ascending order, a simple case
mapping as a list of spans that are shifted by a constant. Look-ups walk the list and stop at the
first entry that lies beyond the code point asked for.

Results:
* `exists_of_covers`: a covered code point lies in one of the ranges.
* `covers_iff`: for ascending ranges that is all there is to being covered.
-/

namespace DirectiveLowering.Text

/-! ## Sets -/

/-- Whether one of `ranges` (first and last code point, both included, in ascending order) holds
the code point. -/
def covers : List (Nat × Nat) → Nat → Bool
  | [], _ => false
  | (low, high) :: rest, c => if c < low then false else c ≤ high || covers rest c

/-- No range ends before it starts, and each ends before the next one starts. -/
structure Ascending (ranges : List (Nat × Nat)) : Prop where
  le : ∀ r ∈ ranges, r.1 ≤ r.2
  lt : ranges.Pairwise fun a b => a.2 < b.1

theorem Ascending.tail {r : Nat × Nat} {ranges : List (Nat × Nat)} (h : Ascending (r :: ranges)) :
    Ascending ranges :=
  ⟨fun q hq => h.le q (List.mem_cons_of_mem _ hq), (List.pairwise_cons.1 h.lt).2⟩

theorem covers_cons_of_le {low high c : Nat} (rest : List (Nat × Nat)) (hlow : low ≤ c)
    (hhigh : c ≤ high) : covers ((low, high) :: rest) c = true := by
  unfold covers
  rw [if_neg (by omega)]
  simp [hhigh]

theorem covers_cons_of_lt {low high c : Nat} (rest : List (Nat × Nat)) (hle : low ≤ high)
    (hlt : high < c) : covers ((low, high) :: rest) c = covers rest c := by
  conv => lhs; unfold covers
  rw [if_neg (by omega), decide_eq_false (by omega), Bool.false_or]

theorem exists_of_covers {ranges : List (Nat × Nat)} {c : Nat} (h : covers ranges c = true) :
    ∃ r ∈ ranges, r.1 ≤ c ∧ c ≤ r.2 := by
  induction ranges with
  | nil => simp [covers] at h
  | cons r rest ih =>
    unfold covers at h
    split at h
    · simp at h
    · next hlow =>
      simp only [Bool.or_eq_true, decide_eq_true_eq] at h
      rcases h with hhigh | hrest
      · exact ⟨r, by simp, by omega, hhigh⟩
      · obtain ⟨q, hq, hc⟩ := ih hrest
        exact ⟨q, by simp [hq], hc⟩

theorem covers_of_mem {ranges : List (Nat × Nat)} {c : Nat} (hs : Ascending ranges)
    {r : Nat × Nat} (hr : r ∈ ranges) (hlow : r.1 ≤ c) (hhigh : c ≤ r.2) :
    covers ranges c = true := by
  induction ranges with
  | nil => simp at hr
  | cons q rest ih =>
    unfold covers
    rcases List.mem_cons.1 hr with rfl | hr
    · rw [if_neg (by omega)]
      simp [hhigh]
    · have hqr := (List.pairwise_cons.1 hs.lt).1 r hr
      have hq := hs.le q (by simp)
      rw [if_neg (by omega), ih hs.tail hr, Bool.or_true]

theorem covers_iff {ranges : List (Nat × Nat)} {c : Nat} (hs : Ascending ranges) :
    covers ranges c = true ↔ ∃ r ∈ ranges, r.1 ≤ c ∧ c ≤ r.2 :=
  ⟨exists_of_covers, fun ⟨_, hr, hlow, hhigh⟩ => covers_of_mem hs hr hlow hhigh⟩

/-! ## Case mappings -/

/-- The code points `low`, `low + step`, …, `high`, each mapped to the one `shift` further on. -/
structure CaseSpan where
  low : Nat
  high : Nat
  step : Nat
  shift : Int

/-- Image of a code point under the spans, which are written in ascending order; a code point that
no span holds is its own image. -/
def shifted : List CaseSpan → Nat → Nat
  | [], c => c
  | span :: rest, c =>
    if c < span.low then c
    else if c ≤ span.high then
      if (c - span.low) % span.step = 0 then ((c : Int) + span.shift).toNat else c
    else shifted rest c

end DirectiveLowering.Text
