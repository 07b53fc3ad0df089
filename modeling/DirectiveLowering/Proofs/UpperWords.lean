import DirectiveLowering.Proofs.Spelling
import DirectiveLowering.Proofs.WordGaps

/-!
# Words of names in capitals

A name in ASCII without capitals and the same name in capitals are cut at the same places, with one exception.
Runs of letters stay runs of letters, and numbers take the letters of their ordinals in either case. But a
contraction belongs to a word in small letters only: in capitals the pattern that finds the letters stops at
the apostrophe, so that the pattern that would take the contraction with them never sees it. The words of
the name in capitals are therefore the words of the name, cut at their apostrophes.

Results:
* `nextWord?_of_number_small`, `nextWord?_of_number_capital`: ordinals in either case.
* `words_upper_append`: a word of the name and the words it makes in capitals.
* `words_upper_iff`: which words a name in capitals has, and when it is spelt as the name is.
-/

namespace DirectiveLowering.Naming

open Text

variable {c last : Char} {s w lows digits rest after : List Char}

/-! ## Names without capitals -/

/-- The character is in ASCII and no capital. -/
def IsLow (c : Char) : Prop :=
  c.toNat < 128 ∧ c.isUpper = false

/-- The text consists of characters in ASCII that are no capitals. -/
def Low (s : List Char) : Prop :=
  ∀ c ∈ s, IsLow c

/-- What holds of the first 128 characters as far as they are no capitals. -/
theorem IsLow.of_forall {P : Char → Prop} (h : ∀ i, i < 128 → (Char.ofNat i).isUpper = false →
    P (Char.ofNat i)) (hc : IsLow c) : P c :=
  forall_ascii (P := fun c => c.isUpper = false → P c) h hc.1 hc.2

namespace IsLow

/-- Its only letters are the small ones. -/
theorem classes (h : IsLow c) : isCapital c = false ∧ isLetter c = isSmall c := by
  refine of_forall (P := fun c => isCapital c = false ∧ isLetter c = isSmall c) ?_ h
  decide +kernel

/-- In upper case small letters become capitals, and nothing else changes its class. -/
theorem upper_classes (h : IsLow c) : isCapital c.toUpper = isSmall c ∧ isSmall c.toUpper = false ∧
    isLetter c.toUpper = isLetter c ∧ isDecimalDigit c.toUpper = isDecimalDigit c := by
  refine of_forall (P := fun c => isCapital c.toUpper = isSmall c ∧ isSmall c.toUpper = false ∧
    isLetter c.toUpper = isLetter c ∧ isDecimalDigit c.toUpper = isDecimalDigit c) ?_ h
  decide +kernel

theorem toUpper_of_not_isSmall (h : IsLow c) (hc : isSmall c = false) : c.toUpper = c := by
  refine of_forall (P := fun c => isSmall c = false → c.toUpper = c) ?_ h hc
  decide +kernel

theorem eq_toLower_toUpper (h : IsLow c) : c.toUpper.toLower = c := by
  refine of_forall (P := fun c => c.toUpper.toLower = c) ?_ h
  decide +kernel

theorem endsOrdinal (h : IsLow c) : (!isWordChar c.toUpper || isAsciiSmallOrLine c.toUpper) =
    (!isWordChar c || isAsciiCapitalOrLine c) := by
  refine of_forall (P := fun c => (!isWordChar c.toUpper || isAsciiSmallOrLine c.toUpper) =
    (!isWordChar c || isAsciiCapitalOrLine c)) ?_ h
  decide +kernel

theorem eq_apostrophe (h : IsLow c) (hc : isApostrophe c = true) : c = '\x27' := by
  refine of_forall (P := fun c => isApostrophe c = true → c = '\x27') ?_ h hc
  decide +kernel

end IsLow

namespace Low

variable {a b : List Char}

theorem left (h : Low (a ++ b)) : Low a :=
  fun c hc => h c (List.mem_append_left b hc)

theorem right (h : Low (a ++ b)) : Low b :=
  fun c hc => h c (List.mem_append_right a hc)

theorem head (h : Low (c :: s)) : IsLow c :=
  h c List.mem_cons_self

theorem tail (h : Low (c :: s)) : Low s :=
  fun d hd => h d (List.mem_cons_of_mem c hd)

theorem upper_eq (h : Low s) : upper s = s.map Char.toUpper :=
  upper_of_ascii fun c hc => (h c hc).1

theorem leads_isLetter (h : Low s) : leads isLetter s = leads isSmall s := by
  cases s with
  | nil => rfl
  | cons c s => exact h.head.classes.2

theorem leads_upper (h : Low s) : leads isLetter (upper s) = leads isLetter s ∧
    leads isDecimalDigit (upper s) = leads isDecimalDigit s := by
  rw [h.upper_eq]
  cases s with
  | nil => exact ⟨rfl, rfl⟩
  | cons c s => exact h.head.upper_classes.2.2

theorem not_leads_of_atBreak (h : Low s) (hs : atBreak s = true) : leads isLetter s = false := by
  cases s with
  | nil => rfl
  | cons c s =>
    rw [atBreak, h.head.classes.1, Bool.or_false] at hs
    rw [leads_cons, isLetter, hs]
    rfl

theorem atBoundaryOr_upper (h : Low s) :
    atBoundaryOr isAsciiSmallOrLine (upper s) = atBoundaryOr isAsciiCapitalOrLine s := by
  rw [h.upper_eq]
  cases s with
  | nil => rfl
  | cons c s => exact h.head.endsOrdinal

end Low

/-! ## Letters -/

/-- Small letters are one word in capitals, without their contraction. -/
theorem words_upper_smalls (h : Low (lows ++ rest)) (hne : lows ≠ [])
    (hlows : ∀ c ∈ lows, isSmall c = true) (hrest : leads isLetter rest = false) :
    words (upper (lows ++ rest)) = upper lows :: words (upper rest) := by
  have hcaps : ∀ c ∈ upper lows, isCapital c = true := by
    rw [h.left.upper_eq]
    intro c hc
    obtain ⟨d, hd, rfl⟩ := List.mem_map.1 hc
    rw [(h.left d hd).upper_classes.1, hlows d hd]
  have hnonempty : upper lows ≠ [] := by
    rw [h.left.upper_eq]
    simpa using hne
  rw [upper_append]
  exact words_of_some
    (nextWord?_capitalRun hnonempty hcaps (h.right.leads_upper.1.trans hrest))

/-- Neither letters nor digits hold an apostrophe. -/
theorem splitOn_eq_singleton (hw : ∀ c ∈ w, isSeparator c = false) : w.splitOn '\x27' = [w] := by
  refine List.splitOn_eq_singleton fun hmem => ?_
  have hno := hw '\x27' hmem
  revert hno
  decide

theorem splitOn_of_smalls (hw : ∀ c ∈ w, isSmall c = true) : w.splitOn '\x27' = [w] :=
  splitOn_eq_singleton fun c hc => (isLetter_iff.1 (latin_of_isSmall (hw c hc)).1).1

/-- A contraction is a word of its own in capitals. -/
theorem words_upper_contracted {a : Char} {ending : List Char} (h : Low (lows ++ (a :: ending ++ after)))
    (hne : lows ≠ []) (hlows : ∀ c ∈ lows, isSmall c = true) (ha : isApostrophe a = true)
    (hending : ending ∈ smallContractions) (hafter : atBreak after = true) :
    words (upper (lows ++ (a :: ending ++ after))) =
      ((lows ++ a :: ending).splitOn '\x27').map upper ++ words (upper after) := by
  have hendings : smallContractions.all (fun e => !e.isEmpty && e.all isSmall) = true := by decide
  obtain ⟨hnonempty, hsmall⟩ : ending ≠ [] ∧ ∀ c ∈ ending, isSmall c = true := by
    simpa using List.all_eq_true.1 hendings ending hending
  have hlow : Low (a :: (ending ++ after)) := h.right
  obtain rfl := hlow.head.eq_apostrophe ha
  have hskip : upper ('\x27' :: ending ++ after) = '\x27' :: upper (ending ++ after) := rfl
  rw [words_upper_smalls h hne hlows rfl, hskip, words_of_none (nextWord?_of_separator rfl _),
    words_upper_smalls hlow.tail hnonempty hsmall (hlow.tail.right.not_leads_of_atBreak hafter),
    List.splitOn_append_cons_self, splitOn_of_smalls hlows, splitOn_of_smalls hsmall]
  rfl

/-- A word of small letters is a word in capitals, and so is its contraction. -/
theorem words_upper_letters (h : Low (lows ++ rest)) (hne : lows ≠ [])
    (hlows : ∀ c ∈ lows, isSmall c = true) (hrest : leads isSmall rest = false)
    (hnext : nextWord? (lows ++ rest) = some (w, after)) :
    words (upper (lows ++ rest)) = (w.splitOn '\x27').map upper ++ words (upper after) := by
  have hletter : leads isLetter rest = false := h.right.leads_isLetter.trans hrest
  have hother : leads (fun c => isSmall c || isOther c) rest = false :=
    leads_eq_false hletter fun c hc => (isSmall_or_isOther_iff.1 hc).1
  have hwhole : words (upper (lows ++ rest)) = (lows.splitOn '\x27').map upper ++ words (upper rest) := by
    rw [words_upper_smalls h hne hlows hletter, splitOn_of_smalls hlows]
    rfl
  have hcut := cutContraction_append smallContractions rest
  have hcases := cutContraction_cases smallContractions rest
  obtain ⟨⟨contraction, tail⟩, hcontraction⟩ : ∃ cut, cutContraction smallContractions rest = cut :=
    ⟨_, rfl⟩
  rw [hcontraction] at hcut hcases
  rw [nextWord?_smallRun hne hlows hother hcontraction] at hnext
  split at hnext
  next hbreak =>
    obtain ⟨rfl, rfl⟩ := Prod.mk.inj (Option.some.inj hnext)
    rcases hcases with hnone | ⟨a, ending, hending, ha, hsome⟩
    · obtain rfl : contraction = [] := hnone
      obtain rfl : tail = rest := hcut
      rw [List.append_nil]
      exact hwhole
    · obtain rfl : contraction = a :: ending := hsome
      obtain rfl : a :: ending ++ tail = rest := hcut
      exact words_upper_contracted h hne hlows ha hending hbreak
  next =>
    obtain ⟨rfl, rfl⟩ := Prod.mk.inj (Option.some.inj hnext)
    exact hwhole

/-! ## Numbers -/

theorem capitalOrdinal_eq_upper (last : Char) : capitalOrdinal last = upper (smallOrdinal last) := by
  unfold capitalOrdinal smallOrdinal
  repeat' split
  all_goals decide +kernel

theorem isPrefixOf_eq_false {l : List Char} {p : Char → Bool} (hl : ∃ c ∈ l, p c = true)
    (hs : ∀ c ∈ s, p c = false) : l.isPrefixOf s = false := by
  rw [Bool.eq_false_iff]
  intro hprefix
  obtain ⟨c, hc, hpc⟩ := hl
  rw [hs c ((List.isPrefixOf_iff_prefix.1 hprefix).subset hc)] at hpc
  cases hpc

theorem smallOrdinal_spec (last : Char) : Low (smallOrdinal last) ∧ (smallOrdinal last).length = 2 ∧
    (∀ c ∈ smallOrdinal last, isSeparator c = false) ∧ ∃ c ∈ smallOrdinal last, isSmall c = true := by
  have hspec : ∀ letters ∈ [['s', 't'], ['n', 'd'], ['r', 'd'], ['t', 'h']],
      letters.all (fun c => c.toNat < 128 && !c.isUpper && !isSeparator c) ∧ letters.length = 2 ∧
        letters.any isSmall = true := by decide
  have hmem : smallOrdinal last ∈ [['s', 't'], ['n', 'd'], ['r', 'd'], ['t', 'h']] := by
    unfold smallOrdinal
    repeat' split
    all_goals simp
  obtain ⟨hall, htwo, hsmall⟩ := hspec _ hmem
  simp only [List.all_eq_true, Bool.and_eq_true, decide_eq_true_eq, Bool.not_eq_true'] at hall
  exact ⟨fun c hc => (hall c hc).1, htwo, fun c hc => (hall c hc).2, List.any_eq_true.1 hsmall⟩

/-- In capitals the letters of an ordinal start a text exactly if they start it in small letters. -/
theorem isPrefixOf_upper (h : Low rest) (last : Char) :
    (capitalOrdinal last).isPrefixOf (upper rest) = (smallOrdinal last).isPrefixOf rest := by
  have hback : ∀ {u : List Char}, Low u → (u.map Char.toUpper).map Char.toLower = u := by
    intro u hu
    rw [List.map_map]
    exact (List.map_congr_left fun c hc => (hu c hc).eq_toLower_toUpper).trans (List.map_id u)
  have hlow := (smallOrdinal_spec last).1
  rw [Bool.eq_iff_iff, List.isPrefixOf_iff_prefix, List.isPrefixOf_iff_prefix,
    capitalOrdinal_eq_upper, hlow.upper_eq, h.upper_eq]
  constructor
  · intro hprefix
    have hlower := hprefix.map Char.toLower
    rwa [hback hlow, hback h] at hlower
  · exact fun hprefix => hprefix.map Char.toUpper

section Numbers

variable (h : Low rest) (hdigits : ∀ c ∈ digits, isDecimalDigit c = true)
  (hlast : digits.getLast? = some last) (hrest : leads isDecimalDigit rest = false)
include h hdigits hlast hrest

theorem nextWord?_of_number_small : nextWord? (digits ++ rest) =
    if (smallOrdinal last).isPrefixOf rest && atBoundaryOr isAsciiCapitalOrLine (rest.drop 2) then
      some (digits ++ smallOrdinal last, rest.drop 2)
    else some (digits, rest) := by
  have htwo := (smallOrdinal_spec last).2.1
  have hno := isPrefixOf_eq_false (exists_isCapital_capitalOrdinal last) fun c hc => (h c hc).classes.1
  rw [nextWord?_of_digits hdigits hlast hrest, ordinal?_of_parts _ _ hdigits hlast hrest,
    ordinal?_of_parts _ _ hdigits hlast hrest, hno, htwo, Bool.false_and, if_neg Bool.false_ne_true]
  split <;> rfl

theorem nextWord?_of_number_capital : nextWord? (digits ++ upper rest) =
    if (smallOrdinal last).isPrefixOf rest && atBoundaryOr isAsciiCapitalOrLine (rest.drop 2) then
      some (digits ++ capitalOrdinal last, upper (rest.drop 2))
    else some (digits, upper rest) := by
  obtain ⟨hlow, htwo, -, hsmall⟩ := smallOrdinal_spec last
  have hstop := h.leads_upper.2.trans hrest
  have hno : (smallOrdinal last).isPrefixOf (upper rest) = false := by
    refine isPrefixOf_eq_false hsmall ?_
    rw [h.upper_eq]
    intro c hc
    obtain ⟨d, hd, rfl⟩ := List.mem_map.1 hc
    exact (h d hd).upper_classes.2.1
  have hlength : (capitalOrdinal last).length = 2 := by
    rw [capitalOrdinal_eq_upper, hlow.upper_eq, List.length_map, htwo]
  have hdrop : (upper rest).drop 2 = upper (rest.drop 2) := by
    have hlow' : Low (rest.drop 2) := fun c hc => h c (List.mem_of_mem_drop hc)
    rw [h.upper_eq, hlow'.upper_eq, List.map_drop]
  have hboundary := Low.atBoundaryOr_upper fun c hc => h c (List.mem_of_mem_drop (i := 2) hc)
  rw [nextWord?_of_digits hdigits hlast hstop, ordinal?_of_parts _ _ hdigits hlast hstop,
    ordinal?_of_parts _ _ hdigits hlast hstop, hno, isPrefixOf_upper h, hlength, hdrop, hboundary,
    Bool.false_and, if_neg Bool.false_ne_true]
  split <;> rfl

end Numbers

/-- A number is the same number in capitals, with or without the letters of an ordinal. -/
theorem words_upper_number (h : Low (digits ++ rest)) (hdigits : ∀ c ∈ digits, isDecimalDigit c = true)
    (hlast : digits.getLast? = some last) (hrest : leads isDecimalDigit rest = false)
    (hnext : nextWord? (digits ++ rest) = some (w, after)) :
    words (upper (digits ++ rest)) = (w.splitOn '\x27').map upper ++ words (upper after) := by
  have hsame : upper digits = digits := by
    rw [h.left.upper_eq]
    refine (List.map_congr_left fun c hc => ?_).trans (List.map_id digits)
    exact (h.left c hc).toUpper_of_not_isSmall (not_latin_of_isDecimalDigit (hdigits c hc)).2
  have hplain : ∀ c ∈ digits, isSeparator c = false :=
    fun c hc => isSeparator_of_isDecimalDigit (hdigits c hc)
  have hcapital := nextWord?_of_number_capital h.right hdigits hlast hrest
  rw [nextWord?_of_number_small h.right hdigits hlast hrest] at hnext
  rw [upper_append, hsame]
  split at hnext
  next htakes =>
    obtain ⟨rfl, rfl⟩ := Prod.mk.inj (Option.some.inj hnext)
    have hletters := (smallOrdinal_spec last).2.2.1
    rw [if_pos htakes] at hcapital
    rw [words_of_some hcapital, splitOn_eq_singleton (List.forall_mem_append.2 ⟨hplain, hletters⟩),
      capitalOrdinal_eq_upper, List.map_singleton, upper_append, hsame]
    rfl
  next htakes =>
    obtain ⟨rfl, rfl⟩ := Prod.mk.inj (Option.some.inj hnext)
    rw [if_neg htakes] at hcapital
    rw [words_of_some hcapital, splitOn_eq_singleton hplain, List.map_singleton, hsame]
    rfl

/-! ## Names in capitals -/

/-- **A word of the name is the same word in capitals, cut at its apostrophe**, with the same text after
it. -/
theorem words_upper_append (h : Low (w ++ after)) (hnext : nextWord? (w ++ after) = some (w, after)) :
    words (upper (w ++ after)) = (w.splitOn '\x27').map upper ++ words (upper after) := by
  obtain ⟨c, v, hw⟩ := List.exists_cons_of_ne_nil (nextWord?_ne_nil hnext)
  obtain ⟨s, hs⟩ : ∃ s, w ++ after = c :: s := ⟨v ++ after, by rw [hw, List.cons_append]⟩
  rw [hs] at h hnext ⊢
  cases hsmall : isSmall c with
  | true =>
    obtain ⟨lows, rest, hsplit, hlows, hrest, hnonempty⟩ := exists_split isSmall (c :: s)
    have hne := hnonempty hsmall
    rw [hsplit] at h hnext ⊢
    exact words_upper_letters h hne hlows hrest hnext
  | false =>
    have hdigit : isDecimalDigit c = true := by
      have hletter : isLetter c = false := h.head.classes.2.trans hsmall
      rw [isLetter, Bool.not_eq_false', Bool.or_eq_true] at hletter
      refine hletter.resolve_left fun hseparator => ?_
      rw [nextWord?_of_separator hseparator] at hnext
      cases hnext
    obtain ⟨digits, rest, hsplit, hdigits, hrest, hnonempty⟩ := exists_split isDecimalDigit (c :: s)
    obtain ⟨last, hlast⟩ : ∃ last, digits.getLast? = some last :=
      Option.isSome_iff_exists.1 (by simpa using hnonempty hdigit)
    rw [hsplit] at h hnext ⊢
    exact words_upper_number h hdigits hlast hrest hnext

theorem words_upper (h : Low s) :
    words (upper s) = (words s).flatMap fun w => (w.splitOn '\x27').map upper := by
  induction s using words_induct with
  | nil => rfl
  | gap c rest hnone ih =>
    have hseparator := isSeparator_of_nextWord?_none hnone
    have hsmall : isSmall c = false := by
      rw [Bool.eq_false_iff]
      intro hsmall
      rw [(isLetter_iff.1 (latin_of_isSmall hsmall).1).1] at hseparator
      cases hseparator
    have hupper : upper (c :: rest) = c :: upper rest := by
      rw [upper, List.flatMap_cons, upperChar_of_ascii h.head.1, h.head.toUpper_of_not_isSmall hsmall]
      rfl
    rw [hupper, words_of_none (nextWord?_of_separator hseparator _), words_of_none hnone, ih h.tail]
  | word w after hnext ih =>
    rw [words_upper_append h hnext, words_of_some hnext, List.flatMap_cons, ih h.right]

/-- An apostrophe in a word comes before small letters, so the words of a name in capitals have none. -/
theorem not_mem_of_mem_words_upper (h : Low s) (hw : w ∈ words (upper s)) : '\x27' ∉ w := by
  intro hmem
  have hendings : smallContractions.all (·.any isSmall) = true := by decide
  obtain ⟨u, a, ending, rfl, -, -, hending, -⟩ := (shape_of_mem_words hw).separator hmem rfl
  obtain ⟨c, hc, hsmall⟩ := List.any_eq_true.1 (List.all_eq_true.1 hendings ending hending)
  have hupper : c ∈ upper s := subset_of_mem_words hw (by simp [hc])
  rw [h.upper_eq] at hupper
  obtain ⟨d, hd, rfl⟩ := List.mem_map.1 hupper
  rw [(h d hd).upper_classes.2.1] at hsmall
  cases hsmall

theorem Low.ascii_upper (h : Low s) : ∀ c ∈ upper s, c.toNat < 128 := by
  rw [h.upper_eq]
  intro c hc
  obtain ⟨d, hd, rfl⟩ := List.mem_map.1 hc
  refine forall_ascii (P := fun d => d.toUpper.toNat < 128) ?_ (h d hd).1
  decide +kernel

theorem Low.lower_upper (h : Low s) : lower (upper s) = lower s := by
  rw [lower_of_ascii h.ascii_upper, lower_of_ascii fun c hc => (h c hc).1, h.upper_eq, List.map_map]
  exact List.map_congr_left fun c hc => toLower_toUpper (h c hc).1

/-- **A name in capitals has the words of the name, cut at their apostrophes.** So it has the words of the name
in capitals, and is spelt as the name is in each casing, exactly if no word has a contraction. -/
theorem words_upper_iff (s : List Char) (h : ∀ c ∈ s, c.toNat < 128 ∧ c.isUpper = false) :
    words (upper s) = (words s).flatMap (fun w => (w.splitOn '\x27').map upper) ∧
      (words (upper s) = (words s).map upper ↔ ∀ w ∈ words s, '\x27' ∉ w) ∧
      ∀ casing : Casing, casing ≠ .unchanged →
        (casing.chars (upper s) = casing.chars s ↔ ∀ w ∈ words s, '\x27' ∉ w) := by
  have hlow : Low s := h
  have hword : ∀ w ∈ words s, Low w := fun w hw c hc => hlow c (subset_of_mem_words hw hc)
  have hsame : (∀ w ∈ words s, '\x27' ∉ w) → words (upper s) = (words s).map upper := by
    intro hnone
    rw [words_upper hlow, List.map_eq_flatMap]
    refine List.flatMap_congr fun w hw => ?_
    rw [List.splitOn_eq_singleton (hnone w hw), List.map_singleton]
  refine ⟨words_upper hlow, ⟨fun heq w hw hmem => ?_, hsame⟩, fun casing hcasing =>
    ⟨fun heq w hw hmem => ?_, fun hnone => ?_⟩⟩
  · -- the word in capitals would have the apostrophe too
    have hupper : upper w ∈ words (upper s) := by
      rw [heq]
      exact List.mem_map_of_mem hw
    refine not_mem_of_mem_words_upper hlow hupper ?_
    rw [(hword w hw).upper_eq]
    exact List.mem_map_of_mem (f := Char.toUpper) hmem
  · -- the name would be spelt with an apostrophe that its capitals lack
    have hspelt := (apostrophe_mem_chars hcasing fun c hc => (hlow c hc).1).2 ⟨w, hw, hmem⟩
    rw [← heq, apostrophe_mem_chars hcasing hlow.ascii_upper] at hspelt
    obtain ⟨v, hv, happ⟩ := hspelt
    exact not_mem_of_mem_words_upper hlow hv happ
  · refine Casing.chars_congr hcasing ?_
    rw [hsame hnone, List.map_map]
    exact List.map_congr_left fun w hw => (hword w hw).lower_upper

/-- Ordinals are found in either case, a contraction in small letters alone. -/
theorem words_upper_iff_ordinal :
    (∀ c ∈ "my-2nd_item".toList, c.toNat < 128 ∧ c.isUpper = false) ∧
      words (upper "my-2nd_item".toList) = (words "my-2nd_item".toList).map upper ∧
      Casing.camel.chars (upper "my-2nd_item".toList) = Casing.camel.chars "my-2nd_item".toList := by
  have hlow : ∀ c ∈ "my-2nd_item".toList, c.toNat < 128 ∧ c.isUpper = false := by simp
  have hnone : ∀ w ∈ words "my-2nd_item".toList, '\x27' ∉ w := by decide +kernel
  obtain ⟨-, hwords, hchars⟩ := words_upper_iff _ hlow
  exact ⟨hlow, hwords.2 hnone, (hchars .camel (by decide)).2 hnone⟩

/-- A contraction makes the difference. -/
theorem words_upper_contraction :
    (∀ c ∈ "don\x27t".toList, c.toNat < 128 ∧ c.isUpper = false) ∧
      words (upper "don\x27t".toList) ≠ (words "don\x27t".toList).map upper ∧
      ∀ casing ∈ [Casing.camel, .pascal, .kebab, .snake],
        casing.chars (upper "don\x27t".toList) ≠ casing.chars "don\x27t".toList := by
  refine ⟨by simp, ?_, ?_⟩
  · decide +kernel
  · decide +kernel

end DirectiveLowering.Naming
