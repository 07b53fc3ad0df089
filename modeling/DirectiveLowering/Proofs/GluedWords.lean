import Mathlib.Data.List.Chain
import DirectiveLowering.Proofs.PlainPatterns
import DirectiveLowering.Proofs.Spelling

/-!
# Words of glued names

Words that are glued without a joint are told apart by a capital or a digit. In ASCII a piece is a word in
lower case that leaves such a mark: letters with a capital and a small letter at least, or a number, perhaps
with the letters of its ordinal. A number would run into another one, and a single capital into the next
capitalised word; everything else is found again behind whatever pieces there are.

Results:
* `Piece.nextWord?`: a piece is found before another one, with or without its capital.
* `words_glue`, `words_flatMap_upperFirst`: glued pieces are found again.
* `chars_chars`: every casing can be undone by every other one.
-/

namespace DirectiveLowering.Naming

open Text

variable {last : Char} {s v w digits lows rest : List Char} {ws : List (List Char)}

/-! ## Pieces -/

/-- A lower-case word that is found again when it is glued to others. -/
inductive Piece : List Char → Prop
  /-- It consists of small letters, two of them at least. -/
  | letters {lows : List Char} : 2 ≤ lows.length → (∀ c ∈ lows, c.isLower = true) → Piece lows
  /-- It is a number. -/
  | number {digits : List Char} : digits ≠ [] → (∀ c ∈ digits, c.isDigit = true) → Piece digits
  /-- It is a number with the small letters of its ordinal. -/
  | ordinal {digits : List Char} {last : Char} : (∀ c ∈ digits, c.isDigit = true) →
      digits.getLast? = some last → Piece (digits ++ smallOrdinal last)

/-- How a text goes on behind a piece: not at all, with a capitalised word, or with a number. -/
inductive Continues : List Char → Prop
  | done : Continues []
  | capitalised {a b : Char} {t : List Char} : a.isUpper = true → b.isLower = true → Continues (a :: b :: t)
  | number {a : Char} {t : List Char} : a.isDigit = true → Continues (a :: t)

theorem Continues.not_leads_isLower (h : Continues rest) : leads Char.isLower rest = false := by
  cases h with
  | done => rfl
  | capitalised ha _ => exact not_isLower_of_isUpper ha
  | number ha => exact not_isLower_of_isDigit ha

/-! ## Numbers before other words -/

/-- The letters of an ordinal are capitals. -/
theorem ordinalLetters_spec (last : Char) :
    ((ordinalLetters last).1.isUpper = true ∧ (ordinalLetters last).2.isUpper = true) ∧
      (ordinalLetters last).1.toLower.isLower = true ∧ (ordinalLetters last).2.toLower.isLower = true := by
  unfold ordinalLetters
  repeat' split
  all_goals decide

/-- A number does not take the letters of a capitalised word. -/
theorem takesLetters_of_continues (h : Continues rest) (hdigit : leads Char.isDigit rest = false) :
    takesLetters last rest = false := by
  obtain ⟨⟨-, hy⟩, hx, -⟩ := ordinalLetters_spec last
  cases h with
  | done => rfl
  | @capitalised a b t ha hb =>
    have hcapital : b ≠ (ordinalLetters last).2 := by
      rintro rfl
      rw [not_isUpper_of_isLower hb] at hy
      cases hy
    have hsmall : a ≠ (ordinalLetters last).1.toLower := by
      rintro rfl
      rw [not_isUpper_of_isLower hx] at ha
      cases ha
    simp [takesLetters, hcapital, hsmall]
  | number ha =>
    rw [leads_cons, ha] at hdigit
    cases hdigit

/-- A number takes the letters of its ordinal from a capitalised word or the end. -/
theorem takesLetters_smallOrdinal (h : Continues rest) (hdigit : leads Char.isDigit rest = false) :
    takesLetters last (smallOrdinal last ++ rest) = true := by
  have hnext : (rest.head?.any fun c => c.isDigit || c.isLower) = false := by
    have hlower := h.not_leads_isLower
    cases rest with
    | nil => rfl
    | cons c rest =>
      rw [leads_cons] at hdigit hlower
      rw [List.head?_cons, Option.any_some, hdigit, hlower]
      rfl
  rw [smallOrdinal_eq]
  simp [takesLetters, hnext]

/-! ## A piece before others -/

theorem isPlain_of_isAlphanum {c : Char} (h : c.isAlphanum = true) : IsPlain c := by
  rw [isAlphanum_eq, Bool.or_eq_true, Bool.or_eq_true] at h
  have hrange : 48 ≤ c.toNat ∧ c.toNat < 128 := by
    rcases h with (h | h) | h
    · have := toNat_of_isUpper h; omega
    · have := toNat_of_isLower h; omega
    · have := toNat_of_isDigit h; omega
  refine ⟨hrange.2, ?_⟩
  rintro rfl
  exact absurd hrange.1 (by decide)

theorem isAlphanum_smallOrdinal (last : Char) : ∀ c ∈ smallOrdinal last, c.isLower = true := by
  unfold smallOrdinal
  repeat' split
  all_goals exact List.all_eq_true.1 rfl

namespace Piece

theorem isAlphanum (h : Piece w) : ∀ c ∈ w, c.isAlphanum = true := by
  have hsmall : ∀ {c : Char}, c.isLower = true → c.isAlphanum = true := fun h => by
    rw [isAlphanum_eq, h, Bool.or_true, Bool.true_or]
  have hnumber : ∀ {c : Char}, c.isDigit = true → c.isAlphanum = true := fun h => by
    rw [isAlphanum_eq, h, Bool.or_true]
  cases h with
  | letters _ hlows => exact fun c hc => hsmall (hlows c hc)
  | number _ hdigits => exact fun c hc => hnumber (hdigits c hc)
  | ordinal hdigits _ =>
    exact List.forall_mem_append.2 ⟨fun c hc => hnumber (hdigits c hc),
      fun c hc => hsmall (isAlphanum_smallOrdinal _ c hc)⟩

theorem ne_nil (h : Piece w) : w ≠ [] := by
  cases h with
  | letters hlength _ => exact List.ne_nil_of_length_pos (by omega)
  | number hne _ => exact hne
  | ordinal _ hlast =>
    refine List.append_ne_nil_of_left_ne_nil ?_ _
    rintro rfl
    cases hlast

/-- With its first letter in upper case a piece is a capitalised word or the same number. -/
theorem upperFirst_cases (h : Piece w) :
    (∃ a b lows, upperFirst w = a :: b :: lows ∧ a.isUpper = true ∧ ∀ c ∈ b :: lows, c.isLower = true) ∨
      leads Char.isDigit w = true ∧ upperFirst w = w := by
  have hnumber : ∀ {c : Char} {t : List Char}, c.isDigit = true → upperFirst (c :: t) = c :: t := by
    intro c t hc
    have hascii : c.toNat < 128 := by have := toNat_of_isDigit hc; omega
    have hsame : c.toUpper = c := by
      refine forall_ascii (P := fun c => c.isDigit = true → c.toUpper = c) ?_ hascii hc
      decide +kernel
    rw [upperFirst, upperChar_of_ascii hascii, hsame, List.singleton_append]
  cases h with
  | letters hlength hlows =>
    obtain ⟨c, t, rfl⟩ := List.exists_cons_of_length_pos (l := w) (by omega)
    rw [List.length_cons] at hlength
    obtain ⟨b, lows, rfl⟩ := List.exists_cons_of_length_pos (l := t) (by omega)
    have hc := hlows c List.mem_cons_self
    have hascii : c.toNat < 128 := by have := toNat_of_isLower hc; omega
    have hupper : c.toUpper.isUpper = true := by
      refine forall_ascii (P := fun c => c.isLower = true → c.toUpper.isUpper = true) ?_ hascii hc
      decide +kernel
    refine Or.inl ⟨c.toUpper, b, lows, ?_, hupper, fun d hd => hlows d (List.mem_cons_of_mem c hd)⟩
    rw [upperFirst, upperChar_of_ascii hascii, List.singleton_append]
  | number hne hdigits =>
    obtain ⟨c, t, rfl⟩ := List.exists_cons_of_ne_nil hne
    have hc := hdigits c List.mem_cons_self
    exact Or.inr ⟨hc, hnumber hc⟩
  | @ordinal digits _ hdigits hlast =>
    cases digits with
    | nil => cases hlast
    | cons c t =>
      have hc := hdigits c List.mem_cons_self
      exact Or.inr ⟨hc, hnumber hc⟩

theorem plain (h : Piece w) : Plain w :=
  fun c hc => isPlain_of_isAlphanum (h.isAlphanum c hc)

theorem plain_upperFirst (h : Piece w) : Plain (upperFirst w) := by
  rcases h.upperFirst_cases with ⟨a, b, lows, hupper, ha, hlows⟩ | ⟨-, hsame⟩
  · rw [hupper]
    intro c hc
    refine isPlain_of_isAlphanum ?_
    rcases List.mem_cons.1 hc with rfl | hc
    · rw [isAlphanum_eq, ha, Bool.true_or, Bool.true_or]
    · rw [isAlphanum_eq, hlows c hc, Bool.or_true, Bool.true_or]
  · rw [hsame]
    exact h.plain

theorem continues (h : Piece w) (rest : List Char) : Continues (upperFirst w ++ rest) := by
  rcases h.upperFirst_cases with ⟨a, b, lows, hupper, ha, hlows⟩ | ⟨hdigit, hsame⟩
  · rw [hupper]
    exact .capitalised ha (hlows b List.mem_cons_self)
  · rw [hsame]
    obtain ⟨c, t, rfl⟩ := List.exists_cons_of_ne_nil h.ne_nil
    exact .number hdigit

/-- **A piece is found before others.** -/
theorem nextWord? (h : Piece w) (hplain : Plain rest) (hrest : Continues rest)
    (hapart : leads Char.isDigit w = true → leads Char.isDigit rest = false) :
    nextWord? (w ++ rest) = some (w, rest) := by
  have hwhole : Plain (w ++ rest) := List.forall_mem_append.2 ⟨h.plain, hplain⟩
  cases h with
  | letters hlength hlows =>
    exact nextWord?_small hwhole (List.ne_nil_of_length_pos (by omega)) hlows hrest.not_leads_isLower
  | number hne hdigits =>
    obtain ⟨last, hlast⟩ : ∃ last, w.getLast? = some last :=
      Option.isSome_iff_exists.1 (by simpa using hne)
    have hstop : leads Char.isDigit rest = false := hapart (by
      obtain ⟨c, t, rfl⟩ := List.exists_cons_of_ne_nil hne
      exact hdigits c List.mem_cons_self)
    rw [nextWord?_number hwhole hdigits hstop hlast, takesLetters_of_continues hrest hstop]
    rfl
  | @ordinal digits last hdigits hlast =>
    have hstop : leads Char.isDigit rest = false := hapart (by
      cases digits with
      | nil => cases hlast
      | cons c t => exact hdigits c List.mem_cons_self)
    obtain ⟨hlength, hlead⟩ : (smallOrdinal last).length = 2 ∧
        leads Char.isDigit (smallOrdinal last ++ rest) = false := by
      rw [smallOrdinal_eq]
      exact ⟨rfl, not_isDigit_of_isLower (ordinalLetters_spec last).2.1⟩
    rw [List.append_assoc] at hwhole ⊢
    rw [nextWord?_number hwhole hdigits hlead hlast, takesLetters_smallOrdinal hrest hstop,
      List.take_left' hlength, List.drop_left' hlength]
    rfl

/-- **So is a piece with a capital.** -/
theorem nextWord?_upperFirst (h : Piece w) (hplain : Plain rest) (hrest : Continues rest)
    (hapart : leads Char.isDigit w = true → leads Char.isDigit rest = false) :
    Naming.nextWord? (upperFirst w ++ rest) = some (upperFirst w, rest) := by
  have hwhole : Plain (upperFirst w ++ rest) := List.forall_mem_append.2 ⟨h.plain_upperFirst, hplain⟩
  rcases h.upperFirst_cases with ⟨a, b, lows, hupper, ha, hlows⟩ | ⟨-, hsame⟩
  · rw [hupper] at hwhole ⊢
    exact nextWord?_capitalised hwhole ha (List.cons_ne_nil b lows) hlows hrest.not_leads_isLower
  · rw [hsame]
    exact h.nextWord? hplain hrest hapart

end Piece

/-! ## Glued pieces -/

/-- No two numbers come next to each other. -/
def NumbersApart (ws : List (List Char)) : Prop :=
  ws.IsChain fun v w => ¬ (leads Char.isDigit v = true ∧ leads Char.isDigit w = true)

theorem continues_flatMap (hws : ∀ w ∈ ws, Piece w) : Continues (ws.flatMap upperFirst) := by
  cases ws with
  | nil => exact .done
  | cons w ws => exact (hws w List.mem_cons_self).continues _

theorem plain_flatMap (hws : ∀ w ∈ ws, Piece w) : Plain (ws.flatMap upperFirst) := by
  intro c hc
  obtain ⟨w, hw, hc⟩ := List.mem_flatMap.1 hc
  exact (hws w hw).plain_upperFirst c hc

theorem not_leads_isDigit_flatMap (hws : ∀ v ∈ ws, Piece v) (hapart : NumbersApart (w :: ws))
    (hw : leads Char.isDigit w = true) : leads Char.isDigit (ws.flatMap upperFirst) = false := by
  cases ws with
  | nil => rfl
  | cons v ws =>
    rw [List.flatMap_cons]
    rcases (hws v List.mem_cons_self).upperFirst_cases with ⟨a, b, lows, hupper, ha, -⟩ | ⟨hv, -⟩
    · rw [hupper]
      exact not_isDigit_of_isUpper ha
    · exact absurd ⟨hw, hv⟩ (List.isChain_cons_cons.1 hapart).1

/-- Pieces that are glued with a capital each are found again. -/
theorem words_flatMap_upperFirst (hws : ∀ w ∈ ws, Piece w) (hapart : NumbersApart ws) :
    words (ws.flatMap upperFirst) = ws.map upperFirst := by
  induction ws with
  | nil => rfl
  | cons w ws ih =>
    have hothers : ∀ v ∈ ws, Piece v := fun v hv => hws v (List.mem_cons_of_mem w hv)
    have hnext := (hws w List.mem_cons_self).nextWord?_upperFirst (plain_flatMap hothers)
      (continues_flatMap hothers) (not_leads_isDigit_flatMap hothers hapart)
    rw [List.flatMap_cons, words_of_some hnext, ih hothers hapart.tail, List.map_cons]

/-- So are pieces of which the first one has none. -/
theorem words_glue (hw : Piece w) (hws : ∀ v ∈ ws, Piece v) (hapart : NumbersApart (w :: ws)) :
    words (glue (w :: ws)) = w :: ws.map upperFirst := by
  have hnext := hw.nextWord? (plain_flatMap hws) (continues_flatMap hws)
    (not_leads_isDigit_flatMap hws hapart)
  rw [glue, words_of_some hnext, words_flatMap_upperFirst hws hapart.tail]

/-! ## Words of names -/

theorem upperFirst_append (h : v ≠ []) : upperFirst (v ++ w) = upperFirst v ++ w := by
  cases v with
  | nil => exact absurd rfl h
  | cons c v => rw [List.cons_append, upperFirst, upperFirst, List.append_assoc]

/-- **Names keep their words in each casing**, in lower case. -/
theorem map_lower_words_chars {casing : Casing} (hcasing : casing ≠ .unchanged)
    (hws : ∀ w ∈ (words s).map lower, Piece w) (hapart : NumbersApart ((words s).map lower)) :
    (words (casing.chars s)).map lower = (words s).map lower := by
  have hsame : ((words s).map lower).map lower = (words s).map lower := by
    rw [List.map_map]
    exact List.map_congr_left fun w _ => lower_lower w
  have hjoined : ∀ {joint : Char}, IsJoint joint →
      (words (joinedCase joint s)).map lower = (words s).map lower := by
    intro joint hj
    rw [words_joinedCase hj, hsame]
  have hcamel := camelCase_eq s
  generalize (words s).map lower = ws at hws hapart hsame hjoined hcamel
  have hcapitals : ∀ {ws : List (List Char)}, (∀ w ∈ ws, Piece w) →
      (ws.map upperFirst).map lower = ws.map lower := by
    intro ws hws
    rw [List.map_map]
    exact List.map_congr_left fun w hw => lower_upperFirst fun c hc => ((hws w hw).plain c hc).1
  cases casing with
  | camel =>
    rw [Casing.chars, hcamel]
    cases ws with
    | nil => rfl
    | cons w ws =>
      have hothers : ∀ v ∈ ws, Piece v := fun v hv => hws v (List.mem_cons_of_mem w hv)
      rw [words_glue (hws w List.mem_cons_self) hothers hapart, List.map_cons, hcapitals hothers,
        ← List.map_cons, hsame]
  | pascal =>
    have hpascal : upperFirst (glue ws) = ws.flatMap upperFirst := by
      cases ws with
      | nil => rfl
      | cons first others => exact upperFirst_append (hws first List.mem_cons_self).ne_nil
    rw [Casing.chars, pascalCase, hcamel, hpascal, words_flatMap_upperFirst hws hapart, hcapitals hws,
      hsame]
  | kebab => exact hjoined (Or.inl rfl)
  | snake => exact hjoined (Or.inr rfl)
  | unchanged => exact absurd rfl hcasing

theorem leads_isDigit_lower (h : ∀ c ∈ w, c.toNat < 128) :
    leads Char.isDigit (lower w) = leads Char.isDigit w := by
  rw [lower_of_ascii h]
  cases w with
  | nil => rfl
  | cons c w =>
    refine forall_ascii (P := fun c => c.toLower.isDigit = c.isDigit) ?_ (h c List.mem_cons_self)
    decide +kernel

/-- A word of a plain name is a piece in lower case if it has two letters or starts with a digit. -/
theorem piece_lower (hplain : Plain s) (hw : w ∈ words s)
    (hlong : 2 ≤ w.length ∨ leads Char.isDigit w = true) : Piece (lower w) := by
  have hascii : ∀ c ∈ w, c.toNat < 128 := fun c hc => (hplain c (subset_of_mem_words hw hc)).1
  have hlower : Plain (lower w) := by
    intro c hc
    refine ⟨ascii_lower hascii c hc, ?_⟩
    rintro rfl
    exact (hplain _ (subset_of_mem_words hw ((apostrophe_mem_lower hascii).1 hc))).2 rfl
  have hcapital : ∀ c ∈ lower w, isCapital c = false :=
    fun c hc => isCapital_of_settled (settled_of_mem_lower hc)
  have hlong' : 2 ≤ (lower w).length ∨ leads Char.isDigit (lower w) = true := by
    rw [leads_isDigit_lower hascii, lower_of_ascii hascii, List.length_map]
    exact hlong
  have hshape := (shape_of_mem_words hw).lower
  generalize lower w = v at hlower hcapital hlong' hshape
  cases hshape with
  | letters hne hletters =>
    have hlows : ∀ c ∈ v, c.isLower = true := by
      intro c hc
      have hletter := hletters c hc
      have hupper := hcapital c hc
      rw [(hlower c hc).capital] at hupper
      rwa [(hlower c hc).letter, isAlpha_eq, hupper, Bool.false_or] at hletter
    refine .letters (hlong'.resolve_right fun hdigit => ?_) hlows
    obtain ⟨c, t, rfl⟩ := List.exists_cons_of_ne_nil hne
    rw [leads_cons, not_isDigit_of_isLower (hlows c List.mem_cons_self)] at hdigit
    cases hdigit
  | @contracted u ending a hu hsmall ha hending =>
    rw [(hlower a (by simp)).apostrophe] at ha
    cases ha
  | number hne hdigits => exact .number hne fun c hc => (hlower c hc).digit.symm.trans (hdigits c hc)
  | @ordinal digits letters last hdigits hlast hletters =>
    rcases hletters with rfl | rfl
    · exact .ordinal (fun c hc => (hlower.left c hc).digit.symm.trans (hdigits c hc)) hlast
    · obtain ⟨c, hc, hc'⟩ := exists_isCapital_capitalOrdinal last
      rw [hcapital c (List.mem_append_right digits hc)] at hc'
      cases hc'

/-- **Every casing is undone by every other one** on ASCII names without apostrophes whose words have two
letters at least or start with a digit, no two that start with a digit next to each other. -/
theorem chars_chars (s : List Char) (hplain : ∀ c ∈ s, c.toNat < 128 ∧ c ≠ '\x27')
    (hlong : ∀ w ∈ words s, 2 ≤ w.length ∨ leads Char.isDigit w = true)
    (hapart : (words s).IsChain fun v w => ¬ (leads Char.isDigit v = true ∧ leads Char.isDigit w = true))
    (X Y : Casing) (hX : X ≠ .unchanged) (hY : Y ≠ .unchanged) :
    X.chars (Y.chars s) = X.chars s := by
  have hascii : ∀ w ∈ words s, ∀ c ∈ w, c.toNat < 128 :=
    fun w hw c hc => (hplain c (subset_of_mem_words hw hc)).1
  have hpieces : ∀ w ∈ (words s).map lower, Piece w := by
    intro w hw
    obtain ⟨v, hv, rfl⟩ := List.mem_map.1 hw
    exact piece_lower hplain hv (hlong v hv)
  have hapart' : NumbersApart ((words s).map lower) := by
    rw [NumbersApart, List.isChain_map]
    refine hapart.imp_of_mem_imp fun v w hv hw h => ?_
    rwa [leads_isDigit_lower (hascii v hv), leads_isDigit_lower (hascii w hw)]
  exact Casing.chars_congr hX (map_lower_words_chars hY hpieces hapart')

/-- Capitals, an ordinal and a number between words. -/
theorem chars_chars_button :
    (∀ c ∈ "buttonXMLHttp_2ND-row7Top".toList, c.toNat < 128 ∧ c ≠ '\x27') ∧
      (∀ w ∈ words "buttonXMLHttp_2ND-row7Top".toList, 2 ≤ w.length ∨ leads Char.isDigit w = true) ∧
      Casing.snake.chars (Casing.camel.chars "buttonXMLHttp_2ND-row7Top".toList) =
        "button_xml_http_2nd_row_7_top".toList := by
  have hplain : ∀ c ∈ "buttonXMLHttp_2ND-row7Top".toList, c.toNat < 128 ∧ c ≠ '\x27' := by simp
  have hlong : ∀ w ∈ words "buttonXMLHttp_2ND-row7Top".toList,
      2 ≤ w.length ∨ leads Char.isDigit w = true := by decide +kernel
  refine ⟨hplain, hlong, ?_⟩
  rw [chars_chars _ hplain hlong (by decide +kernel) .snake .camel (by decide) (by decide)]
  decide +kernel

end DirectiveLowering.Naming
