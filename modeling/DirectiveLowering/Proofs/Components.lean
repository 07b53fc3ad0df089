import DirectiveLowering.Lowering.Making
import DirectiveLowering.Proofs.Spelling
import DirectiveLowering.Proofs.WordGaps

/-!
# Element names and components

A compiler tells the elements of HTML from components by the first letter of a name: a small ASCII letter
starts an element, anything else a component. The normalizer for the casing that gives each word a capital
keeps the two apart. Names of HTML start with a small letter and are left in lower case; every other name is
upper-cased at its start, and no character becomes a small ASCII letter, or nothing, in upper case. Nothing
is left only of a name without words, that is of separators alone.

Results:
* `exists_upperChar`: what a character starts with in upper case.
* `leads_isLower_pascalCase`: a component never starts with a small letter.
* `words_eq_nil_iff`, `pascalCase_eq_nil_iff`: names without words.
* `normalizer_tells_components`: what the normalizer makes of every name.
-/

namespace DirectiveLowering.Text

/-! ## The start of a text in upper case -/

/-- Code points of the small letters of ASCII. -/
def smallAsciiRange : List (Nat × Nat) := [(0x61, 0x7a)]

theorem isLower_eq_covers (c : Char) : c.isLower = covers smallAsciiRange c.toNat := by
  rw [Bool.eq_iff_iff]
  constructor
  · intro h
    obtain ⟨hlow, hhigh⟩ := toNat_of_isLower h
    exact covers_cons_of_le _ hlow hhigh
  · intro h
    obtain ⟨r, hr, hlow, hhigh⟩ := exists_of_covers h
    obtain rfl := List.mem_singleton.1 hr
    exact Bool.and_eq_true_iff.2 ⟨decide_eq_true hlow, decide_eq_true hhigh⟩

/-- A code point that is no character gives the null character, which is no letter either. -/
theorem not_isLower_ofNat {n : Nat} (h : covers smallAsciiRange n = false) :
    (Char.ofNat n).isLower = false := by
  rw [isLower_eq_covers]
  unfold Char.ofNat
  by_cases hvalid : n.isValidChar
  · rw [dif_pos hvalid]
    exact h
  · rw [dif_neg hvalid]
    rfl

/-- No span maps a code point to a small letter of ASCII. -/
theorem apart_upperSpans : upperSpans.all (fun s => apart s.image smallAsciiRange) = true := by
  decide +kernel

/-- The forms of several characters are not empty and do not start with a small letter of ASCII. -/
theorem leads_upperExpansions :
    upperExpansions.all (fun e => e.2.head?.any fun n => !covers smallAsciiRange n) = true := by
  decide +kernel

/-- **In upper case every character starts with something other than a small letter of ASCII.** -/
theorem exists_upperChar (c : Char) : ∃ d rest, upperChar c = d :: rest ∧ d.isLower = false := by
  by_cases hc : c.isLower = true
  · -- the letters themselves: the table of spans maps them to the capitals
    have hascii : c.toNat < 128 := by
      have := toNat_of_isLower hc
      omega
    refine ⟨c.toUpper, [], upperChar_of_ascii hascii, ?_⟩
    refine forall_ascii (P := fun c => c.toUpper.isLower = false) ?_ hascii
    decide +kernel
  rw [upperChar]
  split
  next codes hlookup =>
    obtain ⟨before, after, hsplit, -⟩ := List.lookup_eq_some_iff.1 hlookup
    have hhead := List.all_eq_true.1 leads_upperExpansions (c.toNat, codes) (by simp [hsplit])
    cases codes with
    | nil => cases hhead
    | cons n codes => exact ⟨_, _, rfl, not_isLower_ofNat (by simpa using hhead)⟩
  · refine ⟨_, _, rfl, ?_⟩
    rcases shifted_cases upperSpans c.toNat with hsame | ⟨s, hs, hmaps, himage⟩
    · rw [hsame, Char.ofNat_toNat]
      exact Bool.eq_false_iff.2 hc
    · obtain ⟨hfirst, hlast⟩ := CaseSpan.mem_image hmaps
      rw [himage]
      exact not_isLower_ofNat
        (not_covers_of_apart (List.all_eq_true.1 apart_upperSpans s hs) hfirst hlast)

end DirectiveLowering.Text

namespace DirectiveLowering.Naming

open Text

variable {s : List Char} {name : String}

theorem upperFirst_eq_nil_iff : upperFirst s = [] ↔ s = [] := by
  cases s with
  | nil => simp [upperFirst]
  | cons c s =>
    obtain ⟨d, rest, hupper, -⟩ := exists_upperChar c
    simp [upperFirst, hupper]

theorem leads_isLower_upperFirst (s : List Char) : leads Char.isLower (upperFirst s) = false := by
  cases s with
  | nil => rfl
  | cons c s =>
    obtain ⟨d, rest, hupper, hd⟩ := exists_upperChar c
    rw [upperFirst, hupper, List.cons_append, leads_cons, hd]

theorem leads_isLower_pascalCase (s : List Char) : leads Char.isLower (pascalCase s) = false :=
  leads_isLower_upperFirst (camelCase s)

/-! ## Names without words -/

/-- **A text has no words when it consists of separators**, and only then. -/
theorem words_eq_nil_iff : words s = [] ↔ ∀ c ∈ s, isSeparator c = true := by
  constructor
  · intro hwords
    have hkept := filter_flatten_words s
    rw [hwords, List.flatten_nil, List.filter_nil, eq_comm, List.filter_eq_nil_iff] at hkept
    exact fun c hc => by simpa using hkept c hc
  · intro hs
    induction s with
    | nil => rfl
    | cons c s ih =>
      rw [words_of_none (nextWord?_of_separator (hs c List.mem_cons_self) s)]
      exact ih fun d hd => hs d (List.mem_cons_of_mem c hd)

theorem camelCase_eq_nil_iff : camelCase s = [] ↔ words s = [] := by
  rw [camelCase]
  split
  next hwords => simp [hwords]
  next first others hwords =>
    have hfirst : first ≠ [] := ne_nil_of_mem_words (s := s) (by simp [hwords])
    have hlength := length_le_length_lower first
    have hpos := List.length_pos_iff.2 hfirst
    have hlower : lower first ≠ [] := List.ne_nil_of_length_pos (by omega)
    simp [hwords, hlower]

theorem pascalCase_eq_nil_iff : pascalCase s = [] ↔ ∀ c ∈ s, isSeparator c = true := by
  rw [pascalCase, upperFirst_eq_nil_iff, camelCase_eq_nil_iff, words_eq_nil_iff]

/-! ## Elements and components -/

theorem leads_isLower_of_mem_htmlNames (h : name ∈ htmlNames) :
    leads Char.isLower name.toList = true := by
  have hall : htmlNames.all (fun name => leads Char.isLower name.toList) = true := by decide +kernel
  exact List.all_eq_true.1 hall name h

/-- A name that is not one of HTML becomes a component, unless nothing is left of it. -/
theorem normalizeTag_component (h : lowerName name ∉ htmlNames) :
    leads Char.isLower (normalizeTag .pascal name).toList = false ∧
      normalizeTag .pascal name ∉ htmlNames ∧
      (normalizeTag .pascal name = "" ↔ ∀ c ∈ name.toList, isSeparator c = true) := by
  have hhtml : isHtmlName name = false := by
    rw [Bool.eq_false_iff]
    exact fun hname => h (isHtmlName_iff.1 hname)
  have hresult : normalizeTag .pascal name = String.ofList (pascalCase name.toList) :=
    normalizeTag_of_not_html hhtml
  have hlead : leads Char.isLower (normalizeTag .pascal name).toList = false := by
    rw [hresult, String.toList_ofList]
    exact leads_isLower_pascalCase name.toList
  refine ⟨hlead, fun hmem => ?_, ?_⟩
  · rw [leads_isLower_of_mem_htmlNames hmem] at hlead
    cases hlead
  · rw [hresult, ← pascalCase_eq_nil_iff, ← String.toList_inj, String.toList_ofList]
    rfl

/-- **The normalizer never takes a component for an element of HTML, or the other way round.** It can always
be made, and answers every name. What it answers starts with a small letter exactly for the names that are
names of HTML in lower case, and is a name of HTML for these and no other ones. Of the other names nothing is
left only where they consist of separators. -/
theorem normalizer_tells_components (notices : Array Notice) :
    ∃ normalize made, Making.tagNormalizer (.text "pascal") notices = .ok normalize made ∧
      ∀ name : String, ∃ result : String, normalize (some name) = .ok (some result) ∧
        (leads Char.isLower result.toList = true ↔ lowerName name ∈ htmlNames) ∧
        (result ∈ htmlNames ↔ lowerName name ∈ htmlNames) ∧
        (lowerName name ∉ htmlNames →
          (result = "" ↔ ∀ c ∈ name.toList, isSeparator c = true)) := by
  refine ⟨_, _, Making.tagNormalizer_name .pascal notices, fun name => ?_⟩
  refine ⟨normalizeTag .pascal name, tagNormalizer_some .pascal name, ?_⟩
  by_cases hname : lowerName name ∈ htmlNames
  · have hresult : normalizeTag .pascal name = lowerName name :=
      normalizeTag_of_html (isHtmlName_iff.2 hname)
    rw [hresult]
    exact ⟨iff_of_true (leads_isLower_of_mem_htmlNames hname) hname, Iff.rfl,
      fun hnot => absurd hname hnot⟩
  · obtain ⟨hlead, hmem, hempty⟩ := normalizeTag_component hname
    exact ⟨iff_of_false (by simp [hlead]) hname, iff_of_false hmem hname, fun _ => hempty⟩

example : normalizeTag .pascal "-div-" = "Div" := by decide +kernel

end DirectiveLowering.Naming
