import DirectiveLowering.Naming.CharClass
import DirectiveLowering.Text.WordChar

/-!
# Words of a name

A name is cut into words at separators, between a small letter and a capital, before the last
capital of a run that a small letter follows (`XMLHttp` has the words `XML` and `Http`), and around
numbers; a number takes the letters of an ordinal with it (`2nd`), a word its contraction (`don't`).

Seven patterns describe a word, the alternatives of `_WORDS`. At each position the first pattern that fits takes its word, and
where none fits a separator is passed over. A pattern answers the word and the text after it.

Results:
* `eq_append_of_nextWord?`: a word and the text after it make up the text it was found in.
* `nextWord?_ne_nil`: a word is not empty.
* `words_nil`, `words_of_some`, `words_of_none`: the splitter as a recursion on the rest.
* `words_induct`: an induction that reads a text as the splitter does.
* `exists_nextWord?_of_mem_words`: each word is found somewhere in the text.
-/

namespace DirectiveLowering.Naming

open DirectiveLowering.Text (isDecimalDigit isWordChar)

/-- A word and the text after it. -/
abbrev Cut := List Char × List Char

/-! ## Parts of words -/

/-- The longest run of characters of a class, and the text after it. -/
def cutWhile (p : Char → Bool) (s : List Char) : Cut :=
  (s.takeWhile p, s.dropWhile p)

/-- The capital at the start of the text, if it starts with one. -/
def cutCapital : List Char → Cut
  | [] => ([], [])
  | c :: rest => if isCapital c then ([c], rest) else ([], c :: rest)

/-- What follows the apostrophe of a contraction in small letters (`_CONTRACTION_LOWER`). -/
def smallContractions : List (List Char) :=
  [['d'], ['l', 'l'], ['m'], ['r', 'e'], ['s'], ['t'], ['v', 'e']]

/-- What follows the apostrophe of a contraction in capitals (`_CONTRACTION_UPPER`). -/
def capitalContractions : List (List Char) :=
  [['D'], ['L', 'L'], ['M'], ['R', 'E'], ['S'], ['T'], ['V', 'E']]

/-- The contraction at the start of the text, if it starts with an apostrophe and one of the
endings. -/
def cutContraction (endings : List (List Char)) : List Char → Cut
  | [] => ([], [])
  | c :: rest =>
    if isApostrophe c then
      match endings.find? (·.isPrefixOf rest) with
      | some ending => (c :: ending, rest.drop ending.length)
      | none => ([], c :: rest)
    else ([], c :: rest)

/-! ## What may follow a word -/

/-- Whether the text starts with a separator or a capital, or is at its end. -/
def atBreak : List Char → Bool
  | [] => true
  | c :: _ => isSeparator c || isCapital c

/-- Whether the text starts with a separator or a capitalised word, or is at its end. -/
def atNextWord : List Char → Bool
  | [] => true
  | c :: rest => isSeparator c || (isCapital c && rest.head?.any fun d => isSmall d || isOther d)

/-- Whether a word character before the text has a boundary or one of the `allowed` characters
after it. -/
def atBoundaryOr (allowed : Char → Bool) : List Char → Bool
  | [] => true
  | c :: _ => !isWordChar c || allowed c

/-! ## Patterns -/

/-- Small letters, perhaps after a capital, with their contraction, up to a break. -/
def closedWord? (s : List Char) : Option Cut :=
  let (capital, body) := cutCapital s
  let (small, rest) := cutWhile isSmall body
  let (contraction, after) := cutContraction smallContractions rest
  if small.isEmpty then none
  else if atBreak after then some (capital ++ small ++ contraction, after)
  else if atBreak rest then some (capital ++ small, rest)
  else none

/-- Capitals and letters of other scripts, as many as leave the start of a next word, a separator or
nothing. -/
def capitalRun? : List Char → Option Cut
  | [] => none
  | c :: rest =>
    if isCapital c || isOther c then
      match capitalRun? rest with
      | some (word, after) => some (c :: word, after)
      | none => if atNextWord rest then some ([c], rest) else none
    else none

/-- Small letters and letters of other scripts, perhaps after a capital, with their contraction. -/
def openWord? (s : List Char) : Option Cut :=
  let (capital, body) := cutCapital s
  let (letters, rest) := cutWhile (fun c => isSmall c || isOther c) body
  let (contraction, after) := cutContraction smallContractions rest
  if letters.isEmpty then none else some (capital ++ letters ++ contraction, after)

/-- Capitals with their contraction. -/
def capitals? (s : List Char) : Option Cut :=
  let (letters, rest) := cutWhile isCapital s
  let (contraction, after) := cutContraction capitalContractions rest
  if letters.isEmpty then none else some (letters ++ contraction, after)

/-- The letters that make an ordinal of a number that ends in a digit, in small letters. -/
def smallOrdinal (last : Char) : List Char :=
  if last = '1' then ['s', 't']
  else if last = '2' then ['n', 'd']
  else if last = '3' then ['r', 'd']
  else ['t', 'h']

/-- The letters that make an ordinal of a number that ends in a digit, in capitals. -/
def capitalOrdinal (last : Char) : List Char :=
  if last = '1' then ['S', 'T']
  else if last = '2' then ['N', 'D']
  else if last = '3' then ['R', 'D']
  else ['T', 'H']

/-- A number with the ordinal letters of its last digit, before a boundary or an `allowed`
character. -/
def ordinal? (letters : Char → List Char) (allowed : Char → Bool) (s : List Char) : Option Cut :=
  let (digits, rest) := cutWhile isDecimalDigit s
  match digits.getLast? with
  | none => none
  | some last =>
    let after := rest.drop (letters last).length
    if (letters last).isPrefixOf rest && atBoundaryOr allowed after then
      some (digits ++ letters last, after)
    else none

/-- Whether the character is an ASCII small letter or the low line. -/
def isAsciiSmallOrLine (c : Char) : Bool :=
  c.isLower || c = '_'

/-- Whether the character is an ASCII capital or the low line. -/
def isAsciiCapitalOrLine (c : Char) : Bool :=
  c.isUpper || c = '_'

/-- A number. -/
def number? (s : List Char) : Option Cut :=
  let (digits, rest) := cutWhile isDecimalDigit s
  if digits.isEmpty then none else some (digits, rest)

/-- The word at the start of the text, by the first pattern that fits: a match of `_WORDS`. -/
def nextWord? (s : List Char) : Option Cut :=
  closedWord? s
    <|> capitalRun? s
    <|> openWord? s
    <|> capitals? s
    <|> ordinal? capitalOrdinal isAsciiSmallOrLine s
    <|> ordinal? smallOrdinal isAsciiCapitalOrLine s
    <|> number? s

/-! ## Splitting -/

/-- Words of a text whose first `taken` characters belong to a word already found. -/
def wordsAfter : (taken : Nat) → List Char → List (List Char)
  | _, [] => []
  | taken + 1, _ :: rest => wordsAfter taken rest
  | 0, c :: rest =>
    match nextWord? (c :: rest) with
    | some (word, _) => word :: wordsAfter (word.length - 1) rest
    | none => wordsAfter 0 rest

/-- Words of a text, in order (`words_split`). -/
def words (s : List Char) : List (List Char) :=
  wordsAfter 0 s

/-! ## A word and the text after it -/

theorem cutWhile_append (p : Char → Bool) (s : List Char) :
    (cutWhile p s).1 ++ (cutWhile p s).2 = s :=
  List.takeWhile_append_dropWhile

theorem cutCapital_append (s : List Char) : (cutCapital s).1 ++ (cutCapital s).2 = s := by
  unfold cutCapital
  split
  · rfl
  · split <;> rfl

theorem cutContraction_append (endings : List (List Char)) (s : List Char) :
    (cutContraction endings s).1 ++ (cutContraction endings s).2 = s := by
  unfold cutContraction
  split
  · rfl
  · split
    · split
      · next rest _ _ ending h =>
        have hprefix : ending <+: rest := by simpa using List.find?_some h
        rw [List.cons_append, List.prefix_iff_eq_append.1 hprefix]
      · rfl
    · rfl

/-- What is asked of a pattern: its words are not empty, and a word and the text after it make up
the text it was found in. -/
def Cuts (pattern : List Char → Option Cut) : Prop :=
  ∀ s word after, pattern s = some (word, after) → word ≠ [] ∧ word ++ after = s

theorem cuts_closedWord? : Cuts closedWord? := by
  intro s word after h
  have hc := cutCapital_append s
  have hs := cutWhile_append isSmall (cutCapital s).2
  have ht := cutContraction_append smallContractions (cutWhile isSmall (cutCapital s).2).2
  simp only [closedWord?] at h
  split at h
  · simp at h
  next hne =>
    split at h
    · obtain ⟨rfl, rfl⟩ := Prod.mk.inj (Option.some.inj h)
      refine ⟨by simp_all, ?_⟩
      rw [List.append_assoc, ht, List.append_assoc, hs, hc]
    · split at h
      · obtain ⟨rfl, rfl⟩ := Prod.mk.inj (Option.some.inj h)
        refine ⟨by simp_all, ?_⟩
        rw [List.append_assoc, hs, hc]
      · simp at h

theorem cuts_capitalRun? : Cuts capitalRun? := by
  intro s
  induction s with
  | nil => intro word after h; simp [capitalRun?] at h
  | cons c rest ih =>
    intro word after h
    unfold capitalRun? at h
    split at h
    · split at h
      · next w a hw =>
        obtain ⟨rfl, rfl⟩ := Prod.mk.inj (Option.some.inj h)
        exact ⟨by simp, by rw [List.cons_append, (ih w a hw).2]⟩
      · split at h
        · obtain ⟨rfl, rfl⟩ := Prod.mk.inj (Option.some.inj h)
          exact ⟨by simp, rfl⟩
        · simp at h
    · simp at h

theorem cuts_openWord? : Cuts openWord? := by
  intro s word after h
  have hc := cutCapital_append s
  have hs := cutWhile_append (fun c => isSmall c || isOther c) (cutCapital s).2
  have ht := cutContraction_append smallContractions
    (cutWhile (fun c => isSmall c || isOther c) (cutCapital s).2).2
  simp only [openWord?] at h
  split at h
  · simp at h
  next hne =>
    obtain ⟨rfl, rfl⟩ := Prod.mk.inj (Option.some.inj h)
    refine ⟨by simp_all, ?_⟩
    rw [List.append_assoc, ht, List.append_assoc, hs, hc]

theorem cuts_capitals? : Cuts capitals? := by
  intro s word after h
  have hs := cutWhile_append isCapital s
  have ht := cutContraction_append capitalContractions (cutWhile isCapital s).2
  simp only [capitals?] at h
  split at h
  · simp at h
  next hne =>
    obtain ⟨rfl, rfl⟩ := Prod.mk.inj (Option.some.inj h)
    refine ⟨by simp_all, ?_⟩
    rw [List.append_assoc, ht, hs]

theorem cuts_ordinal? (letters : Char → List Char) (allowed : Char → Bool) :
    Cuts (ordinal? letters allowed) := by
  intro s word after h
  have hs := cutWhile_append isDecimalDigit s
  simp only [ordinal?] at h
  split at h
  · simp at h
  next last hlast =>
    split at h
    · next hif =>
      obtain ⟨rfl, rfl⟩ := Prod.mk.inj (Option.some.inj h)
      have hprefix := List.isPrefixOf_iff_prefix.1 (Bool.and_eq_true_iff.1 hif).1
      refine ⟨fun he => by simp_all, ?_⟩
      rw [List.append_assoc, List.prefix_iff_eq_append.1 hprefix, hs]
    · simp at h

theorem cuts_number? : Cuts number? := by
  intro s word after h
  have hs := cutWhile_append isDecimalDigit s
  simp only [number?] at h
  split at h
  · simp at h
  next hne =>
    obtain ⟨rfl, rfl⟩ := Prod.mk.inj (Option.some.inj h)
    exact ⟨by simp_all, hs⟩

theorem Cuts.orElse {p q : List Char → Option Cut} (hp : Cuts p) (hq : Cuts q) :
    Cuts fun s => p s <|> q s := by
  intro s word after h
  cases hs : p s with
  | none => exact hq s word after (by simpa [hs] using h)
  | some cut => exact hp s word after (by simpa [hs] using h)

theorem cuts_nextWord? : Cuts nextWord? :=
  cuts_closedWord?.orElse <| cuts_capitalRun?.orElse <| cuts_openWord?.orElse <|
    cuts_capitals?.orElse <| (cuts_ordinal? _ _).orElse <| (cuts_ordinal? _ _).orElse cuts_number?

theorem nextWord?_ne_nil {s word after : List Char} (h : nextWord? s = some (word, after)) :
    word ≠ [] :=
  (cuts_nextWord? s word after h).1

theorem eq_append_of_nextWord? {s word after : List Char}
    (h : nextWord? s = some (word, after)) : s = word ++ after :=
  (cuts_nextWord? s word after h).2.symm

/-! ## The splitter as a recursion on the rest -/

theorem wordsAfter_eq_words_drop (taken : Nat) (s : List Char) :
    wordsAfter taken s = words (s.drop taken) := by
  induction s generalizing taken with
  | nil => simp [words, wordsAfter]
  | cons c rest ih =>
    cases taken with
    | zero => rfl
    | succ taken => simp [wordsAfter, ih]

@[simp] theorem words_nil : words [] = [] := rfl

theorem words_of_some {s word after : List Char} (h : nextWord? s = some (word, after)) :
    words s = word :: words after := by
  have hs := eq_append_of_nextWord? h
  cases word with
  | nil => exact absurd rfl (nextWord?_ne_nil h)
  | cons c w =>
    subst hs
    rw [List.cons_append] at h ⊢
    rw [words, wordsAfter, h]
    simp [wordsAfter_eq_words_drop]

theorem words_of_none {c : Char} {rest : List Char} (h : nextWord? (c :: rest) = none) :
    words (c :: rest) = words rest := by
  rw [words, wordsAfter, h]
  rfl

/-- A text is empty, or it starts with a character that no word starts at, or with a word. -/
theorem words_induct {motive : List Char → Prop} (nil : motive [])
    (gap : ∀ c rest, nextWord? (c :: rest) = none → motive rest → motive (c :: rest))
    (word : ∀ w after, nextWord? (w ++ after) = some (w, after) → motive after → motive (w ++ after))
    (s : List Char) : motive s := by
  induction hsize : s.length using Nat.strongRecOn generalizing s with
  | ind size ih =>
    cases s with
    | nil => exact nil
    | cons c rest =>
      cases hnext : nextWord? (c :: rest) with
      | none => exact gap c rest hnext (ih rest.length (by simp [← hsize]) rest rfl)
      | some cut =>
        obtain ⟨w, after⟩ := cut
        have hcut := eq_append_of_nextWord? hnext
        have hpos := List.length_pos_iff.2 (nextWord?_ne_nil hnext)
        have hlength := congrArg List.length hcut
        rw [List.length_append] at hlength
        rw [hcut] at hnext ⊢
        exact word w after hnext (ih after.length (by omega) after rfl)

theorem exists_nextWord?_of_mem_words {s w : List Char} (h : w ∈ words s) :
    ∃ t after, t <:+ s ∧ nextWord? t = some (w, after) := by
  induction s using words_induct with
  | nil => simp at h
  | gap c rest hnone ih =>
    rw [words_of_none hnone] at h
    obtain ⟨t, after, hsuffix, ht⟩ := ih h
    exact ⟨t, after, hsuffix.trans (List.suffix_cons c rest), ht⟩
  | word v rest hnext ih =>
    rw [words_of_some hnext] at h
    rcases List.mem_cons.1 h with rfl | h
    · exact ⟨_, rest, List.suffix_refl _, hnext⟩
    · obtain ⟨t, after, hsuffix, ht⟩ := ih h
      exact ⟨t, after, hsuffix.trans (List.suffix_append v rest), ht⟩

theorem ne_nil_of_mem_words {s w : List Char} (h : w ∈ words s) : w ≠ [] := by
  obtain ⟨t, after, -, ht⟩ := exists_nextWord?_of_mem_words h
  exact nextWord?_ne_nil ht

theorem subset_of_mem_words {s w : List Char} (h : w ∈ words s) : w ⊆ s := by
  obtain ⟨t, after, hsuffix, ht⟩ := exists_nextWord?_of_mem_words h
  rw [eq_append_of_nextWord? ht] at hsuffix
  exact List.Subset.trans (List.subset_append_left w after) hsuffix.subset

end DirectiveLowering.Naming
