import DirectiveLowering.Naming.Words

/-!
# The rule for words of plain texts

For ASCII texts without apostrophes the seven patterns of a word come down to one rule. The runs of
letters and digits are split on their own: a number is a word, together with the letters of an ordinal
if nothing continues them, and letters are cut between a small letter and a capital, and before the
capital that starts a capitalised word.

Results:
* `letterWords_small`, `letterWords_capitalised`, `letterWords_capitals`, `letterWords_butLast`: the
  first word of letters.
* `runWords_number`, `runWords_letters`, `takesLetters_append`: the first words of a run.
* `plainWords_run`, `plainWords_append_cons`: a text is split run by run.
-/

namespace DirectiveLowering.Naming

open Text (not_isLower_of_isUpper not_isUpper_of_isLower classes_of_not_isAlphanum)

/-! ## The rule -/

/-- Whether letters are cut between a letter and those after it: between a small letter and a capital,
and between two capitals if a small letter comes next. -/
def cutsBefore (c : Char) : List Char → Bool
  | [] => false
  | d :: rest => d.isUpper && (c.isLower || (c.isUpper && rest.head?.any Char.isLower))

/-- Words of letters. -/
def letterWords : List Char → List (List Char)
  | [] => []
  | c :: rest =>
    if cutsBefore c rest then [c] :: letterWords rest
    else
      match letterWords rest with
      | [] => [[c]]
      | word :: others => (c :: word) :: others

/-- The capitals that make an ordinal of a number, by its last digit. -/
def ordinalLetters (last : Char) : Char × Char :=
  if last = '1' then ('S', 'T')
  else if last = '2' then ('N', 'D')
  else if last = '3' then ('R', 'D')
  else ('T', 'H')

/-- Whether a number that ends in a digit takes the next two letters with it: they are the letters of
its ordinal, both in capitals or both small, and no digit and no letter of the same case comes next. -/
def takesLetters (last : Char) : List Char → Bool
  | a :: b :: rest =>
    let (x, y) := ordinalLetters last
    (a = x && b = y && !rest.head?.any fun c => c.isDigit || c.isUpper) ||
      (a = x.toLower && b = y.toLower && !rest.head?.any fun c => c.isDigit || c.isLower)
  | _ => false

/-- Words of a run of letters and digits. -/
def runWords : List Char → List (List Char)
  | [] => []
  | c :: rest =>
    if c.isDigit then
      let digits := rest.takeWhile Char.isDigit
      let after := rest.dropWhile Char.isDigit
      if takesLetters (digits.getLastD c) after then
        (c :: digits ++ after.take 2) :: runWords (after.drop 2)
      else (c :: digits) :: runWords after
    else
      letterWords (c :: rest.takeWhile fun c => !c.isDigit) ++
        runWords (rest.dropWhile fun c => !c.isDigit)
termination_by run => run.length
decreasing_by
  all_goals
    have hdigits := (List.dropWhile_sublist (l := rest) Char.isDigit).length_le
    have hletters := (List.dropWhile_sublist (l := rest) fun c => !c.isDigit).length_le
    simp only [List.length_cons, List.length_drop]
    omega

/-- Words of a text by the rule: the longest runs of ASCII letters and digits, each split on its own. -/
def plainWords (s : List Char) : List (List Char) :=
  ((s.splitOnP fun c => !c.isAlphanum).filter (· ≠ [])).flatMap runWords

/-! ## Starts of texts -/

/-- Whether the text starts with a character of a class. -/
def leads (p : Char → Bool) (s : List Char) : Bool :=
  s.head?.any p

@[simp] theorem leads_nil (p : Char → Bool) : leads p [] = false := rfl

@[simp] theorem leads_cons (p : Char → Bool) (c : Char) (s : List Char) :
    leads p (c :: s) = p c := rfl

theorem leads_append_of_ne_nil {p : Char → Bool} {a : List Char} (ha : a ≠ []) (b : List Char) :
    leads p (a ++ b) = leads p a := by
  cases a with
  | nil => exact absurd rfl ha
  | cons c a => rfl

/-- The longest start of a text in a class, and the rest. -/
theorem exists_split (p : Char → Bool) (s : List Char) : ∃ a b, s = a ++ b ∧
    (∀ c ∈ a, p c = true) ∧ leads p b = false ∧ (leads p s = true → a ≠ []) := by
  induction s with
  | nil => exact ⟨[], [], rfl, by simp, rfl, by simp⟩
  | cons c s ih =>
    by_cases hc : p c = true
    · obtain ⟨a, b, rfl, ha, hb, -⟩ := ih
      refine ⟨c :: a, b, rfl, fun d hd => ?_, hb, fun _ => List.cons_ne_nil c a⟩
      rcases List.mem_cons.1 hd with rfl | hd
      · exact hc
      · exact ha d hd
    · exact ⟨[], c :: s, rfl, by simp, by simpa using hc, fun h => absurd h hc⟩

theorem cutWhile_append_of {p : Char → Bool} {a b : List Char} (ha : ∀ c ∈ a, p c = true)
    (hb : leads p b = false) : cutWhile p (a ++ b) = (a, b) := by
  have hstop : b.takeWhile p = [] ∧ b.dropWhile p = b := by
    cases b with
    | nil => exact ⟨rfl, rfl⟩
    | cons c b =>
      rw [leads_cons] at hb
      rw [List.takeWhile_cons_of_neg (by simp [hb]), List.dropWhile_cons_of_neg (by simp [hb])]
      exact ⟨rfl, rfl⟩
  rw [cutWhile, List.takeWhile_append_of_pos ha, List.dropWhile_append_of_pos ha, hstop.1, hstop.2,
    List.append_nil]

theorem cutWhile_of_not_leads {p : Char → Bool} {s : List Char} (h : leads p s = false) :
    cutWhile p s = ([], s) :=
  cutWhile_append_of (a := []) (fun _ hc => nomatch hc) h

/-! ## Letters -/

section Letters

variable {caps lows q : List Char}

theorem letterWords_cut {c : Char} {rest : List Char} (h : cutsBefore c rest = true) :
    letterWords (c :: rest) = [c] :: letterWords rest := by
  rw [letterWords, if_pos h]

theorem letterWords_joined {c : Char} {rest word : List Char} {others : List (List Char)}
    (h : cutsBefore c rest = false) (hrest : letterWords rest = word :: others) :
    letterWords (c :: rest) = (c :: word) :: others := by
  rw [letterWords, h, hrest]
  rfl

theorem cutsBefore_of_not_isUpper {c d : Char} (hd : d.isUpper = false) (rest : List Char) :
    cutsBefore c (d :: rest) = false := by
  rw [cutsBefore, hd, Bool.false_and]

theorem cutsBefore_of_isLower {c d : Char} (hc : c.isLower = true) (hd : d.isUpper = true)
    (rest : List Char) : cutsBefore c (d :: rest) = true := by
  rw [cutsBefore, hd, hc]
  rfl

theorem letterWords_small (hne : lows ≠ []) (hlows : ∀ c ∈ lows, c.isLower = true)
    (hq : q = [] ∨ leads Char.isUpper q = true) :
    letterWords (lows ++ q) = lows :: letterWords q := by
  induction lows with
  | nil => exact absurd rfl hne
  | cons c lows ih =>
    have hc := hlows c List.mem_cons_self
    cases lows with
    | nil =>
      cases q with
      | nil => rfl
      | cons d q =>
        have hd : d.isUpper = true := hq.resolve_left (List.cons_ne_nil d q)
        exact letterWords_cut (cutsBefore_of_isLower hc hd q)
    | cons d lows =>
      have hd := not_isUpper_of_isLower (hlows d (List.mem_cons_of_mem c List.mem_cons_self))
      refine letterWords_joined (cutsBefore_of_not_isUpper hd _) ?_
      exact ih (List.cons_ne_nil d lows) fun e he => hlows e (List.mem_cons_of_mem c he)

theorem letterWords_capitalised {c : Char} (hne : lows ≠ [])
    (hlows : ∀ c ∈ lows, c.isLower = true) (hq : q = [] ∨ leads Char.isUpper q = true) :
    letterWords (c :: (lows ++ q)) = (c :: lows) :: letterWords q := by
  refine letterWords_joined ?_ (letterWords_small hne hlows hq)
  cases lows with
  | nil => exact absurd rfl hne
  | cons d lows =>
    have hd := not_isUpper_of_isLower (hlows d List.mem_cons_self)
    exact cutsBefore_of_not_isUpper hd _

/-- Between two capitals there is no cut if a capital comes next. -/
theorem cutsBefore_capital {c d : Char} {rest : List Char} (hc : c.isUpper = true)
    (hrest : leads Char.isLower rest = false) : cutsBefore c (d :: rest) = false := by
  have hrest' : rest.head?.any Char.isLower = false := hrest
  rw [cutsBefore, not_isLower_of_isUpper hc, hrest', Bool.and_false, Bool.or_false, Bool.and_false]

theorem cutsBefore_capitalised {c d : Char} {rest : List Char} (hc : c.isUpper = true)
    (hd : d.isUpper = true) (hrest : leads Char.isLower rest = true) :
    cutsBefore c (d :: rest) = true := by
  have hrest' : rest.head?.any Char.isLower = true := hrest
  rw [cutsBefore, hd, hc, hrest', Bool.and_true, Bool.or_true]
  rfl

theorem letterWords_capitals (hne : caps ≠ []) (hcaps : ∀ c ∈ caps, c.isUpper = true) :
    letterWords caps = [caps] := by
  induction caps with
  | nil => exact absurd rfl hne
  | cons c caps ih =>
    cases caps with
    | nil => rfl
    | cons d caps =>
      have hnext : leads Char.isLower caps = false := by
        cases caps with
        | nil => rfl
        | cons e caps => exact not_isLower_of_isUpper (hcaps e (by simp))
      refine letterWords_joined (cutsBefore_capital (hcaps c List.mem_cons_self) hnext) ?_
      exact ih (List.cons_ne_nil d caps) fun e he => hcaps e (List.mem_cons_of_mem c he)

theorem letterWords_butLast {d : Char} (hne : caps ≠ []) (hcaps : ∀ c ∈ caps, c.isUpper = true)
    (hd : d.isUpper = true) (hq : leads Char.isLower q = true) :
    letterWords (caps ++ d :: q) = caps :: letterWords (d :: q) := by
  induction caps with
  | nil => exact absurd rfl hne
  | cons c caps ih =>
    have hc := hcaps c List.mem_cons_self
    cases caps with
    | nil =>
      exact letterWords_cut (cutsBefore_capitalised hc hd hq)
    | cons e caps =>
      have hnext : leads Char.isLower (caps ++ d :: q) = false := by
        cases caps with
        | nil => exact not_isLower_of_isUpper hd
        | cons f caps => exact not_isLower_of_isUpper (hcaps f (by simp))
      refine letterWords_joined (cutsBefore_capital hc hnext) ?_
      exact ih (List.cons_ne_nil e caps) fun f hf => hcaps f (List.mem_cons_of_mem c hf)

end Letters

/-! ## Runs -/

section Runs

variable {rest u : List Char}

theorem runWords_number {digits : List Char} {last : Char}
    (hdigits : ∀ c ∈ digits, c.isDigit = true) (hrest : leads Char.isDigit rest = false)
    (hlast : digits.getLast? = some last) :
    runWords (digits ++ rest) =
      if takesLetters last rest then (digits ++ rest.take 2) :: runWords (rest.drop 2)
      else digits :: runWords rest := by
  cases digits with
  | nil => cases hlast
  | cons c digits =>
    have hcut := cutWhile_append_of (fun d hd => hdigits d (List.mem_cons_of_mem c hd)) hrest
    obtain ⟨htake, hdrop⟩ := Prod.mk.inj hcut
    rw [List.getLast?_cons, ← List.getLastD_eq_getLast?] at hlast
    obtain rfl := Option.some.inj hlast
    rw [List.cons_append, runWords, if_pos (hdigits c List.mem_cons_self)]
    dsimp only
    rw [htake, hdrop]

theorem runWords_letters {letters : List Char} (hne : letters ≠ [])
    (hletters : ∀ c ∈ letters, c.isDigit = false)
    (hrest : leads (fun c => !c.isDigit) rest = false) :
    runWords (letters ++ rest) = letterWords letters ++ runWords rest := by
  cases letters with
  | nil => exact absurd rfl hne
  | cons c letters =>
    have hcut := cutWhile_append_of (p := fun c => !c.isDigit)
      (fun d hd => by rw [hletters d (List.mem_cons_of_mem c hd)]; rfl) hrest
    obtain ⟨htake, hdrop⟩ := Prod.mk.inj hcut
    have hc : ¬ c.isDigit = true := by
      rw [hletters c List.mem_cons_self]
      exact Bool.false_ne_true
    rw [List.cons_append, runWords, if_neg hc, htake, hdrop]

/-- The letters of an ordinal are letters. -/
theorem isAlphanum_ordinalLetters (last : Char) :
    (ordinalLetters last).1.isAlphanum = true ∧ (ordinalLetters last).2.isAlphanum = true ∧
      (ordinalLetters last).1.toLower.isAlphanum = true ∧
      (ordinalLetters last).2.toLower.isAlphanum = true := by
  unfold ordinalLetters
  repeat' split
  all_goals decide

theorem takesLetters_of_not_isAlphanum (last : Char) {a b : Char} (after : List Char)
    (h : a.isAlphanum = false ∨ b.isAlphanum = false) :
    takesLetters last (a :: b :: after) = false := by
  obtain ⟨hx, hy, hx', hy'⟩ := isAlphanum_ordinalLetters last
  have hne : ∀ {c d : Char}, c.isAlphanum = false → d.isAlphanum = true → c ≠ d := by
    rintro c _ hc hd rfl
    rw [hc] at hd
    cases hd
  rcases h with h | h
  · simp [takesLetters, hne h hx, hne h hx']
  · simp [takesLetters, hne h hy, hne h hy']

/-- Whether a number takes letters with it is decided inside its run. -/
theorem takesLetters_append (last : Char) (hu : leads Char.isAlphanum u = false) :
    takesLetters last (rest ++ u) = takesLetters last rest := by
  match rest, u, hu with
  | [], [], _ => rfl
  | [], [a], _ => rfl
  | [], a :: b :: after, hu => exact takesLetters_of_not_isAlphanum last after (Or.inl hu)
  | [a], [], _ => rfl
  | [a], b :: after, hu => exact takesLetters_of_not_isAlphanum last after (Or.inr hu)
  | a :: b :: [], [], _ => rfl
  | a :: b :: [], d :: u, hu =>
    obtain ⟨hupper, hlower, hdigit⟩ := classes_of_not_isAlphanum hu
    simp [takesLetters, hupper, hlower, hdigit]
  | a :: b :: c :: rest, u, _ => rfl

theorem two_le_length_of_takesLetters {last : Char} (h : takesLetters last rest = true) :
    2 ≤ rest.length := by
  match rest, h with
  | _ :: _ :: after, _ => simp

end Runs

/-! ## Texts -/

theorem plainWords_append_cons (a b : List Char) {c : Char} (hc : c.isAlphanum = false) :
    plainWords (a ++ c :: b) = plainWords a ++ plainWords b := by
  rw [plainWords, List.splitOnP_append_cons a b (by simp [hc]), List.filter_append,
    List.flatMap_append]
  rfl

theorem plainWords_of_run {run : List Char} (hrun : ∀ c ∈ run, c.isAlphanum = true) :
    plainWords run = runWords run := by
  rw [plainWords, List.splitOnP_eq_singleton fun c hc => by rw [hrun c hc]; rfl]
  by_cases hne : run = []
  · subst hne
    rw [runWords]
    rfl
  · simp [hne]

theorem plainWords_run {run u : List Char} (hrun : ∀ c ∈ run, c.isAlphanum = true)
    (hu : leads Char.isAlphanum u = false) :
    plainWords (run ++ u) = runWords run ++ plainWords u := by
  cases u with
  | nil =>
    rw [List.append_nil, plainWords_of_run hrun]
    exact (List.append_nil _).symm
  | cons c u =>
    have hnil := plainWords_append_cons [] u hu
    rw [plainWords_append_cons run u hu, plainWords_of_run hrun]
    rw [List.nil_append] at hnil
    rw [hnil]
    rfl

end DirectiveLowering.Naming
