import DirectiveLowering.Template.Problem

/-!
# Pieces of a template

A template is a text with fields in braces. A field names a value, may ask for it in quotes, and may
ask for a layout:

    text {name} text {name!r} text {name:>8} text {name.member[0]!r:>8}

A brace that is text is written twice. Brackets in a name hide braces, colons and exclamation marks,
and a layout may itself hold fields. What is wrong with a template comes to light at its own place:
the pieces before it are read in full.

Results:
* `length_cutName`, `length_cutLayout`, `length_readField`: what is left of the text.
* `pieces_of_forall`: a template without braces is all text.
-/

namespace DirectiveLowering.Template

/-- A field: the name of its value with the steps into it, a conversion, and a layout. -/
structure Field where
  name : List Char
  conversion : Option Char := none
  layout : List Char := []
deriving DecidableEq, Repr

/-- A piece of a template. -/
inductive Piece
  | char (c : Char)
  | field (f : Field)
  /-- What follows cannot be read. -/
  | broken (problem : Problem)
deriving DecidableEq, Repr

/-! ## Fields -/

/-- Puts a character in front of the text read. -/
def prepend (c : Char) (r : List Char × List Char) : List Char × List Char :=
  (c :: r.1, r.2)

/-- The name of a field, and the text from the character on that ends it. -/
def cutName : (inBrackets : Bool) → List Char → Except Problem (List Char × List Char)
  | _, [] => .error .unclosedField
  | true, c :: rest => (cutName (c != ']') rest).map (prepend c)
  | false, c :: rest =>
    if c = '{' then .error .braceInName
    else if c = '}' || c = ':' || c = '!' then .ok ([], c :: rest)
    else (cutName (c == '[') rest).map (prepend c)

/-- A layout in which so many braces are open, and the text behind the brace that closes its
field. -/
def cutLayout : (depth : Nat) → List Char → Except Problem (List Char × List Char)
  | _, [] => .error .unclosedLayout
  | depth, c :: rest =>
    if c = '{' then (cutLayout (depth + 1) rest).map (prepend c)
    else if c = '}' then
      match depth with
      | 0 => .ok ([], rest)
      | depth + 1 => (cutLayout depth rest).map (prepend c)
    else (cutLayout depth rest).map (prepend c)

/-- The rest of a field behind its name and conversion. -/
def readLayout (name : List Char) (conversion : Option Char) (s : List Char) :
    Except Problem (Field × List Char) :=
  (cutLayout 0 s).map fun (layout, rest) => (⟨name, conversion, layout⟩, rest)

/-- The rest of a field behind its name and an exclamation mark. -/
def readConversion (name : List Char) : List Char → Except Problem (Field × List Char)
  | [] => .error .missingConversion
  | [c] => readLayout name (some c) []
  | c :: d :: rest =>
    if d = '}' then .ok (⟨name, some c, []⟩, rest)
    else if d = ':' then readLayout name (some c) rest
    else .error .overlongConversion

/-- The rest of a field behind its name. -/
def readFieldEnd (name : List Char) : List Char → Except Problem (Field × List Char)
  | [] => .error .unclosedField
  | c :: rest =>
    if c = '!' then readConversion name rest
    else if c = ':' then readLayout name none rest
    else .ok (⟨name, none, []⟩, rest)

/-- A field behind its opening brace, and the text behind the field. -/
def readField (s : List Char) : Except Problem (Field × List Char) :=
  match cutName false s with
  | .error problem => .error problem
  | .ok (name, rest) => readFieldEnd name rest

/-! ## What is left of the text -/

theorem length_map_prepend {c : Char} {r : Except Problem (List Char × List Char)} {n : Nat}
    (h : ∀ p, r = .ok p → p.2.length ≤ n) : ∀ p, r.map (prepend c) = .ok p → p.2.length ≤ n := by
  intro p hp
  cases r with
  | error problem => simp [Except.map] at hp
  | ok q =>
    obtain rfl := Except.ok.inj hp
    exact h q rfl

theorem length_cutName {s : List Char} {b : Bool} :
    ∀ p, cutName b s = .ok p → p.2.length ≤ s.length := by
  fun_induction cutName b s with
  | case1 => simp
  | case2 c rest ih =>
    exact length_map_prepend fun p hp => Nat.le_succ_of_le (ih p hp)
  | case3 => simp
  | case4 c rest _ _ =>
    intro p hp
    obtain rfl := Except.ok.inj hp
    simp
  | case5 c rest _ _ ih =>
    exact length_map_prepend fun p hp => Nat.le_succ_of_le (ih p hp)

theorem length_cutLayout {s : List Char} {depth : Nat} :
    ∀ p, cutLayout depth s = .ok p → p.2.length ≤ s.length := by
  fun_induction cutLayout depth s with
  | case1 => simp
  | case3 _ rest =>
    intro p hp
    obtain rfl := Except.ok.inj hp
    simp
  | _ =>
    rename_i ih
    exact length_map_prepend fun p hp => Nat.le_succ_of_le (ih p hp)

theorem length_readLayout {name s : List Char} {conversion : Option Char} {p : Field × List Char}
    (h : readLayout name conversion s = .ok p) : p.2.length ≤ s.length := by
  unfold readLayout at h
  cases hc : cutLayout 0 s with
  | error problem => simp [hc, Except.map] at h
  | ok q =>
    rw [hc] at h
    obtain rfl := Except.ok.inj h
    exact length_cutLayout q hc

theorem length_readConversion {name s : List Char} {p : Field × List Char}
    (h : readConversion name s = .ok p) : p.2.length ≤ s.length := by
  unfold readConversion at h
  split at h
  · simp at h
  · exact Nat.le_succ_of_le (length_readLayout h)
  · split at h
    · obtain rfl := Except.ok.inj h
      simp only [List.length_cons]
      omega
    · split at h
      · have := length_readLayout h
        simp only [List.length_cons]
        omega
      · simp at h

theorem length_readFieldEnd {name s : List Char} {p : Field × List Char}
    (h : readFieldEnd name s = .ok p) : p.2.length ≤ s.length := by
  unfold readFieldEnd at h
  split at h
  · simp at h
  · split at h
    · exact Nat.le_succ_of_le (length_readConversion h)
    · split at h
      · exact Nat.le_succ_of_le (length_readLayout h)
      · obtain rfl := Except.ok.inj h
        exact Nat.le_succ _

theorem length_readField {s : List Char} {p : Field × List Char} (h : readField s = .ok p) :
    p.2.length ≤ s.length := by
  unfold readField at h
  split at h
  · simp at h
  · next hc => exact Nat.le_trans (length_readFieldEnd h) (length_cutName _ hc)

/-! ## Templates -/

/-- The pieces of a template. -/
def pieces (s : List Char) : List Piece :=
  match s with
  | [] => []
  | '{' :: '{' :: rest => .char '{' :: pieces rest
  | '}' :: '}' :: rest => .char '}' :: pieces rest
  | ['{'] => [.broken (.loneBrace '{')]
  | '}' :: _ => [.broken (.loneBrace '}')]
  | '{' :: c :: rest =>
    match h : readField (c :: rest) with
    | .error problem => [.broken problem]
    | .ok (f, after) =>
      have : after.length ≤ (c :: rest).length := length_readField h
      .field f :: pieces after
  | c :: rest => .char c :: pieces rest
termination_by s.length
decreasing_by
  all_goals simp only [List.length_cons] at *
  all_goals omega

theorem pieces_cons {c : Char} {rest : List Char} (hopen : c ≠ '{') (hclose : c ≠ '}') :
    pieces (c :: rest) = .char c :: pieces rest := by
  rw [pieces]
  all_goals simp_all

theorem pieces_of_forall {s : List Char} (h : ∀ c ∈ s, c ≠ '{' ∧ c ≠ '}') :
    pieces s = s.map .char := by
  induction s with
  | nil => simp [pieces]
  | cons c rest ih =>
    obtain ⟨hopen, hclose⟩ := h c (by simp)
    rw [pieces_cons hopen hclose, ih fun d hd => h d (List.mem_cons_of_mem _ hd), List.map_cons]

end DirectiveLowering.Template
