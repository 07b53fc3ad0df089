/-!
# ASCII classes

Where the capitals, the small letters and the digits of ASCII lie. No character is in two of these
classes.

Results:
* `toNat_of_isUpper`, `toNat_of_isLower`, `toNat_of_isDigit`: the code points of the classes.
* `classes_of_not_isAlphanum`: what is neither a letter nor a digit is in none of them.
-/

namespace DirectiveLowering.Text

variable {c : Char}

theorem isAlpha_eq (c : Char) : c.isAlpha = (c.isUpper || c.isLower) := rfl

theorem isAlphanum_eq (c : Char) : c.isAlphanum = (c.isUpper || c.isLower || c.isDigit) := rfl

/-! ## Code points -/

theorem toNat_of_isUpper (h : c.isUpper = true) : 65 ≤ c.toNat ∧ c.toNat ≤ 90 :=
  of_decide_eq_true h

theorem toNat_of_isLower (h : c.isLower = true) : 97 ≤ c.toNat ∧ c.toNat ≤ 122 := by
  obtain ⟨hlow, hhigh⟩ := Bool.and_eq_true_iff.1 h
  exact ⟨of_decide_eq_true hlow, of_decide_eq_true hhigh⟩

theorem toNat_of_isDigit (h : c.isDigit = true) : 48 ≤ c.toNat ∧ c.toNat ≤ 57 := by
  obtain ⟨hlow, hhigh⟩ := Bool.and_eq_true_iff.1 h
  exact ⟨of_decide_eq_true hlow, of_decide_eq_true hhigh⟩

/-! ## Classes apart -/

theorem not_isLower_of_isUpper (h : c.isUpper = true) : c.isLower = false := by
  rw [Bool.eq_false_iff]
  intro hlower
  have hu := toNat_of_isUpper h
  have hl := toNat_of_isLower hlower
  omega

theorem not_isUpper_of_isLower (h : c.isLower = true) : c.isUpper = false := by
  rw [Bool.eq_false_iff]
  intro hupper
  rw [not_isLower_of_isUpper hupper] at h
  cases h

theorem not_isUpper_of_isDigit (h : c.isDigit = true) : c.isUpper = false := by
  rw [Bool.eq_false_iff]
  intro hupper
  have hu := toNat_of_isUpper hupper
  have hd := toNat_of_isDigit h
  omega

theorem not_isLower_of_isDigit (h : c.isDigit = true) : c.isLower = false := by
  rw [Bool.eq_false_iff]
  intro hlower
  have hl := toNat_of_isLower hlower
  have hd := toNat_of_isDigit h
  omega

theorem not_isDigit_of_isUpper (h : c.isUpper = true) : c.isDigit = false := by
  rw [Bool.eq_false_iff]
  intro hdigit
  rw [not_isUpper_of_isDigit hdigit] at h
  cases h

theorem not_isDigit_of_isLower (h : c.isLower = true) : c.isDigit = false := by
  rw [Bool.eq_false_iff]
  intro hdigit
  rw [not_isLower_of_isDigit hdigit] at h
  cases h

theorem classes_of_not_isAlphanum (h : c.isAlphanum = false) :
    c.isUpper = false ∧ c.isLower = false ∧ c.isDigit = false := by
  rwa [isAlphanum_eq, Bool.or_eq_false_iff, Bool.or_eq_false_iff, and_assoc] at h

end DirectiveLowering.Text
