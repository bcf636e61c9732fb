import SourceMask.Text.Offset

/-!
# The order of texts

Texts are compared by the code points of their characters, which orders them as the bytes of
their UTF-8 forms do.

Main results:

- Theorems `le_refl`, `le_trans`, `le_total` and `le_antisymm`: the order is linear.
-/

namespace SourceMask

namespace Text

/-- The order of texts: at the first difference the smaller code point comes first, and a text
comes before its own continuations. -/
def le : Text → Text → Bool
  | [], _ => true
  | _ :: _, [] => false
  | a :: first, b :: second => if a = b then le first second else a.toNat < b.toNat

/-- Characters of one code point are the same. -/
theorem char_eq_of_toNat_eq {a b : Char} (h : a.toNat = b.toNat) : a = b :=
  Char.ext (UInt32.toNat_inj.1 h)

theorem le_refl (text : Text) : le text text := by
  induction text with
  | nil => rfl
  | cons c rest ih => simpa [le] using ih

theorem le_trans {first second third : Text} (h : le first second) (h' : le second third) :
    le first third := by
  induction first generalizing second third with
  | nil => simp [le]
  | cons a first ih =>
    cases second with
    | nil => simp [le] at h
    | cons b second =>
      cases third with
      | nil => simp [le] at h'
      | cons c third =>
        simp only [le] at h h' ⊢
        split at h <;> split at h' <;> split
        · exact ih h h'
        · simp_all
        · simp_all
        · simp_all
        · simp_all
        · simp_all
        · subst_vars
          simp only [decide_eq_true_eq] at h h'
          omega
        · simp only [decide_eq_true_eq] at h h' ⊢
          omega

theorem le_total (first second : Text) : le first second || le second first := by
  induction first generalizing second with
  | nil => simp [le]
  | cons a first ih =>
    cases second with
    | nil => simp [le]
    | cons b second =>
      by_cases hab : a = b
      · subst hab
        simpa [le] using ih second
      · have hne : a.toNat ≠ b.toNat := fun h => hab (char_eq_of_toNat_eq h)
        simp only [le, hab, Ne.symm hab, if_false, Bool.or_eq_true, decide_eq_true_eq]
        omega

theorem le_antisymm {first second : Text} (h : le first second) (h' : le second first) :
    first = second := by
  induction first generalizing second with
  | nil => cases second <;> simp_all [le]
  | cons a first ih =>
    cases second with
    | nil => simp [le] at h
    | cons b second =>
      by_cases hab : a = b
      · subst hab
        simp only [le, if_true] at h h'
        rw [ih h h']
      · simp only [le, hab, Ne.symm hab, if_false, decide_eq_true_eq] at h h'
        omega

end Text

end SourceMask
