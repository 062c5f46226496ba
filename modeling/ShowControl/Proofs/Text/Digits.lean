import Mathlib.Data.List.Basic

/-!
# Digits in front of a text

Whoever reads a number takes characters as long as they are digits. Where a number has been written
and no digit follows, it is the digits of this number that are taken (`splits_of_head`), and no zero
leads them unless the number is zero (`toDigits_lead`).
-/

namespace ShowControl.Text

/-- Characters of a kind are taken up to the first that is of another. -/
theorem splits_of_head {p : Char → Bool} {front rest : List Char} (all : ∀ c ∈ front, p c = true)
    (other : ∀ c ∈ rest.head?, p c = false) :
    (front ++ rest).takeWhile p = front ∧ (front ++ rest).dropWhile p = rest := by
  have untouched : rest.takeWhile p = [] ∧ rest.dropWhile p = rest := by
    rcases rest with _ | ⟨c, rest⟩
    · exact ⟨rfl, rfl⟩
    · simp [other c rfl]
  rw [List.takeWhile_append_of_pos all, List.dropWhile_append_of_pos all, untouched.1, untouched.2,
    List.append_nil]
  exact ⟨rfl, rfl⟩

/-- More digits do not make a number less. -/
theorem le_ofDigitChars (ds : List Char) (n : ℕ) : n ≤ Nat.ofDigitChars 10 ds n := by
  rw [Nat.ofDigitChars_eq_ofDigitChars_zero]
  have positive : 0 < 10 ^ ds.length := Nat.pow_pos (by decide)
  exact Nat.le_trans (Nat.le_mul_of_pos_left n positive) (Nat.le_add_right _ _)

theorem isDigit_of_mem_toDigits {n : ℕ} {c : Char} (h : c ∈ Nat.toDigits 10 n) :
    c.isDigit = true :=
  Nat.isDigit_of_mem_toDigits (by decide) (Nat.le_refl _) h

/-- No zero leads the digits of a positive number. -/
theorem head?_toDigits_ne {n : ℕ} (h : 0 < n) : (Nat.toDigits 10 n).head? ≠ some '0' := by
  induction n using Nat.strongRecOn with
  | _ n ih =>
    rcases Nat.lt_or_ge n 10 with single | more
    · rw [Nat.toDigits_of_lt_base single]
      have ones : ∀ k : Fin 10, 0 < k.val → [k.val.digitChar].head? ≠ some '0' := by decide
      exact ones ⟨n, single⟩ h
    · rw [Nat.toDigits_of_base_le (by decide) more,
        List.head?_append_of_ne_nil _ Nat.toDigits_ne_nil]
      exact ih (n / 10) (by omega) (by omega)

/-- The digits of a number may stand in front of a point. -/
theorem toDigits_lead (n : ℕ) :
    ¬(1 < (Nat.toDigits 10 n).length ∧ (Nat.toDigits 10 n).head? = some '0') := by
  rintro ⟨long, zero⟩
  rcases Nat.eq_zero_or_pos n with rfl | positive
  · simp at long
  · exact head?_toDigits_ne positive zero

end ShowControl.Text
