import SchemaQuery.Number.Decimal

/-!
The decimal digits of a natural number: there is always one, no number but zero begins with a zero, and
the number is read back from them.
-/

namespace SchemaQuery.Decimal

variable {n : Nat}

theorem digits_ne_nil (n : Nat) : digits n ≠ [] := Nat.toDigits_ne_nil

theorem isDigit_of_mem_digits {c : Char} (h : c ∈ digits n) : c.isDigit = true :=
  Nat.isDigit_of_mem_toDigits (by decide) (by decide) h

theorem digits_eq_append (h : 10 ≤ n) : digits n = digits (n / 10) ++ [(n % 10).digitChar] := by
  rw [digits, Nat.toDigits_of_base_le (by decide) h]
  rfl

theorem digits_of_lt (h : n < 10) : digits n = [n.digitChar] := Nat.toDigits_of_lt_base h

@[simp] theorem ofDigits_digits (n : Nat) : ofDigits (digits n) = n :=
  Nat.ofDigitChars_ten_toDigits

theorem head?_digits_ne (h : n ≠ 0) : (digits n).head? ≠ some '0' := by
  induction n using Nat.strongRecOn with
  | ind n ih =>
    by_cases hlt : n < 10
    · rw [digits_of_lt hlt]
      simpa using h
    · have hfront : n / 10 ≠ 0 := by omega
      have ih := ih (n / 10) (by omega) hfront
      obtain ⟨c, rest, heq⟩ := List.exists_cons_of_ne_nil (digits_ne_nil (n / 10))
      rw [digits_eq_append (by omega), heq]
      rwa [heq] at ih

/-- The digits of a number do not begin with a zero, unless it is the only one. -/
theorem digits_eq_zero_or (n : Nat) : digits n = ['0'] ∨ (digits n).head? ≠ some '0' := by
  by_cases h : n = 0
  · subst h
    exact .inl (digits_of_lt (by decide))
  · exact .inr (head?_digits_ne h)

end SchemaQuery.Decimal
