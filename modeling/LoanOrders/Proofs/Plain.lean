import LoanOrders.Proofs.Arithmetic

/-! Numbers that are written without a sign and without superfluous zeros. There is one such way to
write each number that is not negative, so that equal numbers are then equal decimals. -/

namespace LoanOrders.Decimal

/-- A number in digits, of which some stand behind the point; the last of these is not zero. -/
def IsPlain (places : Nat) (x : Decimal) : Prop :=
  ∃ m k : Nat, x = .finite false m (-(k : ℤ)) ∧ k ≤ places ∧ (k = 0 ∨ ¬10 ∣ m)

variable {places : Nat} {x y : Decimal}

theorem IsPlain.isFinite (h : IsPlain places x) : x.isFinite := by
  obtain ⟨m, k, rfl, -⟩ := h
  rfl

theorem toRat_places (m k : Nat) : (finite false m (-(k : ℤ))).toRat = m / 10 ^ k := by
  rw [toRat_finite, zpow_neg, zpow_natCast, ← div_eq_mul_inv]
  rfl

/-- Of two ways to write a number, the one with more places behind the point ends in a zero. -/
theorem places_le {m n k l : Nat} (hl : l = 0 ∨ ¬10 ∣ n) (h : m * 10 ^ l = n * 10 ^ k) : l ≤ k := by
  by_contra! hlt
  obtain ⟨i, rfl⟩ := Nat.exists_eq_add_of_lt hlt
  have hn : n = m * 10 ^ i * 10 := by
    apply Nat.eq_of_mul_eq_mul_right (by positivity : 0 < 10 ^ k)
    rw [← h]
    ring
  exact (hl.resolve_left (by omega)) ⟨m * 10 ^ i, by rw [hn, mul_comm]⟩

theorem IsPlain.eq_of_toRat_eq (hx : IsPlain places x) (hy : IsPlain places y)
    (h : x.toRat = y.toRat) : x = y := by
  obtain ⟨m, k, rfl, -, hk⟩ := hx
  obtain ⟨n, l, rfl, -, hl⟩ := hy
  rw [toRat_places, toRat_places, div_eq_div_iff (by positivity) (by positivity)] at h
  have hmn : m * 10 ^ l = n * 10 ^ k := by exact_mod_cast h
  obtain rfl : k = l := le_antisymm (places_le hk hmn.symm) (places_le hl hmn)
  rw [Nat.eq_of_mul_eq_mul_right (by positivity) hmn]

end LoanOrders.Decimal
