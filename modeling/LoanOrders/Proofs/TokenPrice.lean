import LoanOrders.Proofs.Distance
import LoanOrders.Proofs.Lookup
import LoanOrders.Proofs.Size

/-! The price of a token is what a position was built with. With few enough digits in the number of
tokens and in the price, no step on the way to the position and back rounds. -/

namespace LoanOrders

open Decimal

namespace Decimal

variable {x y : Decimal} {m n : Nat} {e : ℤ}

/-- A positive number with at most `n` significant digits and a moderate exponent. -/
def HasDigits (n : Nat) (x : Decimal) : Prop :=
  ∃ (m : Nat) (e : ℤ), 0 < m ∧ m < 10 ^ n ∧ |e| ≤ 2000 ∧ x.IsUnits m e

theorem hasDigits_finite (hm : 0 < m) (he : |e| ≤ 1000) :
    HasDigits (digitCount m) (.finite false m e) :=
  ⟨m, e, hm, lt_pow_digitCount m, he.trans (by norm_num), isUnits_finite m e⟩

/-- The amount, the value and its product with the unit are exact, so that the number of tokens and the
unit cancel. -/
theorem HasDigits.exists_quotient {a b : Nat} {u : Decimal} (hx : x.HasDigits a) (hy : y.HasDigits b)
    (hab : a + b ≤ 28) (hu : IsUnits 1 e u) (he : |e| ≤ 30) :
    ∃ amount value scaled q,
      Context.standard.mul x u = .ok amount ∧ Context.standard.mul x y = .ok value ∧
      Context.standard.mul value u = .ok scaled ∧ Context.standard.div scaled amount = .ok q ∧
      amount.IsPos ∧ value.IsPos ∧ q.isFinite ∧ q.toRat = y.toRat := by
  obtain ⟨m, j, hmpos, hm, hj, hx⟩ := hx
  obtain ⟨n, k, hnpos, hn, hk, hy⟩ := hy
  rw [abs_le] at he hj hk
  have hmn : m * n < 10 ^ 28 := by
    calc m * n < 10 ^ a * 10 ^ b := Nat.mul_lt_mul'' hm hn
      _ = 10 ^ (a + b) := (pow_add 10 a b).symm
      _ ≤ 10 ^ 28 := Nat.pow_le_pow_right (by norm_num) hab
  have hm28 : m < 10 ^ 28 := (Nat.le_mul_of_pos_right m hnpos).trans_lt hmn
  have hn28 : n < 10 ^ 28 := (Nat.le_mul_of_pos_left n hmpos).trans_lt hmn
  obtain ⟨amount, hamount, hamountUnits⟩ :=
    hx.exists_mul hu (by rwa [mul_one]) (by rw [abs_le]; omega)
  obtain ⟨value, hvalue, hvalueUnits⟩ := hx.exists_mul hy hmn (by rw [abs_le]; omega)
  obtain ⟨scaled, hscaled, hscaledUnits⟩ :=
    hvalueUnits.exists_mul hu (by rwa [mul_one]) (by rw [abs_le]; omega)
  -- The last product as one of the amount with the price, which the quotient leaves.
  rw [mul_right_comm, add_right_comm] at hscaledUnits
  obtain ⟨q, hq, hqUnits⟩ :=
    hscaledUnits.exists_div hamountUnits (by rwa [mul_one]) hn28 (by rw [abs_le]; omega)
  exact ⟨amount, value, scaled, q, hamount, hvalue, hscaled, hq,
    ⟨hamountUnits.finite, hamountUnits.pos (by rwa [mul_one])⟩,
    ⟨hvalueUnits.finite, hvalueUnits.pos (Nat.mul_pos hmpos hnpos)⟩,
    hqUnits.finite, hqUnits.value.trans hy.value.symm⟩

theorem HasDigits.isBetween (h : HasDigits n x) (hn : n ≤ 28) : IsBetween (-2000) 2028 x := by
  obtain ⟨m, e, hpos, hm, he, hx⟩ := h
  obtain ⟨hlow, hhigh⟩ := abs_le.mp he
  refine ⟨hx.finite, ?_, ?_⟩
  · have hone : (1 : ℚ) ≤ m := by exact_mod_cast hpos
    rw [hx.value]
    exact (ten_zpow_le hlow).trans (le_mul_of_one_le_left (ten_zpow_pos e).le hone)
  · have hle := abs_units_le (e := e) (hm.trans_le (Nat.pow_le_pow_right (by norm_num) hn))
    rw [hx.value]
    exact (le_abs_self _).trans (hle.trans (ten_zpow_le (by omega)))

end Decimal

/-- The unit is the exact power of ten, though it has more digits than the context from 28 on. -/
theorem Reserve.isUnits_unit (r : Reserve) : IsUnits 1 r.decimals r.unit := by
  unfold unit
  split_ifs with h
  · exact ⟨rfl, by rw [toRat_ofNat, Nat.cast_pow, Nat.cast_one, one_mul, zpow_natCast]; rfl⟩
  · refine ⟨rfl, ?_⟩
    rw [toRat_false, Nat.cast_pow, Nat.cast_one, one_mul, Nat.cast_ofNat, ← zpow_natCast,
      ← zpow_add₀ (by norm_num)]
    congr 1
    omega

theorem Obligation.exists_priceRatio {o : Obligation} {deposit borrow : Position} {c d : Decimal}
    (hdeposit : o.depositList = [deposit]) (hborrow : o.borrowList = [borrow])
    (hc : deposit.tokenPrice = .ok c) (hd : borrow.tokenPrice = .ok d)
    (hcsize : IsBetween (-2000) 2028 c) (hdsize : IsBetween (-2000) 2028 d) :
    ∃ ratio, o.priceRatio = .ok ratio ∧ ratio.isFinite ∧
      ratio.toRat = Context.standard.rounded (d.toRat / c.toRat) := by
  obtain ⟨ratio, hratio, -⟩ := Context.exists_div_between hdsize hcsize (by decide) (by decide)
  have hok : o.priceRatio = .ok ratio := by
    simp only [priceRatio, hdeposit, hborrow, single, hd, hc, hratio, liftM_ok, ok_bind]
  exact ⟨ratio, hok, priceRatio_ok hdeposit hborrow hc hd hcsize.finite hdsize.finite hok⟩

/-- A number of tokens of a reserve and their price, with few enough digits for an exact product. -/
structure Reserve.IsQuote (r : Reserve) (tokens price : Given) (x y : Decimal) : Prop where
  read : ∃ entries, Reserve.ofEntries entries = .ok r
  tokens : tokens.read = .ok x
  price : price.read = .ok y
  digits : ∃ a b, x.HasDigits a ∧ y.HasDigits b ∧ a + b ≤ 28

namespace Reserve.IsQuote

variable {r s : Reserve} {tokens price tokens' price' : Given} {x y x' y' : Decimal}

theorem exists_tokenPrice (h : r.IsQuote tokens price x y) :
    ∃ p q, Position.ofTokens r tokens price = .ok p ∧ p.tokenPrice = .ok q ∧ q.isFinite ∧
      q.toRat = y.toRat := by
  obtain ⟨entries, hread⟩ := h.read
  rw [Reserve.ofEntries, Validated.result_eq_ok] at hread
  have hnamed := isNamed_of_read hread
  have hdecimals : (r.decimals : ℤ) ≤ 30 := by exact_mod_cast decimals_le_of_read hread
  obtain ⟨a, b, hx, hy, hab⟩ := h.digits
  obtain ⟨amount, value, scaled, q, hamount, hvalue, hscaled, hq, hamountPos, hvaluePos, hqfin, hqval⟩ :=
    hx.exists_quotient hy hab r.isUnits_unit (by rw [abs_le]; omega)
  have hsound : Position.IsSound ⟨r.address, r.mint, r.unit, amount, value⟩ :=
    ⟨⟨r.isUnits_unit.finite, r.isUnits_unit.pos one_pos⟩, hamountPos.isNonneg, hvaluePos.isNonneg⟩
  refine ⟨⟨r.address, r.mint, r.unit, amount, value⟩, q, ?_, ?_, hqfin, hqval⟩
  · simp only [Position.ofTokens, h.tokens, h.price, hamount, hvalue, liftM_ok, ok_bind]
    exact Position.ofEntries_toEntries hsound hnamed.address hnamed.mint
  · simp only [Position.tokenPrice, hscaled, ok_bind]
    exact hq

theorem isBetween (h : r.IsQuote tokens price x y) : IsBetween (-2000) 2028 y := by
  obtain ⟨a, b, -, hy, hab⟩ := h.digits
  exact hy.isBetween (by omega)

/-- A position gives the exact price of its token back. The price ratio of an obligation with one deposit
and one borrow is therefore the rounded quotient of the two prices, whatever the numbers of tokens and
their units are. -/
theorem tokenPrice_eq (h : r.IsQuote tokens price x y) :
    ∃ deposit c, Position.ofTokens r tokens price = .ok deposit ∧ deposit.tokenPrice = .ok c ∧
      c.isFinite ∧ c.toRat = y.toRat ∧
      ∀ (s : Reserve) (tokens' price' : Given) (x' y' : Decimal) (borrow : Position),
        s.IsQuote tokens' price' x' y' → Position.ofTokens s tokens' price' = .ok borrow →
        ∀ market address states o, Obligation.build market address [deposit] [borrow] states = .ok o →
          ∃ ratio quotient, o.priceRatio = .ok ratio ∧ Context.standard.div y' y = .ok quotient ∧
            ratio.isFinite ∧ ratio.toRat = quotient.toRat ∧
            ratio.toRat = Context.standard.rounded (y'.toRat / y.toRat) := by
  obtain ⟨deposit, c, hdeposit, hc, hcfin, hcval⟩ := h.exists_tokenPrice
  refine ⟨deposit, c, hdeposit, hc, hcfin, hcval, ?_⟩
  intro s tokens' price' x' y' borrow h' hborrow market address states o ho
  obtain ⟨borrow', d, hborrow', hd, hdfin, hdval⟩ := h'.exists_tokenPrice
  obtain rfl : borrow' = borrow := Except.ok.inj (hborrow'.symm.trans hborrow)
  obtain ⟨-, hdeposits, hborrows⟩ := Obligation.build_ok ho
  obtain ⟨ratio, hratio, hfin, hval⟩ := Obligation.exists_priceRatio (o := o)
    (by rw [Obligation.depositList, hdeposits]; rfl) (by rw [Obligation.borrowList, hborrows]; rfl)
    hc hd (h.isBetween.congr hcfin hcval) (h'.isBetween.congr hdfin hdval)
  rw [hdval, hcval] at hval
  obtain ⟨quotient, hquotient, -⟩ :=
    Context.exists_div_between h'.isBetween h.isBetween (by decide) (by decide)
  obtain ⟨-, -, hqval⟩ := Context.div_ok h'.isBetween.finite h.isBetween.finite hquotient
  exact ⟨ratio, quotient, hratio, hquotient, hfin, hval.trans hqval.symm, hval⟩

theorem tokenPrice_eq_leveraged : ∃ c ratio, (solDeposit 10).tokenPrice = .ok c ∧ c.toRat = 100 ∧
    (leveraged 10 500).priceRatio = .ok ratio ∧
    ratio.toRat = Context.standard.rounded (1 / 100) := by
  let sol : Reserve := ⟨"sol", "SOL", "solMint", 9, 75, 85, 100⟩
  have hquote (r : Reserve) (tokens price : Nat) (hr : Reserve.ofEntries r.toEntries = .ok r)
      (htokens : 0 < tokens) (hprice : 0 < price) (h : digitCount tokens + digitCount price ≤ 28) :
      r.IsQuote (.value (.ofNat tokens)) (.value (.ofNat price)) (.ofNat tokens) (.ofNat price) :=
    ⟨⟨_, hr⟩, rfl, rfl, _, _, hasDigits_finite htokens (by norm_num),
      hasDigits_finite hprice (by norm_num), h⟩
  have hsol := hquote sol 10 100 (by decide +kernel) (by norm_num) (by norm_num) (by decide +kernel)
  have husd := hquote .dollar 500 1 (by decide +kernel) (by norm_num) (by norm_num) (by decide +kernel)
  have hdeposit : Position.ofTokens sol (.value (.ofNat 10)) (.value (.ofNat 100)) =
      .ok (solDeposit 10) := by decide +kernel
  have hborrow : Position.ofTokens .dollar (.value (.ofNat 500)) (.value (.ofNat 1)) =
      .ok (usdBorrow 500) := by decide +kernel
  have hbuild : Obligation.build longPosition.market (.text "obligation") [solDeposit 10]
      [usdBorrow 500] none = .ok (leveraged 10 500) := by decide +kernel
  obtain ⟨deposit, c, hdeposit', hc, -, hcval, hratio⟩ := hsol.tokenPrice_eq
  obtain rfl : deposit = solDeposit 10 := Except.ok.inj (hdeposit'.symm.trans hdeposit)
  obtain ⟨ratio, -, hratio, -, -, -, hval⟩ := hratio _ _ _ _ _ _ husd hborrow _ _ _ _ hbuild
  exact ⟨c, ratio, hc, by simpa using hcval, hratio, by simpa using hval⟩

end Reserve.IsQuote

end LoanOrders
