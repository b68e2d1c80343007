import LoanOrders.Proofs.Bonus
import LoanOrders.Proofs.Totals

/-! Each step on the way to an execution goes through or refuses with an error about the request, as
long as the numbers that it starts from are limited. None of them fails in the arithmetic. -/

namespace LoanOrders

open Decimal FixedPoint

def ErrorKind.isModel : ErrorKind → Bool
  | .model | .validation | .notFound | .precondition _ => true
  | .fields | .value | .types | .attributes | .integerOverflow | .arithmetic _ => false

def Error.IsModel (e : Error) : Prop := e.kind.isModel = true

def Result.Meets {α : Type} (E : Error → Prop) (P : α → Prop) : Result α → Prop
  | .ok a => P a
  | .error e => E e

namespace Result.Meets

variable {α β : Type} {E F : Error → Prop} {P : α → Prop} {Q : β → Prop} {x : Result α}

theorem bind {f : α → Result β} (hx : x.Meets E P)
    (hf : ∀ a, x = .ok a → P a → (f a).Meets E Q) : Result.Meets E Q (x >>= f) := by
  cases x with
  | ok a => exact hf a rfl hx
  | error e => exact hx

theorem mono {R : α → Prop} (hx : x.Meets E P) (hE : ∀ e, E e → F e) (hP : ∀ a, P a → R a) :
    x.Meets F R := by
  cases x with
  | ok a => exact hP a hx
  | error e => exact hE e hx

theorem inl (hx : x.Meets E P) : x.Meets (fun e => E e ∨ F e) P := hx.mono (fun _ => .inl) fun _ h => h

theorem of_ok {a : α} (h : x = .ok a) (ha : P a) : x.Meets E P := by
  rw [h]
  exact ha

theorem liftM {y : Except Signal α} {a : α} (h : y = .ok a) (ha : P a) :
    Result.Meets E P (liftM y : Result α) := by
  rw [h]
  exact ha

end Result.Meets

theorem meets_single {α : Type} (item : String) (l : List α) :
    (single item l).Meets Error.IsModel (fun a => l = [a]) := by
  rcases l with - | ⟨a, - | ⟨b, l⟩⟩
  · exact rfl
  · exact rfl
  · exact rfl

theorem Decimal.IsWithin.smaller {k : ℤ} {x y z : Decimal} (hx : IsWithin k x) (hy : IsWithin k y)
    (h : x.smaller y = .ok z) : IsWithin k z := by
  rcases smaller_eq_or h with rfl | rfl
  · exact hx
  · exact hy

theorem Context.div_zero_zero {c : Context} {x y : Decimal} (hx : x.isFinite) (hy : y.isFinite)
    (hx₀ : x.toRat = 0) (hy₀ : y.toRat = 0) : c.div x y = .error .invalidOperation := by
  obtain ⟨s, m, e, rfl⟩ := exists_of_isFinite hx
  obtain ⟨t, n, f, rfl⟩ := exists_of_isFinite hy
  rw [← isZero_iff rfl, isZero, beq_iff_eq] at hx₀ hy₀
  rw [div, if_pos hy₀, if_pos hx₀]

/-- Rounding to smallest units keeps the sign. -/
theorem FixedPoint.exists_roundNearest {x : Decimal} (hx : x.isFinite) :
    ∃ y, roundNearest x = .ok y ∧ y.isFinite ∧ (0 ≤ x.toRat → 0 ≤ y.toRat) ∧
      (x.toRat ≤ 0 → y.toRat ≤ 0) := by
  rcases lt_or_ge x.toRat 0 with h | h
  · obtain ⟨s, m, e, rfl⟩ := exists_of_isFinite hx
    have hnonneg (n : Nat) (f : ℤ) : (0 : ℚ) ≤ n * 10 ^ f :=
      mul_nonneg n.cast_nonneg (ten_zpow_pos f).le
    cases s with
    | false =>
      rw [toRat_false] at h
      exact absurd h (not_lt.mpr (hnonneg m e))
    | true =>
      have hsign (n : Nat) (f : ℤ) : (finite true n f).toRat ≤ 0 := by
        rw [toRat_true]
        exact neg_nonpos.mpr (hnonneg n f)
      refine ⟨_, rfl, ?_⟩
      split_ifs
      · exact ⟨rfl, id, id⟩
      · exact ⟨rfl, fun h' => absurd h (not_lt.mpr h'), fun _ => hsign _ _⟩
  · obtain ⟨y, hy, hfin, hval⟩ := Context.toIntegral_away Context.wide hx h
    refine ⟨y, hy, hfin, fun _ => ?_, fun h' => ?_⟩
    · rw [hval, round_eq]
      exact_mod_cast Int.floor_nonneg.mpr (by linarith)
    · rw [hval, le_antisymm h' h, round_zero, Int.cast_zero]

namespace Position

variable {p : Position} {t : TokenAmount} {v : Decimal}

theorem IsOrdinary.exists_tokenPrice (hp : p.IsOrdinary) :
    ∃ x, p.tokenPrice = .ok x ∧ IsBetween (-90) 90 x := by
  obtain ⟨y, hy, hysize⟩ := Context.exists_mul_between hp.value hp.unit (by decide) (by decide)
  obtain ⟨x, hx, hxsize⟩ := Context.exists_div_between hysize hp.amount (by decide) (by decide)
  exact ⟨x, by rw [tokenPrice, hy, ok_bind, hx], hxsize⟩

theorem IsOrdinary.exists_valueOf (hp : p.IsOrdinary) (ht : IsWithin 30 t.amount)
    (hmint : t.mint = p.mint) :
    ∃ v, p.valueOf t = .ok v ∧ IsWithin 90 v ∧ (0 ≤ t.amount.toRat → 0 ≤ v.toRat) := by
  obtain ⟨product, hproduct, hpsize, hpval⟩ :=
    Context.exists_mul_within ht hp.value.isUpTo.isWithin (by decide)
  obtain ⟨v, hv, hvsize, hvval⟩ := Context.exists_div_within hpsize hp.amount.finite
    (by rw [abs_of_pos hp.amount.pos]; exact hp.amount.low) (by decide)
  refine ⟨v, ?_, hvsize, fun h => ?_⟩
  · simp only [valueOf, hmint, beq_self_eq_true, check_true, ok_bind, hproduct, liftM_ok, hv]
  · rw [hvval, hpval]
    exact Context.rounded_nonneg (div_nonneg
      (Context.rounded_nonneg (mul_nonneg h hp.value.pos.le)) hp.amount.pos.le)

theorem IsOrdinary.exists_amountWorth (hp : p.IsOrdinary) (hv : IsWithin 1000 v) :
    ∃ t, p.amountWorth v = .ok t ∧ t.amount.isFinite ∧ (0 ≤ v.toRat → 0 ≤ t.amount.toRat) ∧
      (v.toRat ≤ 0 → t.amount.toRat ≤ 0) := by
  obtain ⟨product, hproduct, hpsize, hpval⟩ :=
    Context.exists_mul_within hv hp.amount.isUpTo.isWithin (by decide)
  obtain ⟨quotient, hquotient, hqsize, hqval⟩ := Context.exists_div_within hpsize hp.value.finite
    (by rw [abs_of_pos hp.value.pos]; exact hp.value.low) (by decide)
  obtain ⟨amount, hamount, hfin, hnonneg, hnonpos⟩ := exists_roundNearest hqsize.finite
  refine ⟨⟨p.mint, amount⟩, ?_, hfin, fun h => hnonneg ?_, fun h => hnonpos ?_⟩
  · simp only [amountWorth, hproduct, hquotient, hamount, liftM_ok, ok_bind, pure_eq_ok]
  · rw [hqval, hpval]
    exact Context.rounded_nonneg (div_nonneg
      (Context.rounded_nonneg (mul_nonneg h hp.amount.pos.le)) hp.value.pos.le)
  · have hshare := share_mono hp.isSound h
    rw [hqval, hpval]
    simpa [share] using hshare

end Position

namespace Obligation

variable {o : Obligation} {x total : Decimal}

theorem IsOrdinary.exists_perDeposit (ho : o.IsOrdinary) (ht : IsUpTo (-32) 86 total) :
    ∃ x, o.perDeposit total = .ok x ∧ IsUpTo (-90) 116 x ∧
      ∃ q, x.toRat = Context.standard.rounded q := by
  unfold perDeposit
  by_cases hzero : o.stats.deposit.isZero = true
  · rw [if_pos hzero]
    exact ⟨.zero, rfl, .zero, 0, by simp⟩
  · have hne : o.stats.deposit.toRat ≠ 0 := by rwa [Ne, ← isZero_iff ho.deposit.finite]
    obtain ⟨x, hx, hsize, hval⟩ :=
      Context.exists_div_upTo ht (ho.deposit.isBetween hne) (by decide) (by decide)
    rw [if_neg hzero]
    exact ⟨x, hx, hsize, _, hval⟩

theorem IsOrdinary.meets_priceRatio (ho : o.IsOrdinary) :
    o.priceRatio.Meets Error.IsModel (fun x => IsBetween (-180) 180 x ∧ o.borrowList ≠ []) := by
  refine (meets_single "borrow" o.borrowList).bind fun borrow _ hborrow => ?_
  refine (meets_single "deposit" o.depositList).bind fun deposit _ hdeposit => ?_
  obtain ⟨a, ha, hasize⟩ := (ho.borrows borrow (by simp [hborrow])).exists_tokenPrice
  obtain ⟨b, hb, hbsize⟩ := (ho.deposits deposit (by simp [hdeposit])).exists_tokenPrice
  obtain ⟨x, hx, hxsize⟩ := Context.exists_div_between hasize hbsize (by decide) (by decide)
  rw [ha, hb]
  exact .liftM hx ⟨hxsize, by simp [hborrow]⟩

theorem IsOrdinary.exists_liquidationRatio (ho : o.IsOrdinary) (hne : o.borrowList ≠ [])
    (hx : IsBetween (-180) 180 x) : ∃ y, o.liquidationRatio x = .ok y ∧ IsUpTo (-300) 300 y ∧
      ∃ q, y.toRat = Context.standard.rounded q := by
  obtain ⟨scaled, hscaled, hsize, -⟩ :=
    Context.exists_mul_upTo hx.isUpTo ho.limit (by decide) (by decide)
  obtain ⟨y, hy, hysize, hyval⟩ := Context.exists_div_upTo hsize
    (ho.weighted.isBetween (ho.weighted_ne hne)) (by decide) (by decide)
  exact ⟨y, by rw [liquidationRatio, hscaled, ok_bind, hy],
    hysize.mono (by decide) (by decide), _, hyval⟩

end Obligation

theorem FixedPoint.IsSlotNumber.isWithin {x : Decimal} (hx : IsSlotNumber x) : IsWithin 62 x :=
  ⟨hx.finite, by rw [abs_of_nonneg hx.nonneg]; exact hx.lt.le⟩

namespace Condition

variable {x t l : Decimal}

/-- The whole distance to liquidation is not next to nothing: both ends of it have few digits. -/
theorem ten_zpow_le_whole (hl : IsUpTo (-300) 300 l) (hq : ∃ q, l.toRat = Context.standard.rounded q)
    (ht : IsSlotNumber t) (hlt : t.toRat < l.toRat) : (10 : ℚ) ^ (-300 : ℤ) ≤ l.toRat - t.toRat := by
  obtain ⟨q, hq⟩ := hq
  rcases ht.nonneg.eq_or_lt with hzero | hpos
  · rw [← hzero, sub_zero]
    exact (hl.isBetween (ht.nonneg.trans_lt hlt).ne').low
  · have hlow : (10 : ℚ) ^ (-18 : ℤ) ≤ |q| := by
      by_contra! hsmall
      have habs := Context.abs_rounded_le (c := .standard) (by decide) hsmall.le
      rw [← hq, abs_of_nonneg hl.nonneg] at habs
      linarith [ht.ten_zpow_le hpos]
    obtain ⟨k, -, hk⟩ := ht.places
    obtain ⟨n, hn⟩ := Context.exists_int_rounded (c := .standard) hlow
    have hplace : (-18 : ℤ) - (Context.standard.precision : ℤ) + 1 = -45 := rfl
    have hdiff : l.toRat - t.toRat = ((n - k * 10 ^ 27 : ℤ) : ℚ) * 10 ^ (-45 : ℤ) := by
      rw [hq, hn, hplace, hk]
      push_cast
      norm_num
      ring
    have hint : 0 < n - k * 10 ^ 27 := by
      have hprod : 0 < ((n - k * 10 ^ 27 : ℤ) : ℚ) * 10 ^ (-45 : ℤ) := hdiff ▸ sub_pos.mpr hlt
      exact_mod_cast (mul_pos_iff_of_pos_right (ten_zpow_pos _)).mp hprod
    have hone : (1 : ℚ) ≤ ((n - k * 10 ^ 27 : ℤ) : ℚ) := by exact_mod_cast hint
    rw [hdiff]
    exact (ten_zpow_le (by decide)).trans (le_mul_of_one_le_left (ten_zpow_pos _).le hone)

theorem exists_distanceAbove (hx : IsUpTo (-300) 300 x) (hl : IsUpTo (-300) 300 l)
    (hq : ∃ q, l.toRat = Context.standard.rounded q) (ht : IsSlotNumber t) :
    ∃ r, distanceAbove x t l = .ok r ∧ ∀ d ∈ r, IsWithin 601 d := by
  have htsize : IsWithin 300 t := ht.isWithin.mono (by decide)
  rw [distanceAbove, le_eq hx.finite ht.finite, ge_eq ht.finite hl.finite]
  by_cases hbelow : x.toRat ≤ t.toRat
  · exact ⟨none, by simp [hbelow], by simp⟩
  · by_cases hpast : l.toRat ≤ t.toRat
    · refine ⟨some .one, by simp [hbelow, hpast], fun d hd => ?_⟩
      obtain rfl : Decimal.one = d := by simpa using hd
      exact isWithin_one (by decide)
    · obtain ⟨crossed, hcrossed, hcsize, -⟩ := Context.exists_sub_within hx.isWithin htsize (by decide)
      obtain ⟨whole, hwhole, hwsize, hwval⟩ := Context.exists_sub_within hl.isWithin htsize (by decide)
      have hgap := Context.ten_zpow_le_rounded_of_le (by decide)
        (ten_zpow_le_whole hl hq ht (not_le.mp hpast))
      rw [← hwval] at hgap
      obtain ⟨d, hd, hdsize, -⟩ := Context.exists_div_within hcsize hwsize.finite
        (hgap.trans (le_abs_self _)) (by decide)
      refine ⟨some d, by simp [hbelow, hpast, hcrossed, hwhole, hd], fun d' hd' => ?_⟩
      obtain rfl : d = d' := by simpa using hd'
      exact hdsize

theorem exists_distanceBelow (hx : IsUpTo (-300) 300 x) (ht : IsSlotNumber t) :
    ∃ r, distanceBelow x t = .ok r ∧ ∀ d ∈ r, IsWithin 601 d := by
  rw [distanceBelow, ge_eq hx.finite ht.finite]
  by_cases habove : t.toRat ≤ x.toRat
  · exact ⟨none, by simp [habove], by simp⟩
  · obtain ⟨crossed, hcrossed, hcsize, -⟩ := Context.exists_sub_within (k := 300)
      (ht.isWithin.mono (by decide)) hx.isWithin (by decide)
    have hpos : 0 < t.toRat := hx.nonneg.trans_lt (not_le.mp habove)
    have hlow := (ht.ten_zpow_le hpos).trans (le_abs_self _)
    obtain ⟨d, hd, hdsize, -⟩ := Context.exists_div_within hcsize ht.finite hlow (by decide)
    refine ⟨some d, by simp [habove, hcrossed, hd], fun d' hd' => ?_⟩
    obtain rfl : d = d' := by simpa using hd'
    exact hdsize.mono (by decide)

theorem meets_evaluate {c : Condition} {o : Obligation} (ho : o.IsOrdinary)
    (hc : IsSlotNumber c.threshold) :
    (c.evaluate o).Meets Error.IsModel (fun r => ∀ d ∈ r, IsWithin 601 d) := by
  cases c with
  | ltvAbove t =>
    obtain ⟨x, hx, hxsize, -⟩ := ho.exists_perDeposit ho.weighted
    obtain ⟨l, hl, hlsize, hlval⟩ := ho.exists_perDeposit ho.limit
    obtain ⟨r, hr, hrsize⟩ := exists_distanceAbove (t := t) (hxsize.mono (by decide) (by decide))
      (hlsize.mono (by decide) (by decide)) hlval hc
    have heq : (ltvAbove t).evaluate o = .ok r := by
      simp only [evaluate, Obligation.loanToValue, Obligation.liquidationLtv, hx, hl, hr, liftM_ok,
        ok_bind]
    exact .of_ok heq hrsize
  | ltvBelow t =>
    obtain ⟨x, hx, hxsize, -⟩ := ho.exists_perDeposit ho.weighted
    obtain ⟨r, hr, hrsize⟩ := exists_distanceBelow (t := t) (hxsize.mono (by decide) (by decide)) hc
    have heq : (ltvBelow t).evaluate o = .ok r := by
      simp only [evaluate, Obligation.loanToValue, hx, hr, liftM_ok, ok_bind]
    exact .of_ok heq hrsize
  | priceRatioAbove t =>
    refine ho.meets_priceRatio.bind fun x _ hx => ?_
    obtain ⟨hxsize, hne⟩ := hx
    obtain ⟨l, hl, hlsize, hlval⟩ := ho.exists_liquidationRatio hne hxsize
    obtain ⟨r, hr, hrsize⟩ := exists_distanceAbove (t := t)
      (hxsize.isUpTo.mono (by decide) (by decide)) hlsize hlval hc
    rw [hl]
    exact .liftM hr hrsize
  | priceRatioBelow t =>
    refine ho.meets_priceRatio.bind fun x _ hx => ?_
    obtain ⟨r, hr, hrsize⟩ :=
      exists_distanceBelow (t := t) (hx.1.isUpTo.mono (by decide) (by decide)) hc
    exact .liftM hr hrsize
  | foreign name t =>
    intro d hd
    obtain rfl : Decimal.one = d := by simpa using hd
    exact isWithin_one (by decide)

end Condition

end LoanOrders
