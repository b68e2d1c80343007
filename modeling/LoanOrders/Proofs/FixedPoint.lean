import LoanOrders.FixedPoint
import LoanOrders.Proofs.Outcome
import LoanOrders.Proofs.Places
import LoanOrders.Proofs.Plain

/-! What a slot keeps of a number. Storing rounds to 60 binary places and reading back to 18 decimal
ones; together the two lose less than the last of these, and nothing of a number without digits
below it. -/

namespace LoanOrders.FixedPoint

/-- The integer that a number is stored as, if a slot has room for it. -/
def scaled (q : ℚ) : ℤ := nearestEven (Context.wide.rounded (q * scale))

/-- The number that a stored integer is read back as. -/
def unscaled (n : Nat) : ℚ := nearestEven (n / scale * 10 ^ decimalPlaces) / 10 ^ decimalPlaces

theorem scale_eq : (scale : ℚ) = 2 ^ 60 := by
  norm_num [scale, fractionBits]

theorem maxEncoded_eq : (maxEncoded : ℚ) = 2 ^ 128 - 1 := by
  norm_num [maxEncoded]

theorem maxEncoded_lt : (maxEncoded : ℚ) < 2 ^ 128 := by
  rw [maxEncoded_eq]
  exact sub_one_lt _

theorem scaled_mono : Monotone scaled := fun _ _ h =>
  nearestEven_mono (Context.rounded_mono (mul_le_mul_of_nonneg_right h (Nat.cast_nonneg _)))

theorem unscaled_mono : Monotone unscaled := by
  intro m n h
  have hquot : (m : ℚ) / scale * 10 ^ decimalPlaces ≤ n / scale * 10 ^ decimalPlaces := by
    have : (m : ℚ) ≤ n := by exact_mod_cast h
    gcongr
  exact div_le_div_of_nonneg_right (by exact_mod_cast nearestEven_mono hquot) (by positivity)

variable {x : Decimal} {q : ℚ} {n : Nat}

theorem pos_of_scaled (h : 0 < scaled q) : 0 < q := by
  by_contra hq
  have hmono := scaled_mono (not_lt.mp hq)
  simp only [scaled, zero_mul, Context.rounded_zero, nearestEven_zero] at hmono h
  omega

section Encoding

theorem toInteger_eq {k : ℤ} (hx : x.isFinite) (h : x.toRat = k) : toInteger x = .ok k := by
  obtain ⟨s, m, e, rfl⟩ := Decimal.exists_of_isFinite hx
  obtain ⟨a, habs⟩ : ∃ a : Nat, (m : ℚ) * 10 ^ e = a :=
    ⟨k.natAbs, by rw [← Context.abs_toRat_finite s, h, Nat.cast_natAbs, Int.cast_abs]⟩
  have hk : k = if s then -(a : ℤ) else a := by
    have hsign := Context.toRat_finite_eq_ite s m e
    rw [h, habs] at hsign
    split_ifs at hsign ⊢ <;> exact_mod_cast hsign
  have ha : (if 0 ≤ e then m * 10 ^ e.toNat
      else if digitCount m + e ≤ 0 then 0 else m / 10 ^ (-e).toNat) = a := by
    split_ifs with he hdigits
    · rw [← Int.toNat_of_nonneg he, zpow_natCast] at habs
      exact_mod_cast habs
    · have hlt : (m : ℚ) * 10 ^ e < 1 := by
        refine (natCast_mul_zpow_lt m e).trans_le ?_
        rw [← zpow_zero (10 : ℚ)]
        exact ten_zpow_le (by omega)
      rw [habs] at hlt
      have : a < 1 := by exact_mod_cast hlt
      omega
    · have hpow : (10 : ℚ) ^ e = (10 ^ (-e).toNat)⁻¹ := by
        rw [← zpow_natCast, Int.toNat_of_nonneg (by omega), ← zpow_neg, neg_neg]
      have hcut : m = a * 10 ^ (-e).toNat := by
        rw [hpow, mul_inv_eq_iff_eq_mul₀ (by positivity)] at habs
        exact_mod_cast habs
      rw [hcut, Nat.mul_div_cancel _ (by positivity)]
  simp only [toInteger]
  rw [ha, ← hk]

theorem isFinite_of_encode (h : encode x = .ok n) : x.isFinite := by
  cases x with
  | finite => rfl
  | infinite s => simp [encode, Context.mul, Decimal.ofNat, scale, Context.toIntegral, toInteger] at h
  | nan s signaling p =>
    cases signaling <;>
      simp [encode, Context.mul, Decimal.ofNat, Context.nanResult, Context.quietNaN,
        Decimal.isSignaling, Context.toIntegral, toInteger] at h

/-- A finite number is rounded to the nearest encoding, unless it is too large to be scaled. -/
theorem encode_eq {p : Decimal} (hp : Context.wide.mul x (.ofNat scale) = .ok p)
    (hx : x.isFinite) : encode x = if scaled x.toRat < 0 ∨ (maxEncoded : ℤ) < scaled x.toRat
      then .error (.notFraction x.text) else .ok (scaled x.toRat).toNat := by
  obtain ⟨hfin, hval⟩ := Context.mul_ok hx (Decimal.isFinite_ofNat _) hp
  obtain ⟨y, hy, hyfin, hyval⟩ := Context.toIntegral_even Context.wide hfin
  have hint : toInteger y = .ok (scaled x.toRat) := by
    apply toInteger_eq hyfin
    rw [hyval, hval, Decimal.toRat_ofNat, scaled]
  simp only [encode, hp, hy, hint, liftM_ok, ok_bind, throw_eq_error, pure_eq_ok]

theorem encode_ok (h : encode x = .ok n) :
    x.isFinite ∧ (n : ℤ) = scaled x.toRat ∧ n ≤ maxEncoded := by
  have hx := isFinite_of_encode h
  obtain ⟨p, hp, -⟩ := bind_eq_ok.mp h
  rw [encode_eq (liftM_eq_ok.mp hp) hx] at h
  split_ifs at h with hrange
  obtain rfl : (scaled x.toRat).toNat = n := by simpa using h
  exact ⟨hx, by omega, by omega⟩

theorem encode_of_le (hx : x.isFinite) (h₀ : 0 ≤ scaled x.toRat) (h₁ : scaled x.toRat ≤ maxEncoded)
    (hq : |x.toRat * scale| < 10 ^ Context.maxExponent) :
    encode x = .ok (scaled x.toRat).toNat := by
  obtain ⟨p, hp⟩ := Context.exists_mul (c := Context.wide) hx
    (Decimal.isFinite_ofNat scale) (by rwa [Decimal.toRat_ofNat])
  rw [encode_eq hp hx, if_neg (by omega)]

theorem encode_maxValue : encode maxValue = .ok maxEncoded := rfl

end Encoding

section Decoding

theorem natCast_div_scale_le (h : n ≤ maxEncoded) : (n : ℚ) / scale < 10 ^ (21 : ℤ) := by
  have hn : (n : ℚ) ≤ maxEncoded := by exact_mod_cast h
  rw [scale_eq, div_lt_iff₀ (by norm_num)]
  refine (hn.trans_lt maxEncoded_lt).trans ?_
  norm_num

theorem wide_rounded_eq_self {k : ℤ} (h : |(k : ℚ)| < 10 ^ 79) :
    Context.wide.rounded (k / 10 ^ 19) = k / 10 ^ 19 := by
  have hk : |k| < 10 ^ 80 := by
    have : (|k| : ℚ) < 10 ^ 80 := h.trans (by norm_num)
    exact_mod_cast this
  have hself := Context.rounded_eq_self_of_lt (c := Context.wide) (k := -19) hk (by decide)
  rwa [zpow_neg, ← div_eq_mul_inv, zpow_ofNat] at hself

/-- Not all of the digits of an encoded value need fit. A value halfway between two multiples of the
last decimal place has few digits, however, and any other keeps its distance from such values. -/
theorem nearestEven_wide_rounded (h : n ≤ maxEncoded) :
    nearestEven (Context.wide.rounded (n / scale) * 10 ^ decimalPlaces) =
      nearestEven (n / scale * 10 ^ decimalPlaces) := by
  have hlt := natCast_div_scale_le h
  have hpos : (0 : ℚ) ≤ n / scale := by positivity
  have hplaces : (10 : ℚ) ^ decimalPlaces = 10 ^ 18 := rfl
  rw [hplaces]
  set v := (n : ℚ) / scale * 10 ^ 18 with hv
  obtain ⟨N, hN⟩ : ∃ N, nearestEven v = N := ⟨_, rfl⟩
  have hnear := abs_sub_nearestEven_le v
  rw [hN] at hnear
  rcases hnear.lt_or_eq with hclose | htie
  · have herr : |Context.wide.rounded (n / scale) - n / scale| ≤ 10 ^ (21 - 80 : ℤ) / 2 :=
      Context.abs_rounded_sub_le_of_lt (c := Context.wide) (by rwa [abs_of_nonneg hpos])
        (by decide)
    -- The distance is a whole number of parts of which half a decimal place has `2 ^ 41`.
    have hparts : (v - N) * 2 ^ 42 = ((n * 5 ^ 18 - N * 2 ^ 42 : ℤ) : ℚ) := by
      rw [hv, scale_eq]
      push_cast
      ring
    have hwhole : |(v - N) * 2 ^ 42| ≤ 2 ^ 41 - 1 := by
      have hbelow : |(v - N) * 2 ^ 42| < 2 ^ 41 := by
        rw [abs_mul, abs_of_pos (by norm_num : (0 : ℚ) < 2 ^ 42)]
        linarith
      rw [hparts] at hbelow ⊢
      have hint : |(n * 5 ^ 18 - N * 2 ^ 42 : ℤ)| < 2 ^ 41 := by exact_mod_cast hbelow
      have hle : |(n * 5 ^ 18 - N * 2 ^ 42 : ℤ)| ≤ 2 ^ 41 - 1 := by omega
      exact_mod_cast hle
    rw [hN]
    apply nearestEven_eq_of_abs_lt
    rw [abs_le] at herr hwhole
    rw [abs_lt]
    norm_num at herr
    constructor <;> linarith
  · have hhalf : ∃ k : ℤ, (n : ℚ) / scale = k / 10 ^ 19 := by
      rcases eq_or_eq_neg_of_abs_eq htie with hup | hdown
      · exact ⟨10 * N + 5, by push_cast; linarith⟩
      · exact ⟨10 * N - 5, by push_cast; linarith⟩
    obtain ⟨k, hk⟩ := hhalf
    have hsize : |(k : ℚ)| < 10 ^ 79 := by
      have hkpos : (0 : ℚ) ≤ k := by
        rw [hk] at hpos
        by_contra hneg
        have := div_neg_of_neg_of_pos (not_le.mp hneg) (by norm_num : (0 : ℚ) < 10 ^ 19)
        linarith
      rw [hk, div_lt_iff₀ (by norm_num)] at hlt
      rw [abs_of_nonneg hkpos]
      refine hlt.trans ?_
      norm_num
    rw [hv, hk, wide_rounded_eq_self hsize]

theorem unscaled_nonneg (n : Nat) : 0 ≤ unscaled n := by
  have h : 0 ≤ nearestEven ((n : ℚ) / scale * 10 ^ decimalPlaces) :=
    nearestEven_nonneg (by positivity)
  exact div_nonneg (by exact_mod_cast h) (by positivity)

theorem abs_unscaled_sub_div_le (n : Nat) : |unscaled n - n / scale| ≤ 1 / 10 ^ 18 / 2 := by
  have hnear := abs_sub_nearestEven_le ((n : ℚ) / scale * 10 ^ decimalPlaces)
  have hplaces : (10 : ℚ) ^ decimalPlaces = 10 ^ 18 := rfl
  rw [hplaces, abs_le] at hnear
  rw [unscaled, hplaces, abs_le]
  constructor <;> linarith

theorem quotient_ok (h : Context.wide.div (.ofInt n) (.ofNat scale) = .ok x) :
    ∃ m e, x = .finite false m e ∧ x.toRat = Context.wide.rounded (n / scale) := by
  rw [Decimal.ofInt_natCast] at h
  obtain ⟨m, e, hx⟩ := Context.div_finite_ok h
  obtain ⟨-, -, hval⟩ := Context.div_ok (Decimal.isFinite_ofNat n) (Decimal.isFinite_ofNat scale) h
  rw [Decimal.toRat_ofNat, Decimal.toRat_ofNat] at hval
  exact ⟨m, e, hx, hval⟩

/-- A decoded number is rounded to the last decimal place of a slot, and written plainly. -/
theorem decode_ok (h : decode n = .ok x) : x.IsPlain decimalPlaces ∧
    x.toRat = nearestEven (Context.wide.rounded (n / scale) * 10 ^ decimalPlaces) /
      10 ^ decimalPlaces ∧ x.toRat < 10 ^ (62 : ℤ) := by
  simp only [decode, bind_eq_ok] at h
  obtain ⟨quotient, hquotient, rounded, hrounded, normal, hnormal, hx⟩ := h
  obtain ⟨a, b, rfl, hval⟩ := quotient_ok hquotient
  have hplace : -(decimalPlaces : ℤ) = -18 := rfl
  rw [hplace] at hrounded
  obtain ⟨m, rfl, hm, hround⟩ :=
    Context.quantize_ok (c := Context.wide) (by decide) (by decide) hrounded
  obtain ⟨k, f, hk, hkval, hplain⟩ := Context.normalize_eq (c := Context.wide) (s := false)
    (e := -18) hm (by decide) (by decide)
  obtain rfl : .finite false k f = normal := Except.ok.inj (hk.symm.trans hnormal)
  have hvalue : (Decimal.finite false k f).toRat =
      nearestEven (Context.wide.rounded (n / scale) * 10 ^ decimalPlaces) / 10 ^ decimalPlaces := by
    have hplaces : (10 : ℚ) ^ decimalPlaces = 10 ^ 18 := rfl
    rw [hkval, hround, hval, hplaces, zpow_neg, div_inv_eq_mul, zpow_ofNat, ← div_eq_mul_inv]
  have hlt : (Decimal.finite false k f).toRat < 10 ^ (62 : ℤ) := by
    have hm' : (m : ℚ) < 10 ^ 80 := by exact_mod_cast hm
    have hplaces : (Decimal.finite false m (-18)).toRat = m / 10 ^ 18 := Decimal.toRat_places m 18
    rw [hkval, hplaces, div_lt_iff₀ (by positivity)]
    norm_num at hm' ⊢
    exact hm'
  dsimp only at hx
  split_ifs at hx with hf
  · -- The value is an integer, which is written out.
    obtain ⟨l, rfl, -, hlval⟩ := Context.quantize_ok (c := Context.wide) (by decide) (by decide) hx
    have hint : (Decimal.finite false k f).toRat =
        ((Context.signed false k * 10 ^ f.toNat : ℤ) : ℚ) := by
      rw [Decimal.toRat_finite]
      push_cast
      rw [← zpow_natCast, Int.toNat_of_nonneg hf.le]
    have hself : (Decimal.finite false l 0).toRat = (Decimal.finite false k f).toRat := by
      rw [hlval, zpow_zero, div_one, mul_one, hint, nearestEven_intCast]
    rw [hself]
    exact ⟨⟨l, 0, rfl, Nat.zero_le _, .inl rfl⟩, hvalue, hlt⟩
  · obtain rfl : .finite false k f = x := by simpa using hx
    refine ⟨⟨k, (-f).toNat, ?_, ?_, ?_⟩, hvalue, hlt⟩
    · rw [Int.toNat_of_nonneg (by omega), neg_neg]
    · have : decimalPlaces = 18 := rfl
      omega
    · rcases hplain with ⟨-, rfl⟩ | ⟨-, hk'⟩
      · exact .inl rfl
      · exact .inr hk'

/-- Only the number of digits can keep an integer from being decoded. -/
theorem exists_decode (h : Context.wide.rounded (n / scale) < 10 ^ (62 : ℤ)) :
    ∃ x, decode n = .ok x := by
  have hpos : (0 : ℚ) ≤ n / scale := by positivity
  have hscale : (Decimal.ofNat scale).toRat ≠ 0 := by
    rw [Decimal.toRat_ofNat, scale_eq]
    norm_num
  have hquot : |(Decimal.ofInt n).toRat / (Decimal.ofNat scale).toRat| < 10 ^ Context.maxExponent := by
    have hlt := Context.lt_ten_zpow_of_rounded (c := Context.wide) (by decide) h
    rw [Decimal.ofInt_natCast, Decimal.toRat_ofNat, Decimal.toRat_ofNat, abs_of_nonneg hpos]
    exact hlt.trans_le (ten_zpow_le (by decide))
  obtain ⟨x, hx⟩ := Context.exists_div (c := Context.wide) (x := .ofInt n) rfl
    (Decimal.isFinite_ofNat scale) hscale hquot
  obtain ⟨a, b, rfl, hval⟩ := quotient_ok hx
  have hnonneg := Context.rounded_nonneg (c := Context.wide) hpos
  have hdigits := Context.rounded_le_of_lt (c := Context.wide) (k := -18) (by decide) h
  obtain ⟨q, hq⟩ := Context.exists_quantize (c := Context.wide) (x := .finite false a b) (-18) rfl
    (by decide) (by decide) (by rwa [hval, abs_of_nonneg hnonneg])
  obtain ⟨m, rfl, hm, -⟩ := Context.quantize_ok (c := Context.wide) (by decide) (by decide) hq
  obtain ⟨k, f, hnorm, hkval, -⟩ := Context.normalize_eq (c := Context.wide) (s := false) hm
    (by decide : Context.wide.lowestPlace ≤ -18) (by decide)
  have hdecode : decode n = if 0 < f then Context.wide.quantize .even (.finite false k f) 0
      else .ok (.finite false k f) := by
    have hplace : -(decimalPlaces : ℤ) = -18 := rfl
    simp only [decode, hx, ok_bind, hplace, hq, hnorm, pure_eq_ok]
  rw [hdecode]
  split_ifs with hf
  · refine Context.exists_quantize (c := Context.wide) 0 rfl (by decide) (by decide) ?_
    have hm' : (m : ℚ) ≤ 10 ^ Context.wide.precision - 1 := by
      rw [le_sub_iff_add_le]
      exact_mod_cast hm
    have hsmall : (m : ℚ) * 10 ^ (-18 : ℤ) ≤ m :=
      mul_le_of_le_one_right m.cast_nonneg (by norm_num)
    rw [hkval, Context.abs_toRat_finite, zpow_zero, mul_one]
    exact hsmall.trans hm'
  · exact ⟨_, rfl⟩

theorem decode_eq (h : n ≤ maxEncoded) :
    ∃ x, decode n = .ok x ∧ x.isFinite ∧ x.toRat = unscaled n := by
  have hmono := Context.rounded_mono (c := Context.wide) (natCast_div_scale_le h).le
  rw [Context.rounded_ten_zpow (by decide)] at hmono
  obtain ⟨x, hx⟩ := exists_decode (hmono.trans_lt (zpow_lt_zpow_right₀ (by norm_num) (by decide)))
  obtain ⟨hplain, hval, -⟩ := decode_ok hx
  rw [nearestEven_wide_rounded h] at hval
  exact ⟨x, hx, hplain.isFinite, hval⟩

end Decoding

section RoundTrip

variable (hn : (n : ℤ) = scaled q) (hmax : n ≤ maxEncoded)
include hn hmax

theorem abs_mul_scale_lt : |q * scale| < 10 ^ (39 : ℤ) := by
  have hnear := abs_le.mp (abs_sub_nearestEven_le (Context.wide.rounded (q * scale)))
  have hn' : (nearestEven (Context.wide.rounded (q * scale)) : ℚ) = n := by
    rw [scaled] at hn
    exact_mod_cast hn.symm
  have hle : (n : ℚ) ≤ maxEncoded := by exact_mod_cast hmax
  have hnonneg : (0 : ℚ) ≤ n := n.cast_nonneg
  have hself : Context.wide.rounded (10 ^ (39 : ℤ)) = 10 ^ (39 : ℤ) :=
    Context.rounded_ten_zpow (by decide)
  have hbound : (maxEncoded : ℚ) < 10 ^ (39 : ℤ) - 1 := by norm_num [maxEncoded]
  rw [hn'] at hnear
  rw [abs_lt]
  constructor
  · by_contra hlow
    have hmono := Context.rounded_mono (c := Context.wide) (not_lt.mp hlow)
    rw [Context.rounded_neg, hself] at hmono
    linarith
  · exact Context.lt_ten_zpow_of_rounded (c := Context.wide) (by decide) (by linarith)

theorem abs_natCast_sub_le : |n - q * scale| ≤ 1 / 2 + 1 / 10 ^ 41 := by
  have herr : |Context.wide.rounded (q * scale) - q * scale| ≤ 10 ^ (39 - 80 : ℤ) / 2 :=
    Context.abs_rounded_sub_le_of_lt (c := Context.wide) (abs_mul_scale_lt hn hmax) (by decide)
  have hnear := abs_le.mp (abs_sub_nearestEven_le (Context.wide.rounded (q * scale)))
  have hn' : (nearestEven (Context.wide.rounded (q * scale)) : ℚ) = n := by
    rw [scaled] at hn
    exact_mod_cast hn.symm
  rw [hn'] at hnear
  rw [abs_le] at herr ⊢
  norm_num at herr ⊢
  constructor <;> linarith

/-- Storing costs half a unit of the encoding, and reading back half a decimal place. -/
theorem abs_unscaled_sub_le :
    |unscaled n - q| ≤ (1 / 2 + 1 / 10 ^ 41) / 2 ^ 60 + 1 / 10 ^ 18 / 2 := by
  have hstore := abs_le.mp (abs_natCast_sub_le hn hmax)
  have hread := abs_le.mp (abs_unscaled_sub_div_le n)
  rw [scale_eq] at hstore hread
  rw [abs_le]
  constructor <;> linarith

theorem abs_unscaled_sub_lt : |unscaled n - q| < 1 / 10 ^ 18 :=
  (abs_unscaled_sub_le hn hmax).trans_lt (by norm_num)

/-- What is stored may be off by a little from the number that it is read back as. -/
theorem unscaled_eq_of_near {r : ℚ} (hr : FitsPlaces 18 r) (h : |q - r| ≤ 2 / 10 ^ 20) :
    unscaled n = r := by
  obtain ⟨k, hk⟩ := hr
  have hstore := abs_le.mp (abs_natCast_sub_le hn hmax)
  have hnear := abs_le.mp h
  have hplaces : (10 : ℚ) ^ decimalPlaces = 10 ^ 18 := rfl
  have hround : nearestEven ((n : ℚ) / scale * 10 ^ decimalPlaces) = k := by
    apply nearestEven_eq_of_abs_lt
    rw [← hk, hplaces, abs_lt]
    rw [scale_eq] at hstore ⊢
    constructor <;> linarith
  rw [unscaled, hround, hplaces, ← hk, mul_div_cancel_right₀ _ (by positivity)]

theorem unscaled_eq_of_places (hq : FitsPlaces 18 q) : unscaled n = q :=
  unscaled_eq_of_near hn hmax hq (by rw [sub_self, abs_zero]; positivity)

end RoundTrip

section Room

/-- A number above zero that a slot has room for: what it is scaled to has more than half a unit and
less than half a unit above the largest encoding, also after it is rounded to 80 digits. -/
def IsStorable (q : ℚ) : Prop :=
  1 / 2 + 1 / (2 * 10 ^ 80) < q * 2 ^ 60 ∧ q * 2 ^ 60 < 2 ^ 128 - 1 / 2 - 1 / (2 * 10 ^ 41)

theorem scaled_pos_iff : 0 < scaled q ↔ 1 / 2 + 1 / (2 * 10 ^ 80) < q * 2 ^ 60 := by
  have hround := Context.lt_rounded_iff (c := Context.wide) (q := q * scale)
    (n := 5 * 10 ^ 79) (k := -80) (by decide) (by decide) (by norm_num [Context.wide])
    (by norm_num [Context.wide])
  rw [scaled, lt_nearestEven_iff (by decide)]
  rw [scale_eq] at hround ⊢
  norm_num at hround ⊢
  exact hround

theorem scaled_le_iff :
    scaled q ≤ maxEncoded ↔ q * 2 ^ 60 < 2 ^ 128 - 1 / 2 - 1 / (2 * 10 ^ 41) := by
  have hround := Context.rounded_lt_iff (c := Context.wide) (q := q * scale)
    (n := (2 ^ 129 - 1) * 5 * 10 ^ 40) (k := -41) (by decide) (by decide)
    (by norm_num [Context.wide]) (by norm_num [Context.wide])
  have hmax : (maxEncoded : ℤ) = 2 ^ 128 - 1 := rfl
  rw [hmax, Int.le_sub_one_iff, scaled, nearestEven_lt_iff (by decide)]
  rw [scale_eq] at hround ⊢
  norm_num at hround ⊢
  exact hround

theorem isStorable_iff : IsStorable q ↔ 0 < scaled q ∧ scaled q ≤ maxEncoded := by
  rw [IsStorable, scaled_pos_iff, scaled_le_iff]

theorem exists_encode (hx : x.isFinite) (h₀ : 0 ≤ scaled x.toRat) (h : scaled x.toRat ≤ maxEncoded) :
    ∃ n, encode x = .ok n :=
  have hsize := abs_mul_scale_lt (Int.toNat_of_nonneg h₀) (by omega)
  ⟨_, encode_of_le hx h₀ h (hsize.trans_le (ten_zpow_le (by decide)))⟩

theorem exists_encode_iff :
    (∃ n, encode x = .ok n ∧ 0 < n) ↔ IsStorable x.toRat := by
  rw [isStorable_iff]
  constructor
  · rintro ⟨n, hn, hpos⟩
    obtain ⟨-, hscaled, hmax⟩ := encode_ok hn
    omega
  · rintro ⟨hpos, hmax⟩
    have hx : x.isFinite := by
      by_contra hinf
      have hzero : x.toRat = 0 := by
        cases x <;> simp [Decimal.isFinite, Decimal.toRat] at hinf ⊢
      simp [hzero, scaled] at hpos
    obtain ⟨n, hn⟩ := exists_encode hx hpos.le hmax
    obtain ⟨-, hscaled, -⟩ := encode_ok hn
    exact ⟨n, hn, by omega⟩

/-- Of the numbers with 18 places there is room for all below `2 ^ 68`, the largest of which stays
by more than one unit of the encoding below that. -/
theorem exists_encode_of_places (hx : x.isFinite) (h₀ : 0 ≤ x.toRat) (h : x.toRat < 2 ^ 68)
    (hplaces : FitsPlaces 18 x.toRat) : ∃ n, encode x = .ok n := by
  refine exists_encode hx ?_ ?_
  · exact nearestEven_nonneg (Context.rounded_nonneg (mul_nonneg h₀ (Nat.cast_nonneg _)))
  · obtain ⟨k, hk⟩ := hplaces
    have hk' : (k : ℚ) < 2 ^ 68 * 10 ^ 18 := by
      rw [← hk]
      exact mul_lt_mul_of_pos_right h (by positivity)
    have hlast : k ≤ 2 ^ 68 * 10 ^ 18 - 1 := Int.le_sub_one_of_lt (by exact_mod_cast hk')
    have hlast' : (k : ℚ) ≤ 2 ^ 68 * 10 ^ 18 - 1 := by exact_mod_cast hlast
    rw [scaled_le_iff]
    linarith

end Room

/-- The number that a slot keeps of another one that it has room for. -/
def stored (q : ℚ) : ℚ := unscaled (scaled q).toNat

theorem stored_eq (h : encode x = .ok n) : stored x.toRat = unscaled n := by
  obtain ⟨-, hn, -⟩ := encode_ok h
  rw [stored, ← hn, Int.toNat_natCast]

/-- The number that is read back for a given one. -/
def Kept (given read : ℚ) : Prop :=
  |read - given| < 1 / 10 ^ 18 ∧ (FitsPlaces 18 given → read = given)

theorem kept_of_encode (h : encode x = .ok n) : Kept x.toRat (unscaled n) := by
  obtain ⟨-, hn, hmax⟩ := encode_ok h
  exact ⟨abs_unscaled_sub_lt hn hmax, unscaled_eq_of_places hn hmax⟩

/-- The smallest number that is stored as more than zero is read back as more than zero. -/
theorem le_unscaled (hn : 0 < n) : 1 / 10 ^ 18 ≤ unscaled n := by
  have hplaces : (10 : ℚ) ^ decimalPlaces = 10 ^ 18 := rfl
  have hnear := abs_le.mp (abs_sub_nearestEven_le ((n : ℚ) / scale * 10 ^ decimalPlaces))
  have hone : (1 : ℚ) ≤ n := by exact_mod_cast hn
  rw [hplaces, scale_eq] at hnear
  have hpos : (0 : ℚ) < nearestEven ((n : ℚ) / 2 ^ 60 * 10 ^ 18) := by linarith
  have hle : 1 ≤ nearestEven ((n : ℚ) / 2 ^ 60 * 10 ^ 18) := by exact_mod_cast hpos
  rw [unscaled, hplaces, scale_eq]
  exact div_le_div_of_nonneg_right (by exact_mod_cast hle) (by positivity)

theorem unscaled_pos (hn : 0 < n) : 0 < unscaled n :=
  lt_of_lt_of_le (by norm_num) (le_unscaled hn)

end LoanOrders.FixedPoint
