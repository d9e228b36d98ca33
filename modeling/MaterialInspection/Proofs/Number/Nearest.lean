import MaterialInspection.Number.Rounding

/-!
# Rounding keeps the order

Both roundings of a quotient are monotone: a larger quotient never rounds to something smaller.  For
whole numbers the reason is that two quotients which round the wrong way round would both have to be
the half between the same neighbours, and a half goes to one of them.  For 53 significant bits the
spacing changes at powers of two, and those are kept by rounding on either side.

* `roundHalfEven_mono`, `nearest_mono` — the order is kept.
* `roundHalfEven_error`, `nearest_error` — a rounded quotient is off by at most half a step.
-/

set_option autoImplicit false

namespace MaterialInspection.Number

/-! ## Whole numbers -/

/-- A rounded quotient is off by at most one half. -/
theorem roundHalfEven_error (num : Nat) {den : Nat} (h : 0 < den) :
    2 * (roundHalfEven num den * den) ≤ 2 * num + den ∧
      2 * num ≤ 2 * (roundHalfEven num den * den) + den := by
  have hdiv := Nat.div_add_mod num den
  rw [Nat.mul_comm] at hdiv
  have hmod := Nat.mod_lt num h
  have hsucc : (num / den + 1) * den = num / den * den + den := Nat.succ_mul _ _
  unfold roundHalfEven
  dsimp only
  split
  · omega
  · split
    · rw [hsucc]
      omega
    · split
      · omega
      · rw [hsucc]
        omega

/-- A half goes to the even neighbour. -/
theorem roundHalfEven_half {num den k : Nat} (h : 0 < den) (hk : 2 * num = (2 * k + 1) * den) :
    roundHalfEven num den % 2 = 0 := by
  have hsplit : (2 * k + 1) * den = 2 * (k * den) + den := by
    rw [Nat.add_mul, Nat.one_mul, Nat.mul_assoc]
  have hdiv := Nat.div_add_mod num den
  rw [Nat.mul_comm] at hdiv
  have hmod := Nat.mod_lt num h
  have hq : num / den = k := by
    rw [Nat.div_eq_iff h]
    omega
  rw [hq] at hdiv
  unfold roundHalfEven
  rw [hq]
  dsimp only
  split
  · omega
  · split
    · omega
    · split
      · assumption
      · omega

/-- A whole number within one half of a quotient is its rounding; at exactly one half it has to be
even. -/
theorem roundHalfEven_eq {num den m : Nat} (h : 0 < den) (hlow : 2 * (m * den) ≤ 2 * num + den)
    (hhigh : 2 * num ≤ 2 * (m * den) + den)
    (htie : 2 * (m * den) = 2 * num + den ∨ 2 * num = 2 * (m * den) + den → m % 2 = 0) :
    roundHalfEven num den = m := by
  obtain ⟨hup, hdown⟩ := roundHalfEven_error num h
  have hhalf : ∀ k, 2 * num = 2 * (k * den) + den → roundHalfEven num den % 2 = 0 := by
    intro k hk
    apply roundHalfEven_half (k := k) h
    rw [hk, Nat.add_mul, Nat.one_mul, Nat.mul_assoc]
  generalize roundHalfEven num den = r at hup hdown hhalf ⊢
  -- another result would have the quotient half way between, where both have to be even
  rcases Nat.lt_trichotomy r m with hlt | heq | hgt
  · have hstep := Nat.mul_le_mul_right den (Nat.succ_le_of_lt hlt)
    rw [Nat.succ_mul] at hstep
    have hnext : m * den = r * den + den := by omega
    have hm : m = r + 1 := by
      apply Nat.eq_of_mul_eq_mul_right h
      rw [Nat.succ_mul]
      exact hnext
    have hr := hhalf r (by omega)
    have := htie (Or.inl (by omega))
    omega
  · exact heq
  · have hstep := Nat.mul_le_mul_right den (Nat.succ_le_of_lt hgt)
    rw [Nat.succ_mul] at hstep
    have hnext : r * den = m * den + den := by omega
    have hr : r = m + 1 := by
      apply Nat.eq_of_mul_eq_mul_right h
      rw [Nat.succ_mul]
      exact hnext
    have heven := hhalf m (by omega)
    have := htie (Or.inr (by omega))
    omega

/-- **Rounding to a whole number keeps the order.** -/
theorem roundHalfEven_mono {a b c d : Nat} (hb : 0 < b) (hd : 0 < d) (h : a * d ≤ c * b) :
    roundHalfEven a b ≤ roundHalfEven c d := by
  obtain ⟨hlow, _⟩ := roundHalfEven_error a hb
  obtain ⟨_, hhigh⟩ := roundHalfEven_error c hd
  generalize hm : roundHalfEven a b = m at hlow
  generalize hn : roundHalfEven c d = n at hhigh
  apply Nat.le_of_not_lt
  intro hlt
  -- over the common denominator
  have h1 := Nat.mul_le_mul_right d hlow
  have h2 := Nat.mul_le_mul_right b hhigh
  have e1 : 2 * (m * b) * d = 2 * (m * (b * d)) := by rw [Nat.mul_assoc, Nat.mul_assoc]
  have e2 : (2 * a + b) * d = 2 * (a * d) + b * d := by rw [Nat.add_mul, Nat.mul_assoc]
  have e3 : 2 * c * b = 2 * (c * b) := Nat.mul_assoc _ _ _
  have e4 : (2 * (n * d) + d) * b = 2 * (n * (b * d)) + b * d := by
    rw [Nat.add_mul, Nat.mul_assoc, Nat.mul_assoc, Nat.mul_comm d b]
  rw [e1, e2] at h1
  rw [e3, e4] at h2
  have hmn := Nat.mul_le_mul_right (b * d) (show n + 1 ≤ m from hlt)
  rw [Nat.succ_mul] at hmn
  -- so both quotients are the half between the two results
  have hsame : m * (b * d) = n * (b * d) + b * d := by omega
  have hm1 : m = n + 1 := by
    apply Nat.eq_of_mul_eq_mul_right (Nat.mul_pos hb hd)
    rw [Nat.succ_mul]
    exact hsame
  have ha : 2 * a = (2 * n + 1) * b := by
    apply Nat.eq_of_mul_eq_mul_right hd
    have : (2 * n + 1) * b * d = 2 * (n * (b * d)) + b * d := by
      rw [Nat.mul_assoc, Nat.add_mul, Nat.one_mul, Nat.mul_assoc]
    rw [this, Nat.mul_assoc]
    omega
  have hc : 2 * c = (2 * n + 1) * d := by
    apply Nat.eq_of_mul_eq_mul_right hb
    have : (2 * n + 1) * d * b = 2 * (n * (b * d)) + b * d := by
      rw [Nat.mul_assoc, Nat.add_mul, Nat.one_mul, Nat.mul_assoc, Nat.mul_comm d b]
    rw [this, Nat.mul_assoc]
    omega
  have hpa := roundHalfEven_half hb ha
  have hpc := roundHalfEven_half hd hc
  rw [hm] at hpa
  rw [hn] at hpc
  omega

/-- A whole number below a quotient is below its rounding. -/
theorem le_roundHalfEven {m num den : Nat} (h : 0 < den) (hm : m * den ≤ num) :
    m ≤ roundHalfEven num den := by
  have := roundHalfEven_mono (a := m * den) h h (Nat.mul_le_mul_right den hm)
  rwa [roundHalfEven_mul m h] at this

/-- A whole number above a quotient is above its rounding. -/
theorem roundHalfEven_le {m num den : Nat} (h : 0 < den) (hm : num ≤ m * den) :
    roundHalfEven num den ≤ m := by
  have := roundHalfEven_mono (c := m * den) h h (Nat.mul_le_mul_right den hm)
  rwa [roundHalfEven_mul m h] at this

/-! ## Significant bits -/

theorem twoTo_log2_le {n : Nat} (h : n ≠ 0) : twoTo n.log2 ≤ n := Nat.log2_self_le h

theorem log2_mono {m n : Nat} (h : m ≤ n) : m.log2 ≤ n.log2 := by
  by_cases hm : m = 0
  · subst hm
    rw [Nat.log2_zero]
    exact Nat.zero_le _
  · have hlt : m < twoTo (n.log2 + 1) := Nat.lt_of_le_of_lt h (lt_twoTo_log2_succ n)
    have := (log2_lt_iff hm).2 hlt
    omega

/-- The steps around a quotient are one unit, or small beside it. -/
theorem spacing_cases (q : Nat) : spacing q = 1 ∨ spacing q * twoTo 52 ≤ q := by
  by_cases hq : q.log2 ≤ 52
  · left
    unfold spacing
    rw [Nat.sub_eq_zero_of_le hq]
    rfl
  · right
    have hne : q ≠ 0 := by
      rintro rfl
      exact hq (by rw [Nat.log2_zero]; exact Nat.zero_le _)
    unfold spacing
    rw [← twoTo_add, Nat.sub_add_cancel (by omega)]
    exact twoTo_log2_le hne

/-- A rounded magnitude is off by at most half a step. -/
theorem nearest_error (num : Nat) {den : Nat} (h : 0 < den) :
    2 * (nearest num den * den) ≤ 2 * num + den * spacing (num / den) ∧
      2 * num ≤ 2 * (nearest num den * den) + den * spacing (num / den) := by
  have hstep := roundHalfEven_error num (Nat.mul_pos h (spacing_pos (num / den)))
  have he : nearest num den * den =
      roundHalfEven num (den * spacing (num / den)) * (den * spacing (num / den)) := by
    unfold nearest
    dsimp only
    rw [Nat.mul_assoc, Nat.mul_comm den]
  rw [he]
  exact hstep

/-- A power of two from where the steps begin to be larger is not passed from above. -/
theorem le_nearest_twoTo {num den k : Nat} (h : 0 < den) (hk : (num / den).log2 = k) (h52 : 52 ≤ k)
    (hq : num / den ≠ 0) : twoTo k ≤ nearest num den := by
  have hpow : twoTo k = twoTo 52 * spacing (num / den) := by
    unfold spacing
    rw [hk, ← twoTo_add, Nat.add_sub_cancel' h52]
  have hle : twoTo k ≤ num / den := by
    rw [← hk]
    exact twoTo_log2_le hq
  have hnum : twoTo 52 * (den * spacing (num / den)) ≤ num := by
    have := (Nat.le_div_iff_mul_le h).1 hle
    rw [hpow] at this
    rw [Nat.mul_comm den, ← Nat.mul_assoc]
    exact this
  unfold nearest
  dsimp only
  rw [hpow]
  exact Nat.mul_le_mul_right _ (le_roundHalfEven (Nat.mul_pos h (spacing_pos _)) hnum)

/-- A power of two above a quotient is not passed from below. -/
theorem nearest_le_twoTo {num den k : Nat} (h : 0 < den) (hk : num < den * twoTo k)
    (hs : (num / den).log2 - 52 ≤ k) : nearest num den ≤ twoTo k := by
  have hpow : twoTo k = twoTo (k - ((num / den).log2 - 52)) * spacing (num / den) := by
    unfold spacing
    rw [← twoTo_add, Nat.sub_add_cancel hs]
  unfold nearest
  dsimp only
  rw [hpow] at hk ⊢
  apply Nat.mul_le_mul_right
  apply roundHalfEven_le (Nat.mul_pos h (spacing_pos _))
  rw [Nat.mul_left_comm]
  exact Nat.le_of_lt hk

/-- **Rounding to 53 significant bits keeps the order.** -/
theorem nearest_mono {a b c d : Nat} (hb : 0 < b) (hd : 0 < d) (h : a * d ≤ c * b) :
    nearest a b ≤ nearest c d := by
  have hq : a / b ≤ c / d := by
    rw [Nat.le_div_iff_mul_le hd]
    have hab := Nat.div_mul_le_self a b
    apply Nat.le_of_mul_le_mul_right _ hb
    calc a / b * d * b = a / b * b * d := by rw [Nat.mul_right_comm]
      _ ≤ a * d := Nat.mul_le_mul_right d hab
      _ ≤ c * b := h
  have hlog := log2_mono hq
  by_cases hsame : (a / b).log2 - 52 = (c / d).log2 - 52
  · -- the steps are the same, so this is the rounding to whole numbers
    have hspacing : spacing (a / b) = spacing (c / d) := by
      unfold spacing
      rw [hsame]
    unfold nearest
    dsimp only
    rw [hspacing]
    apply Nat.mul_le_mul_right
    apply roundHalfEven_mono (Nat.mul_pos hb (spacing_pos _)) (Nat.mul_pos hd (spacing_pos _))
    calc a * (d * spacing (c / d)) = a * d * spacing (c / d) := (Nat.mul_assoc _ _ _).symm
      _ ≤ c * b * spacing (c / d) := Nat.mul_le_mul_right _ h
      _ = c * (b * spacing (c / d)) := Nat.mul_assoc _ _ _
  · -- a power of two lies between the two
    have hc : c / d ≠ 0 := by
      intro h0
      rw [h0] at hlog hsame
      rw [Nat.log2_zero] at hlog hsame
      omega
    refine Nat.le_trans ?_ (le_nearest_twoTo hd rfl (by omega) hc)
    have hlt : a < b * twoTo (c / d).log2 := by
      have hself := lt_twoTo_log2_succ (a / b)
      have hstep : twoTo ((a / b).log2 + 1) ≤ twoTo (c / d).log2 := twoTo_le_twoTo (by omega)
      rw [Nat.mul_comm]
      exact (Nat.div_lt_iff_lt_mul hb).1 (Nat.lt_of_lt_of_le hself hstep)
    exact nearest_le_twoTo hb hlt (by omega)

end MaterialInspection.Number
