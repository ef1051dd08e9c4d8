import KartFirmware.RateArrival

/-!
# Order and splitting of a rate limiter

The asymmetric limiter never answers a larger target, or a larger current value, with a
smaller result (`asymStep_mono_target`, `asymStep_mono_current`).

Two steps in a row are the one step of their sum as long as both stay on one side of zero
(`asymStep_add_same`).  Across zero they are not: the step in which the fall arrives grows
on the other side for its whole length, so the sum counts growth twice that the second
step alone does not have (`asymStep_add_iff`).
-/

set_option linter.unusedSectionVars false

namespace RateLimit

variable {α : Type*} [Field α] [LinearOrder α] [IsStrictOrderedRing α]

variable {t t' c c' δ ε up dn : α}

/-! ### One rate -/

theorem approach_mono_target (h : t ≤ t') : approach t c δ ≤ approach t' c δ :=
  max_le_max_left _ (min_le_min_right _ h)

theorem approach_mono_current (h : c ≤ c') : approach t c δ ≤ approach t c' δ :=
  max_le_max (sub_le_sub_right h δ) (min_le_min_left t (add_le_add_left h δ))

theorem limit_mono_target (h : t ≤ t') : limit t c δ ≤ limit t' c δ := by
  unfold limit
  split_ifs
  · exact h
  · exact approach_mono_target h

theorem limit_mono_current (h : c ≤ c') : limit t c δ ≤ limit t c' δ := by
  unfold limit
  split_ifs
  · exact le_refl t
  · exact approach_mono_current h

theorem limit_self : limit t t δ = t := by
  obtain ⟨hlow, hhigh, -⟩ := limit_up (δ := δ) (le_refl t)
  exact le_antisymm hhigh hlow

theorem approach_approach (hδ : 0 ≤ δ) (hε : 0 ≤ ε) :
    approach t (approach t c δ) ε = approach t c (δ + ε) := by
  rcases le_total c t with h | h
  · have hbelow : min t (c + δ) ≤ t := min_le_left _ _
    rw [approach_up hδ h, approach_up hε hbelow, approach_up (add_nonneg hδ hε) h,
      ← min_add_add_right, ← min_assoc, min_eq_left (le_add_of_nonneg_right hε), add_assoc]
  · have habove : t ≤ max (c - δ) t := le_max_right _ _
    rw [approach_down hδ h, approach_down hε habove, approach_down (add_nonneg hδ hε) h,
      ← max_sub_sub_right, max_assoc, max_eq_right (sub_le_self t hε), sub_sub]

/-! ### The branches of the asymmetric limiter -/

/-- On the upper side of zero the rate is that of the direction. -/
theorem asymStep_upper (ht : 0 ≤ t) (hc : 0 ≤ c) :
    asymStep t c up dn = if c < t then limit t c up else limit t c dn := by
  rw [asymStep_same (mul_nonneg ht hc), sideStep, abs_of_nonneg ht, abs_of_nonneg hc]
  split_ifs <;> rfl

/-- A target on the lower side, from above: the fall to zero, then the growth. -/
theorem asymStep_lower (hc : 0 ≤ c) (ht : t < 0) :
    asymStep t c up dn = if 0 < dn ∧ dn < c then c - dn else limit t 0 up := by
  rcases hc.eq_or_lt with rfl | hpos
  · have hgrow : |(0 : α)| < |t| := by
      rw [abs_zero]
      exact abs_pos.mpr ht.ne
    rw [asymStep_same (mul_zero t).ge, sideStep, if_pos hgrow, if_neg fun h => lt_asymm h.1 h.2]
  · have hmirror : asymStep (-t) (-c) up dn = _ :=
      asymStep_reverse (neg_neg_of_pos hpos) (neg_pos.mpr ht)
    rw [asymStep_neg] at hmirror
    rw [← neg_neg (asymStep t c up dn), hmirror]
    by_cases hfall : 0 < dn ∧ dn < c
    · rw [if_pos hfall, if_pos ⟨hfall.1, by linarith [hfall.2]⟩]
      ring
    · rw [if_neg hfall, if_neg fun h => hfall ⟨h.1, by linarith [h.2]⟩, ← neg_zero, limit_neg,
        neg_neg, neg_zero]

/-! ### Order -/

private theorem mono_target_of_nonneg (hc : 0 ≤ c) (h : t ≤ t') :
    asymStep t c up dn ≤ asymStep t' c up dn := by
  rcases le_total c t with hct | htc
  · -- both targets lie above the current value
    have hupper : ∀ s, c ≤ s → asymStep s c up dn = limit s c up := by
      intro s hs
      rw [asymStep_upper (hc.trans hs) hc]
      split_ifs with hlt
      · rfl
      · rw [le_antisymm (not_lt.mp hlt) hs, limit_self, limit_self]
    rw [hupper t hct, hupper t' (hct.trans h)]
    exact limit_mono_target h
  rcases le_total c t' with hct' | htc'
  · exact (asymStep_between' up dn htc).2.trans (asymStep_between up dn hct').1
  have hupper : ∀ s, 0 ≤ s → s ≤ c → asymStep s c up dn = limit s c dn := by
    intro s hs hsc
    rw [asymStep_upper hs hc, if_neg (not_lt.mpr hsc)]
  rcases le_or_gt 0 t with ht | ht
  · rw [hupper t ht htc, hupper t' (ht.trans h) htc']
    exact limit_mono_target h
  rcases le_or_gt 0 t' with ht' | ht'
  · rw [asymStep_lower hc ht, hupper t' ht' htc']
    obtain ⟨hlow, -, hstep⟩ := limit_down (δ := dn) htc'
    split_ifs with hfall
    · exact hstep hfall.1
    · exact ((limit_down (δ := up) ht.le).2.1.trans ht').trans hlow
  · rw [asymStep_lower hc ht, asymStep_lower hc ht']
    split_ifs
    · exact le_refl _
    · exact limit_mono_target h

/-- **A larger target is never answered with less.** -/
theorem asymStep_mono_target (h : t ≤ t') : asymStep t c up dn ≤ asymStep t' c up dn := by
  rcases le_total 0 c with hc | hc
  · exact mono_target_of_nonneg hc h
  · have hneg : asymStep (-t') (-c) up dn ≤ asymStep (-t) (-c) up dn :=
      mono_target_of_nonneg (neg_nonneg.mpr hc) (neg_le_neg h)
    rw [asymStep_neg, asymStep_neg] at hneg
    exact neg_le_neg_iff.mp hneg

private theorem mono_current_of_nonneg (ht : 0 ≤ t) (h : c ≤ c') :
    asymStep t c up dn ≤ asymStep t c' up dn := by
  rcases le_total t c with htc | hct
  · rw [asymStep_upper ht (ht.trans htc), if_neg (not_lt.mpr htc),
      asymStep_upper ht (ht.trans (htc.trans h)), if_neg (not_lt.mpr (htc.trans h))]
    exact limit_mono_current h
  rcases le_total t c' with htc' | hct'
  · exact (asymStep_between up dn hct).2.trans (asymStep_between' up dn htc').1
  have hupper : ∀ s, 0 ≤ s → s ≤ t → asymStep t s up dn = limit t s up := by
    intro s hs hst
    rw [asymStep_upper ht hs]
    split_ifs with hlt
    · rfl
    · rw [le_antisymm hst (not_lt.mp hlt), limit_self, limit_self]
  rcases le_or_gt 0 c with hc | hc
  · rw [hupper c hc hct, hupper c' (hc.trans h) hct']
    exact limit_mono_current h
  rcases ht.eq_or_lt with rfl | hpos
  · have hlower : ∀ s : α, s ≤ 0 → asymStep 0 s up dn = limit 0 s dn := by
      intro s hs
      rw [asymStep_same (zero_mul s).ge, sideStep, if_neg (by simp)]
    rw [hlower c hct, hlower c' hct']
    exact limit_mono_current h
  have hrise := (limit_up (δ := up) hpos.le).1
  rw [asymStep_reverse hc hpos]
  rcases le_or_gt 0 c' with hc' | hc'
  · rw [hupper c' hc' hct']
    split_ifs with hfall
    · exact (hfall.2.le.trans hc').trans (limit_up hct').1
    · exact limit_mono_current hc'
  · rw [asymStep_reverse hc' hpos]
    split_ifs with hfall hfall' hfall'
    · exact add_le_add_left h dn
    · exact hfall.2.le.trans hrise
    · exact absurd ⟨hfall'.1, by linarith [hfall'.2]⟩ hfall
    · exact le_refl _

/-- **A larger current value is never answered with less.** -/
theorem asymStep_mono_current (h : c ≤ c') : asymStep t c up dn ≤ asymStep t c' up dn := by
  rcases le_total 0 t with ht | ht
  · exact mono_current_of_nonneg ht h
  · have hneg : asymStep (-t) (-c') up dn ≤ asymStep (-t) (-c) up dn :=
      mono_current_of_nonneg (neg_nonneg.mpr ht) (neg_le_neg h)
    rw [asymStep_neg, asymStep_neg] at hneg
    exact neg_le_neg_iff.mp hneg

/-! ### Splitting a step -/

variable {up₁ up₂ dn₁ dn₂ : α}

section Split

variable (hup₁ : 0 < up₁) (hup₂ : 0 < up₂) (hdn₁ : 0 < dn₁) (hdn₂ : 0 < dn₂)

include hup₁ hup₂ hdn₁ hdn₂

theorem asymStep_add_upper (ht : 0 ≤ t) (hc : 0 ≤ c) :
    asymStep t (asymStep t c up₁ dn₁) up₂ dn₂ = asymStep t c (up₁ + up₂) (dn₁ + dn₂) := by
  have hlimit : ∀ {s δ : α}, 0 < δ → limit t s δ = approach t s δ := fun hδ =>
    if_neg (not_le.mpr hδ)
  rw [asymStep_upper ht hc, asymStep_upper ht hc]
  split_ifs with hrise
  · obtain ⟨hlow, hhigh, -⟩ := limit_up (δ := up₁) hrise.le
    rw [asymStep_upper ht (hc.trans hlow)]
    split_ifs with hrest
    · rw [hlimit hup₁, hlimit hup₂, hlimit (add_pos hup₁ hup₂),
        approach_approach hup₁.le hup₂.le]
    · -- the first step has arrived
      have harrived : limit t c up₁ = t := le_antisymm hhigh (not_lt.mp hrest)
      have hstill := approach_approach (t := t) (c := c) hup₁.le hup₂.le
      rw [← hlimit hup₁, harrived, ← hlimit hup₂, limit_self] at hstill
      rw [harrived, limit_self, hlimit (add_pos hup₁ hup₂), ← hstill]
  · obtain ⟨hlow, -, -⟩ := limit_down (δ := dn₁) (not_lt.mp hrise)
    rw [asymStep_upper ht (ht.trans hlow), if_neg (not_lt.mpr hlow), hlimit hdn₁, hlimit hdn₂,
      hlimit (add_pos hdn₁ hdn₂), approach_approach hdn₁.le hdn₂.le]

/-- On one side of zero two steps are the step of their sum. -/
theorem asymStep_add_same (h : 0 ≤ t * c) :
    asymStep t (asymStep t c up₁ dn₁) up₂ dn₂ = asymStep t c (up₁ + up₂) (dn₁ + dn₂) := by
  rcases mul_nonneg_iff.mp h with ⟨ht, hc⟩ | ⟨ht, hc⟩
  · exact asymStep_add_upper hup₁ hup₂ hdn₁ hdn₂ ht hc
  · have hneg := asymStep_add_upper hup₁ hup₂ hdn₁ hdn₂ (neg_nonneg.mpr ht) (neg_nonneg.mpr hc)
    rwa [asymStep_neg, asymStep_neg, asymStep_neg, neg_inj] at hneg

private theorem asymStep_add_reverse (hc : c < 0) (ht : 0 < t) :
    asymStep t (asymStep t c up₁ dn₁) up₂ dn₂ = asymStep t c (up₁ + up₂) (dn₁ + dn₂) ↔
      ¬ (dn₁ < |c| ∧ |c| ≤ dn₁ + dn₂ ∧ up₂ < |t|) := by
  have hdn : 0 < dn₁ + dn₂ := add_pos hdn₁ hdn₂
  have hgrow : ∀ {up dn : α}, asymStep t 0 up dn = limit t 0 up := fun {up dn} => by
    rw [asymStep_upper ht.le le_rfl, if_pos ht]
  have hlimit : ∀ {up : α}, 0 < up → limit t 0 up = min t up := fun {up} hup => by
    rw [limit, if_neg (not_le.mpr hup), approach_up hup.le ht.le, zero_add]
  rw [asymStep_reverse hc ht, asymStep_reverse hc ht, abs_of_neg hc, abs_of_pos ht]
  by_cases hfall : c + dn₁ < 0
  · rw [if_pos ⟨hdn₁, hfall⟩, asymStep_reverse hfall ht, add_assoc]
    by_cases hrest : c + (dn₁ + dn₂) < 0
    · -- neither step nor sum arrives at zero
      rw [if_pos ⟨hdn₂, hrest⟩, if_pos ⟨hdn, hrest⟩]
      exact iff_of_true rfl fun h => by linarith [h.2.1]
    · -- the second step arrives, and so does the sum
      rw [if_neg fun h => hrest h.2, if_neg fun h => hrest h.2, hlimit hup₂,
        hlimit (add_pos hup₁ hup₂)]
      constructor
      · rintro hsame ⟨-, -, hfar⟩
        rw [min_eq_right hfar.le] at hsame
        rcases min_choice t (up₁ + up₂) with hmin | hmin <;> linarith
      · intro hnear
        have hreach : t ≤ up₂ := by
          by_contra hfar
          exact hnear ⟨by linarith, by linarith, not_le.mp hfar⟩
        rw [min_eq_left hreach, min_eq_left (hreach.trans (by linarith))]
  · -- the first step arrives, and what follows is growth from zero
    have hsame := asymStep_add_upper hup₁ hup₂ hdn₁ hdn₂ ht.le (le_refl 0)
    rw [hgrow, hgrow] at hsame
    rw [if_neg fun h => hfall h.2, if_neg fun h => by linarith [h.2]]
    exact iff_of_true hsame fun h => by linarith [h.1]

/-- **When two steps are the one step of their sum**: unless the fall arrives in the second
one and the target lies beyond what this step alone grows. -/
theorem asymStep_add_iff :
    asymStep t (asymStep t c up₁ dn₁) up₂ dn₂ = asymStep t c (up₁ + up₂) (dn₁ + dn₂) ↔
      ¬ (t * c < 0 ∧ dn₁ < |c| ∧ |c| ≤ dn₁ + dn₂ ∧ up₂ < |t|) := by
  rcases lt_or_ge (t * c) 0 with hrev | hsame
  · rw [and_iff_right hrev]
    rcases lt_or_gt_of_ne (left_ne_zero_of_mul hrev.ne) with ht | ht
    · have hc : -c < 0 := neg_neg_of_pos (pos_of_mul_neg_right hrev ht.le)
      have hneg := asymStep_add_reverse hup₁ hup₂ hdn₁ hdn₂ hc (neg_pos.mpr ht)
      rwa [asymStep_neg, asymStep_neg, asymStep_neg, neg_inj, abs_neg, abs_neg] at hneg
    · have hc : c < 0 := neg_of_mul_neg_right hrev ht.le
      exact asymStep_add_reverse hup₁ hup₂ hdn₁ hdn₂ hc ht
  · exact iff_of_true (asymStep_add_same hup₁ hup₂ hdn₁ hdn₂ hsame)
      fun h => absurd h.1 (not_lt.mpr hsame)

end Split

end RateLimit
