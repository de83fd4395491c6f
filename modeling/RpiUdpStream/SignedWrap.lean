import Mathlib.Tactic

/-!
# Comparisons of counters that wrap

A counter of `modulus` values holds `value.bmod modulus`, the balanced residue,
and has wrapped `value.bdiv modulus` times.  The lemmas say when a comparison
of a wrapped time with a wrapped deadline agrees with the comparison of the
two values: before the deadline both must have wrapped equally often, and
after it the time must make up for every further wrap.
-/

namespace SignedWrap

variable {modulus : ℕ} {left right value : ℤ}

theorem bdiv_mono (hmodulus : 0 < modulus) (hle : left ≤ right) :
    left.bdiv modulus ≤ right.bdiv modulus := by
  have hleft := Int.bdiv_add_bmod left modulus
  have hright := Int.bdiv_add_bmod right modulus
  have hlow : -((modulus : ℤ) / 2) ≤ left.bmod modulus := Int.le_bmod hmodulus
  have hhigh : right.bmod modulus < ((modulus : ℤ) + 1) / 2 :=
    Int.bmod_lt hmodulus
  by_contra hlt
  have hstep : (modulus : ℤ) * (right.bdiv modulus + 1) ≤
      modulus * left.bdiv modulus :=
    mul_le_mul_of_nonneg_left (by omega) (by omega)
  rw [mul_add, mul_one] at hstep
  omega

theorem bdiv_eq_zero_of_bounds
    (hlow : -((modulus : ℤ) / 2) ≤ value) (hhigh : value < ((modulus : ℤ) + 1) / 2) :
    value.bdiv modulus = 0 := by
  have hvalue := Int.bdiv_add_bmod value modulus
  rw [Int.bmod_eq_of_le hlow hhigh] at hvalue
  have hmodulus : (modulus : ℤ) ≠ 0 := by omega
  have hzero : (modulus : ℤ) * value.bdiv modulus = 0 := by omega
  exact (mul_eq_zero.mp hzero).resolve_left hmodulus

section Deadline

variable {K : Type*} [Field K] [LinearOrder K] [IsStrictOrderedRing K]
variable {whole deadline stored : ℤ} {fraction : K}

theorem bmod_le_bmod_add_iff :
    (stored.bmod modulus : K) ≤ whole.bmod modulus + fraction ↔
      stored + (modulus : K) * (whole.bdiv modulus - stored.bdiv modulus) ≤
        whole + fraction := by
  rw [Int.bmod_eq_self_sub_mul_bdiv, Int.bmod_eq_self_sub_mul_bdiv]
  push_cast
  constructor
  · intro hle
    linarith
  · intro hle
    linarith

theorem add_mul_le_of_bdiv_lt
    (hlate : stored ≤ deadline + 1)
    (hnear : (deadline : K) + 1 - modulus ≤ whole + fraction)
    (hlt : whole.bdiv modulus < stored.bdiv modulus) :
    stored + (modulus : K) * (whole.bdiv modulus - stored.bdiv modulus) ≤
      whole + fraction := by
  have hlateCast : (stored : K) ≤ deadline + 1 := by exact_mod_cast hlate
  have hwraps : (whole.bdiv modulus : K) + 1 ≤ stored.bdiv modulus := by
    exact_mod_cast hlt
  have hproduct : (modulus : K) * (whole.bdiv modulus - stored.bdiv modulus) ≤
      modulus * (-1) :=
    mul_le_mul_of_nonneg_left (by linarith) (Nat.cast_nonneg modulus)
  linarith

/-- A deadline is stored, wrapped, at most one unit late, and compared with a
time that wraps in its whole part.  The comparison is right if and only if the
two have wrapped equally often while the deadline is ahead, and the time is at
least one modulus past the stored deadline for each further wrap after it. -/
theorem compare_iff
    (hearly : deadline ≤ stored) (hlate : stored ≤ deadline + 1)
    (hfraction : 0 ≤ fraction)
    (hnear : (deadline : K) + 1 - modulus ≤ whole + fraction)
    (hmodulus : 0 < modulus) :
    ((stored.bmod modulus : K) ≤ whole.bmod modulus + fraction ↔
        (deadline : K) ≤ whole + fraction) ↔
      ((whole + fraction < (deadline : K) →
          whole.bdiv modulus = stored.bdiv modulus) ∧
        ((deadline : K) ≤ whole + fraction →
          stored + (modulus : K) * (whole.bdiv modulus - stored.bdiv modulus) ≤
            whole + fraction)) := by
  rw [bmod_le_bmod_add_iff]
  have hearlyCast : (deadline : K) ≤ stored := by exact_mod_cast hearly
  constructor
  · intro hright
    constructor
    · intro hbefore
      have hwhole : whole ≤ stored := by
        have hcast : (whole : K) ≤ stored := by linarith
        exact_mod_cast hcast
      apply le_antisymm (bdiv_mono hmodulus hwhole)
      by_contra hless
      have hreads := add_mul_le_of_bdiv_lt hlate hnear (not_le.mp hless)
      exact absurd (hright.mp hreads) (not_le.mpr hbefore)
    · intro hafter
      exact hright.mpr hafter
  · rintro ⟨hbefore, hafter⟩
    constructor
    · intro hreads
      by_contra hlt
      have hsame := hbefore (not_le.mp hlt)
      rw [hsame, sub_self, mul_zero, add_zero] at hreads
      exact hlt (hearlyCast.trans hreads)
    · exact hafter

end Deadline

end SignedWrap
