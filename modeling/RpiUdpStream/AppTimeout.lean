import Mathlib.Tactic

/-!
# The keep-alive deadline

`set_timeout` and `is_timeout` over exact arithmetic and an unbounded `long`.
The deadline is the current time truncated to milliseconds plus `TIMEOUT_MS`,
and it is later compared with the untruncated time, so a deadline lasts
between `TIMEOUT_MS - 1` (exclusive) and `TIMEOUT_MS` milliseconds.
-/

namespace RpiUdpStream

def timeoutMs : ℤ := 2000

structure Timespec where
  tvSec : ℕ
  tvNsec : ℕ
  tvNsec_lt : tvNsec < 1000000000
  deriving DecidableEq

def Timespec.second (tvSec : ℕ) : Timespec :=
  ⟨tvSec, 0, Nat.succ_pos 999999999⟩

def Timespec.zero : Timespec := .second 0

/-- The expression `spec.tv_sec*1000 + spec.tv_nsec/1.0e6`. -/
def Timespec.ms (spec : Timespec) : ℚ :=
  spec.tvSec * 1000 + spec.tvNsec / 1000000

/-- The conversion of a fractional value to `long`: truncation towards zero. -/
def truncateToLong (value : ℚ) : ℤ := value.num.tdiv value.den

/-- The statics `spec` and `end`. -/
structure Timer where
  spec : Timespec
  endMs : ℤ
  deriving DecidableEq

def Timer.initial : Timer := ⟨.zero, 0⟩

def setTimeout (clock : Timespec) (timer : Timer) : Timer :=
  let timer := { timer with spec := clock }
  let now := truncateToLong timer.spec.ms
  { timer with endMs := now + timeoutMs }

def isTimeout (clock : Timespec) (timer : Timer) : Timer × Bool :=
  let timer := { timer with spec := clock }
  (timer, decide ((timer.endMs : ℚ) ≤ timer.spec.ms))

theorem Timespec.ms_nonneg (spec : Timespec) : 0 ≤ spec.ms := by
  unfold Timespec.ms
  positivity

theorem truncateToLong_of_nonneg {value : ℚ} (hvalue : 0 ≤ value) :
    truncateToLong value = ⌊value⌋ := by
  unfold truncateToLong
  rw [Rat.floor_def', Int.tdiv_eq_ediv_of_nonneg (Rat.num_nonneg.mpr hvalue)]

theorem truncateToLong_of_nonpos {value : ℚ} (hvalue : value ≤ 0) :
    truncateToLong value = ⌈value⌉ := by
  have hneg : truncateToLong (-value) = ⌊-value⌋ :=
    truncateToLong_of_nonneg (neg_nonneg.mpr hvalue)
  rw [Int.floor_neg] at hneg
  simp only [truncateToLong, Rat.neg_num, Rat.neg_den, Int.neg_tdiv] at hneg ⊢
  exact neg_injective hneg

theorem Timespec.floor_ms (spec : Timespec) :
    ⌊spec.ms⌋ = spec.tvSec * 1000 + (spec.tvNsec / 1000000 : ℕ) := by
  have hsplit : spec.ms =
      ((spec.tvSec * 1000 : ℤ) : ℚ) + ((spec.tvNsec : ℚ) / (1000000 : ℕ)) := by
    simp [Timespec.ms]
  rw [hsplit, Int.floor_intCast_add, Rat.floor_natCast_div_natCast]
  simp

/-- Readings are ordered by their seconds, and then by their nanoseconds. -/
theorem Timespec.ms_le_ms_iff (left right : Timespec) :
    left.ms ≤ right.ms ↔
      left.tvSec < right.tvSec ∨
        (left.tvSec = right.tvSec ∧ left.tvNsec ≤ right.tvNsec) := by
  have hnanos : ∀ spec : Timespec, spec.ms =
      ((spec.tvSec * 1000000000 + spec.tvNsec : ℕ) : ℚ) / 1000000 := by
    intro spec
    unfold Timespec.ms
    push_cast
    ring
  rw [hnanos left, hnanos right, div_le_div_iff_of_pos_right (by norm_num),
    Nat.cast_le]
  have hleft := left.tvNsec_lt
  have hright := right.tvNsec_lt
  omega

theorem setTimeout_endMs (clock : Timespec) (timer : Timer) :
    (setTimeout clock timer).endMs = ⌊clock.ms⌋ + timeoutMs := by
  simp only [setTimeout]
  rw [truncateToLong_of_nonneg clock.ms_nonneg]

@[simp] theorem isTimeout_endMs (clock : Timespec) (timer : Timer) :
    (isTimeout clock timer).1.endMs = timer.endMs := rfl

theorem isTimeout_iff (clock : Timespec) (timer : Timer) :
    (isTimeout clock timer).2 = true ↔ (timer.endMs : ℚ) ≤ clock.ms := by
  simp [isTimeout]

theorem lt_of_isTimeout
    {start clock : Timespec} {timer : Timer}
    (hend : timer.endMs = ⌊start.ms⌋ + timeoutMs)
    (htimeout : (isTimeout clock timer).2 = true) :
    1999 < clock.ms - start.ms := by
  rw [isTimeout_iff, hend] at htimeout
  have hfloor : start.ms < ⌊start.ms⌋ + 1 := Int.lt_floor_add_one start.ms
  push_cast [timeoutMs] at htimeout
  linarith

theorem isTimeout_of_le
    {start clock : Timespec} {timer : Timer}
    (hend : timer.endMs = ⌊start.ms⌋ + timeoutMs)
    (hlate : 2000 ≤ clock.ms - start.ms) :
    (isTimeout clock timer).2 = true := by
  rw [isTimeout_iff, hend]
  have hfloor : (⌊start.ms⌋ : ℚ) ≤ start.ms := Int.floor_le start.ms
  push_cast [timeoutMs]
  linarith

end RpiUdpStream
