import RpiUdpStream.AppTimeout
import RpiUdpStream.SignedWrap

/-!
# The keep-alive deadline in 32-bit arithmetic

`set_timeout` and `is_timeout` where `long` and `time_t` have 32 bits.  The
product `tv_sec*1000` wraps every 2^32 ms of uptime, for the first time after
2^31 ms, and the sum that is stored in `end` wraps on its own, so a deadline and
a time are compared correctly only while they have wrapped equally often.  In
the negative half of a wrapped period the conversion to `long` rounds up.
-/

namespace RpiUdpStream

namespace Target32

open SignedWrap

/-- A `struct timespec` of the monotonic clock on the 32-bit target. -/
structure Timespec where
  tvSec : Int32
  tvNsec : Int32
  tvSec_nonneg : 0 ≤ tvSec.toInt
  tvNsec_nonneg : 0 ≤ tvNsec.toInt
  tvNsec_lt : tvNsec.toInt < 1000000000
  deriving DecidableEq

def timeoutMs : Int32 := 2000

/-- The expression `spec.tv_sec*1000 + spec.tv_nsec/1.0e6`: a product of 32
bits, and an exact sum. -/
def Timespec.ms (spec : Timespec) : ℚ :=
  (spec.tvSec * 1000).toInt + (spec.tvNsec.toInt : ℚ) / 1000000

/-- The conversion of a fractional value to `long`, modulo 2^32. -/
def convertToLong (value : ℚ) : Int32 := Int32.ofInt (truncateToLong value)

structure Timer where
  spec : Timespec
  endMs : Int32
  deriving DecidableEq

def setTimeout (clock : Timespec) (timer : Timer) : Timer :=
  let timer := { timer with spec := clock }
  let now := convertToLong timer.spec.ms
  { timer with endMs := now + timeoutMs }

def isTimeout (clock : Timespec) (timer : Timer) : Timer × Bool :=
  let timer := { timer with spec := clock }
  (timer, decide ((timer.endMs.toInt : ℚ) ≤ timer.spec.ms))

/-- The same reading over unbounded arithmetic. -/
def Timespec.exact (spec : Timespec) : RpiUdpStream.Timespec where
  tvSec := spec.tvSec.toInt.toNat
  tvNsec := spec.tvNsec.toInt.toNat
  tvNsec_lt := by
    have hlt := spec.tvNsec_lt
    omega

/-- The deadline that `set_timeout` means to set. -/
def Timespec.deadline (start : Timespec) : ℤ :=
  ⌊start.exact.ms⌋ + RpiUdpStream.timeoutMs

def TimeoutRight (start now : Timespec) (timer : Timer) : Prop :=
  (isTimeout now (setTimeout start timer)).2 = true ↔
    (start.deadline : ℚ) ≤ now.exact.ms

instance (start now : Timespec) (timer : Timer) :
    Decidable (TimeoutRight start now timer) :=
  inferInstanceAs (Decidable (_ ↔ _))

/-! ## Wraps -/

/-- The product `tv_sec*1000` over unbounded arithmetic. -/
def Timespec.secMs (spec : Timespec) : ℤ := spec.tvSec.toInt * 1000

/-- How often the product has wrapped. -/
def Timespec.wraps (spec : Timespec) : ℤ := spec.secMs.bdiv (2 ^ 32)

/-- The deadline with the rounding of `set_timeout`: towards zero, and so up
in the negative half of a wrapped period. -/
def Timespec.storedDeadline (start : Timespec) : ℤ :=
  (if start.exact.ms < (2 ^ 32 * start.wraps : ℤ) then ⌈start.exact.ms⌉
    else ⌊start.exact.ms⌋) + RpiUdpStream.timeoutMs

/-- Until the deadline, time and deadline have wrapped equally often; and from
the deadline on, the time is past the stored deadline by 2^32 ms for each wrap
that it is ahead. -/
structure WrapsHarmlessly (start now : Timespec) : Prop where
  before : now.exact.ms < start.deadline →
    now.wraps = start.storedDeadline.bdiv (2 ^ 32)
  after : start.deadline ≤ now.exact.ms →
    start.storedDeadline +
        2 ^ 32 * ((now.wraps : ℚ) - start.storedDeadline.bdiv (2 ^ 32)) ≤
      now.exact.ms

theorem Timespec.exact_ms (spec : Timespec) :
    spec.exact.ms = spec.secMs + (spec.tvNsec.toInt : ℚ) / 1000000 := by
  have hsec : (spec.tvSec.toInt.toNat : ℤ) = spec.tvSec.toInt :=
    Int.toNat_of_nonneg spec.tvSec_nonneg
  have hnsec : (spec.tvNsec.toInt.toNat : ℤ) = spec.tvNsec.toInt :=
    Int.toNat_of_nonneg spec.tvNsec_nonneg
  simp only [RpiUdpStream.Timespec.ms, Timespec.exact, Timespec.secMs]
  rw [← Int.cast_natCast spec.tvSec.toInt.toNat, hsec,
    ← Int.cast_natCast spec.tvNsec.toInt.toNat, hnsec]
  push_cast
  ring

theorem Timespec.fraction_nonneg (spec : Timespec) :
    0 ≤ (spec.tvNsec.toInt : ℚ) / 1000000 := by
  have hnsec : (0 : ℚ) ≤ spec.tvNsec.toInt := by
    exact_mod_cast spec.tvNsec_nonneg
  positivity

theorem Timespec.toInt_product (spec : Timespec) :
    (spec.tvSec * 1000).toInt = spec.secMs.bmod (2 ^ 32) :=
  Int32.toInt_mul spec.tvSec 1000

theorem Timespec.ms_eq (spec : Timespec) :
    spec.ms = spec.exact.ms - 2 ^ 32 * spec.wraps := by
  rw [Timespec.ms, Timespec.toInt_product, Int.bmod_eq_self_sub_mul_bdiv,
    spec.exact_ms, Timespec.wraps]
  push_cast
  ring

theorem truncateToLong_sub_intCast (value : ℚ) (whole : ℤ) :
    truncateToLong (value - whole) =
      (if value < whole then ⌈value⌉ else ⌊value⌋) - whole := by
  split
  · rename_i hlt
    rw [truncateToLong_of_nonpos (by linarith), Int.ceil_sub_intCast]
  · rename_i hge
    rw [truncateToLong_of_nonneg (by linarith), Int.floor_sub_intCast]

theorem truncateToLong_ms (start : Timespec) :
    truncateToLong start.ms + RpiUdpStream.timeoutMs =
      start.storedDeadline - 2 ^ 32 * start.wraps := by
  have hcast : start.ms = start.exact.ms - ((2 ^ 32 * start.wraps : ℤ) : ℚ) := by
    rw [start.ms_eq]
    push_cast
    rfl
  rw [hcast, truncateToLong_sub_intCast, Timespec.storedDeadline]
  ring

theorem setTimeout_endMs (start : Timespec) (timer : Timer) :
    (setTimeout start timer).endMs.toInt = start.storedDeadline.bmod (2 ^ 32) := by
  have htimeout : timeoutMs.toInt = RpiUdpStream.timeoutMs := rfl
  calc
    (setTimeout start timer).endMs.toInt
        = ((truncateToLong start.ms).bmod (2 ^ 32) +
            RpiUdpStream.timeoutMs).bmod (2 ^ 32) := by
      rw [← htimeout]
      simp [setTimeout, convertToLong, Int32.size]
    _ = (start.storedDeadline - (2 ^ 32 : ℕ) * start.wraps).bmod (2 ^ 32) := by
      rw [Int.bmod_add_bmod, truncateToLong_ms]
      rfl
    _ = start.storedDeadline.bmod (2 ^ 32) := by
      rw [Int.sub_mul_bmod_self_left]

theorem isTimeout_setTimeout_iff (start now : Timespec) (timer : Timer) :
    (isTimeout now (setTimeout start timer)).2 = true ↔
      (start.storedDeadline.bmod (2 ^ 32) : ℚ) ≤
        now.secMs.bmod (2 ^ 32) + (now.tvNsec.toInt : ℚ) / 1000000 := by
  simp only [isTimeout, decide_eq_true_eq, Timespec.ms, now.toInt_product,
    setTimeout_endMs]

theorem Timespec.deadline_le_storedDeadline (start : Timespec) :
    start.deadline ≤ start.storedDeadline := by
  unfold Timespec.deadline Timespec.storedDeadline
  split
  · exact add_le_add_left (Int.floor_le_ceil _) _
  · exact le_refl _

theorem Timespec.storedDeadline_le (start : Timespec) :
    start.storedDeadline ≤ start.deadline + 1 := by
  unfold Timespec.deadline Timespec.storedDeadline
  split
  · have hceil := Int.ceil_le_floor_add_one start.exact.ms
    omega
  · omega

/-- `is_timeout` is right about a deadline exactly when the wraps of the time
and of the deadline do no harm. -/
theorem timeoutRight_iff
    {start now : Timespec} (hmonotone : start.exact.ms ≤ now.exact.ms)
    (timer : Timer) :
    TimeoutRight start now timer ↔ WrapsHarmlessly start now := by
  have hnear : (start.deadline : ℚ) + 1 - (2 ^ 32 : ℕ) ≤
      now.secMs + (now.tvNsec.toInt : ℚ) / 1000000 := by
    rw [← now.exact_ms]
    have hfloor : (⌊start.exact.ms⌋ : ℚ) ≤ start.exact.ms := Int.floor_le _
    push_cast [Timespec.deadline, RpiUdpStream.timeoutMs]
    linarith
  have hcompare := compare_iff
    start.deadline_le_storedDeadline start.storedDeadline_le now.fraction_nonneg
    hnear (by norm_num)
  have hmodulus : ((2 ^ 32 : ℕ) : ℚ) = 2 ^ 32 := by norm_num
  rw [← isTimeout_setTimeout_iff start now timer, ← now.exact_ms,
    hmodulus] at hcompare
  unfold TimeoutRight
  rw [hcompare]
  exact ⟨fun hwraps => ⟨hwraps.1, hwraps.2⟩, fun hwraps => ⟨hwraps.1, hwraps.2⟩⟩

/-! ## The range of long -/

def InLong (value : ℤ) : Prop := -2 ^ 31 ≤ value ∧ value < 2 ^ 31

/-- No product, conversion or sum of a `set_timeout` at `start` and an
`is_timeout` at `now` leaves the range of `long`. -/
structure StaysInRange (start now : Timespec) : Prop where
  startProduct : InLong start.secMs
  conversion : InLong (truncateToLong start.ms)
  sum : InLong ((convertToLong start.ms).toInt + timeoutMs.toInt)
  product : InLong now.secMs

theorem wraps_eq_zero {spec : Timespec} (hrange : InLong spec.secMs) :
    spec.wraps = 0 :=
  bdiv_eq_zero_of_bounds hrange.1 hrange.2

theorem Timespec.secMs_le_floor (spec : Timespec) :
    0 ≤ spec.secMs ∧ spec.secMs ≤ ⌊spec.exact.ms⌋ := by
  constructor
  · have hsec := spec.tvSec_nonneg
    unfold Timespec.secMs
    omega
  · rw [Int.le_floor, spec.exact_ms]
    exact le_add_of_nonneg_right spec.fraction_nonneg

theorem truncateToLong_ms_of_inLong {start : Timespec}
    (hrange : InLong start.secMs) :
    truncateToLong start.ms = ⌊start.exact.ms⌋ := by
  rw [start.ms_eq, wraps_eq_zero hrange, Int.cast_zero, mul_zero, sub_zero]
  exact truncateToLong_of_nonneg start.exact.ms_nonneg

theorem toInt_convertToLong {value : ℚ} (hrange : InLong (truncateToLong value)) :
    (convertToLong value).toInt = truncateToLong value := by
  rw [convertToLong, Int32.toInt_ofInt]
  exact Int.bmod_eq_of_le hrange.1 hrange.2

theorem staysInRange_iff (start now : Timespec) :
    StaysInRange start now ↔ start.deadline < 2 ^ 31 ∧ now.secMs < 2 ^ 31 := by
  have hstart := start.secMs_le_floor
  have hnow := now.secMs_le_floor.1
  have htimeout : timeoutMs.toInt = 2000 := rfl
  have hdeadline : start.deadline = ⌊start.exact.ms⌋ + 2000 := rfl
  constructor
  · intro hrange
    have hsum := hrange.sum.2
    rw [toInt_convertToLong hrange.conversion,
      truncateToLong_ms_of_inLong hrange.startProduct, htimeout] at hsum
    exact ⟨by omega, hrange.product.2⟩
  · rintro ⟨hend, hsec⟩
    have hproduct : InLong start.secMs := ⟨by omega, by omega⟩
    have hfloor := truncateToLong_ms_of_inLong hproduct
    have hconversion : InLong (truncateToLong start.ms) := by
      rw [hfloor]
      exact ⟨by omega, by omega⟩
    constructor
    · exact hproduct
    · exact hconversion
    · rw [toInt_convertToLong hconversion, hfloor, htimeout]
      exact ⟨by omega, by omega⟩
    · exact ⟨by omega, hsec⟩

/-- In the range of `long` the wraps do no harm. -/
theorem StaysInRange.wrapsHarmlessly {start now : Timespec}
    (hrange : StaysInRange start now) : WrapsHarmlessly start now := by
  have hstart := start.secMs_le_floor
  have hend := ((staysInRange_iff start now).mp hrange).1
  have hdeadline : start.deadline = ⌊start.exact.ms⌋ + 2000 := rfl
  have hstored : start.storedDeadline = start.deadline := by
    rw [Timespec.storedDeadline, wraps_eq_zero hrange.startProduct, mul_zero,
      Int.cast_zero, if_neg (not_lt.mpr start.exact.ms_nonneg)]
    rfl
  have hnone : start.storedDeadline.bdiv (2 ^ 32) = 0 := by
    rw [hstored]
    exact bdiv_eq_zero_of_bounds (by omega) (by omega)
  constructor
  · intro _
    rw [wraps_eq_zero hrange.product, hnone]
  · intro hafter
    rw [wraps_eq_zero hrange.product, hnone, hstored]
    simpa using hafter

/-- `is_timeout` is right about a deadline exactly where it answers as it does
over unbounded arithmetic. -/
theorem timeoutRight_iff_eq_exact
    (start now : Timespec) (timer : Timer) (exactTimer : RpiUdpStream.Timer) :
    TimeoutRight start now timer ↔
      (isTimeout now (setTimeout start timer)).2 =
        (RpiUdpStream.isTimeout now.exact
          (RpiUdpStream.setTimeout start.exact exactTimer)).2 := by
  have hexact : (RpiUdpStream.isTimeout now.exact
      (RpiUdpStream.setTimeout start.exact exactTimer)).2 = true ↔
        (start.deadline : ℚ) ≤ now.exact.ms := by
    rw [RpiUdpStream.isTimeout_iff, RpiUdpStream.setTimeout_endMs]
    rfl
  unfold TimeoutRight
  rw [← hexact]
  exact Bool.eq_iff_iff.symm

def Timespec.second (tvSec : Int32) (hsec : 0 ≤ tvSec.toInt) : Timespec :=
  ⟨tvSec, 0, hsec, Int.le_refl 0, Int.ofNat_succ_pos 999999999⟩

def Timer.initial : Timer := ⟨.second 0 (Int.le_refl 0), 0⟩

end Target32

end RpiUdpStream
