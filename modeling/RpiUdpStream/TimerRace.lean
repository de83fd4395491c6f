import RpiUdpStream.AppTimeout
import RpiUdpStream.LabelledRun

/-!
# Interleaved calls of set_timeout and is_timeout

Both functions store the clock in the one static `spec` and read its two fields
back one after the other.  A `clock_gettime` of another call can land between
the two reads, so that the seconds come from one reading of the clock and the
nanoseconds from another.  The time that a call uses is off exactly when the
two readings lie in different seconds and the nanoseconds fall on the wrong
side of those of the call's start or finish.
-/

namespace RpiUdpStream

namespace TimerRace

open LabelledRun

inductive TimerFunction where
  | setTimeout
  | isTimeout
  deriving DecidableEq, Repr

/-- The seconds of one reading with the nanoseconds of another. -/
def mix (sec nsec : Timespec) : Timespec :=
  ⟨sec.tvSec, nsec.tvNsec, nsec.tvNsec_lt⟩

/-- One call, with the clock at its start and at its finish, and with the whole
readings that were in `spec` when it read a field of them.  `endMs` is what the
call has written to `end`, or read from it. -/
structure Call where
  function : TimerFunction
  start : Timespec
  stored : Bool
  secReading : Option Timespec
  nsecReading : Option Timespec
  endMs : Option ℤ
  finish : Option Timespec
  result : Option Bool
  deriving DecidableEq

def Call.begin (function : TimerFunction) (clock : Timespec) : Call where
  function := function
  start := clock
  stored := false
  secReading := none
  nsecReading := none
  endMs := none
  finish := none
  result := none

inductive Action where
  | clockGettime
  | readSec
  | readNsec
  | accessEnd
  | ret
  deriving DecidableEq, Repr

/-- The fields that the call has read, once it has read both. -/
def Call.time (call : Call) : Option Timespec :=
  match call.secReading, call.nsecReading with
  | some sec, some nsec => some (mix sec nsec)
  | _, _ => none

/-- One atomic step of a call.  `is_timeout` may read `end` before, between or
after the two fields, as the order of its operands is not specified. -/
def Call.perform (clock : Timespec) (timer : Timer) (call : Call) :
    Action → Option (Call × Timer)
  | .clockGettime =>
      if call.stored = false then
        some ({ call with stored := true }, { timer with spec := clock })
      else none
  | .readSec =>
      if call.stored = true ∧ call.secReading = none then
        some ({ call with secReading := some timer.spec }, timer)
      else none
  | .readNsec =>
      if call.stored = true ∧ call.nsecReading = none then
        some ({ call with nsecReading := some timer.spec }, timer)
      else none
  | .accessEnd =>
      if call.stored = true ∧ call.endMs = none then
        match call.function with
        | .setTimeout =>
            call.time.map fun time =>
              let endMs := truncateToLong time.ms + timeoutMs
              ({ call with endMs := some endMs }, { timer with endMs := endMs })
        | .isTimeout => some ({ call with endMs := some timer.endMs }, timer)
      else none
  | .ret =>
      if call.finish = none then
        match call.time, call.endMs with
        | some time, some endMs =>
            let result :=
              match call.function with
              | .setTimeout => none
              | .isTimeout => some (decide ((endMs : ℚ) ≤ time.ms))
            some ({ call with finish := some clock, result := result }, timer)
        | _, _ => none
      else none

structure State where
  clock : Timespec
  timer : Timer
  calls : List Call
  deriving DecidableEq

def State.initial : State := ⟨.zero, .initial, []⟩

inductive Label where
  | tick (now : Timespec)
  | call (function : TimerFunction)
  | step (index : ℕ) (action : Action)
  deriving DecidableEq

def State.step (s : State) : Label → Option State
  | .tick now => if s.clock.ms ≤ now.ms then some { s with clock := now } else none
  | .call function => some { s with calls := s.calls ++ [.begin function s.clock] }
  | .step index action =>
      match s.calls[index]? with
      | none => none
      | some call =>
          (call.perform s.clock s.timer action).map fun (next, timer) =>
            { s with timer := timer, calls := s.calls.set index next }

abbrev State.run (s : State) (labels : List Label) : Option State :=
  runFrom State.step s labels

/-! ## What one step can do -/

inductive CallStep (clock : Timespec) (timer : Timer) (call : Call) :
    Action → Call → Timer → Prop where
  | clockGettime (hstored : call.stored = false) :
      CallStep clock timer call .clockGettime { call with stored := true }
        { timer with spec := clock }
  | readSec (hstored : call.stored = true) (hunread : call.secReading = none) :
      CallStep clock timer call .readSec
        { call with secReading := some timer.spec } timer
  | readNsec (hstored : call.stored = true) (hunread : call.nsecReading = none) :
      CallStep clock timer call .readNsec
        { call with nsecReading := some timer.spec } timer
  | writeEnd {time : Timespec} (haccess : call.stored = true ∧ call.endMs = none)
      (hfunction : call.function = .setTimeout) (htime : call.time = some time) :
      CallStep clock timer call .accessEnd
        { call with endMs := some (truncateToLong time.ms + timeoutMs) }
        { timer with endMs := truncateToLong time.ms + timeoutMs }
  | readEnd (haccess : call.stored = true ∧ call.endMs = none)
      (hfunction : call.function = .isTimeout) :
      CallStep clock timer call .accessEnd
        { call with endMs := some timer.endMs } timer
  | ret {time : Timespec} {endMs : ℤ} {result : Option Bool}
      (htime : call.time = some time) (hend : call.endMs = some endMs)
      (hunfinished : call.finish = none) :
      CallStep clock timer call .ret
        { call with finish := some clock, result := result } timer

theorem CallStep.of_perform
    {clock : Timespec} {timer after : Timer} {call next : Call} {action : Action}
    (hperform : call.perform clock timer action = some (next, after)) :
    CallStep clock timer call action next after := by
  cases action with
  | clockGettime =>
      simp only [Call.perform, Option.ite_none_right_eq_some, Option.some.injEq,
        Prod.mk.injEq] at hperform
      rcases hperform with ⟨hstored, rfl, rfl⟩
      exact .clockGettime hstored
  | readSec =>
      simp only [Call.perform, Option.ite_none_right_eq_some, Option.some.injEq,
        Prod.mk.injEq] at hperform
      rcases hperform with ⟨⟨hstored, hunread⟩, rfl, rfl⟩
      exact .readSec hstored hunread
  | readNsec =>
      simp only [Call.perform, Option.ite_none_right_eq_some, Option.some.injEq,
        Prod.mk.injEq] at hperform
      rcases hperform with ⟨⟨hstored, hunread⟩, rfl, rfl⟩
      exact .readNsec hstored hunread
  | accessEnd =>
      simp only [Call.perform, Option.ite_none_right_eq_some] at hperform
      rcases hperform with ⟨haccess, hperform⟩
      split at hperform
      · rename_i hfunction
        simp only [Option.map_eq_some_iff, Prod.mk.injEq] at hperform
        rcases hperform with ⟨time, htime, rfl, rfl⟩
        exact .writeEnd haccess hfunction htime
      · rename_i hfunction
        simp only [Option.some.injEq, Prod.mk.injEq] at hperform
        rcases hperform with ⟨rfl, rfl⟩
        exact .readEnd haccess hfunction
  | ret =>
      simp only [Call.perform, Option.ite_none_right_eq_some] at hperform
      rcases hperform with ⟨hunfinished, hreturn⟩
      split at hreturn
      · rename_i time endMs htime hend
        simp only [Option.some.injEq, Prod.mk.injEq] at hreturn
        rcases hreturn with ⟨rfl, rfl⟩
        exact .ret htime hend hunfinished
      · contradiction

inductive Step (s : State) : Label → State → Prop where
  | tick {now : Timespec} (hclock : s.clock.ms ≤ now.ms) :
      Step s (.tick now) { s with clock := now }
  | called (function : TimerFunction) :
      Step s (.call function)
        { s with calls := s.calls ++ [.begin function s.clock] }
  | stepped {index : ℕ} {action : Action} {call next : Call} {timer : Timer}
      (hcall : s.calls[index]? = some call)
      (hstep : CallStep s.clock s.timer call action next timer) :
      Step s (.step index action)
        { s with timer := timer, calls := s.calls.set index next }

theorem Step.of_step
    {s next : State} {label : Label} (hstep : s.step label = some next) :
    Step s label next := by
  cases label with
  | tick now =>
      simp only [State.step, Option.ite_none_right_eq_some,
        Option.some.injEq] at hstep
      rcases hstep with ⟨hclock, rfl⟩
      exact .tick hclock
  | call function =>
      cases hstep
      exact .called function
  | step index action =>
      cases hcall : s.calls[index]? with
      | none => simp [State.step, hcall] at hstep
      | some call =>
          simp only [State.step, hcall, Option.map_eq_some_iff] at hstep
          rcases hstep with ⟨⟨after, timer⟩, hperform, rfl⟩
          exact .stepped hcall (.of_perform hperform)

/-! ## A call without interruption -/

/-- The effect and the result of a whole call, as the server model has them. -/
def TimerFunction.atomic (function : TimerFunction) (clock : Timespec)
    (timer : Timer) : Timer × Option Bool :=
  match function with
  | .setTimeout => (RpiUdpStream.setTimeout clock timer, none)
  | .isTimeout =>
      let (timer, expired) := RpiUdpStream.isTimeout clock timer
      (timer, some expired)

def uninterrupted (index : ℕ) : List Label :=
  [.step index .clockGettime, .step index .readSec, .step index .readNsec,
    .step index .accessEnd, .step index .ret]

/-- The record of a call that starts and finishes at one time. -/
def Call.uninterrupted (function : TimerFunction) (clock : Timespec)
    (timer : Timer) : Call where
  function := function
  start := clock
  stored := true
  secReading := some clock
  nsecReading := some clock
  endMs := some (function.atomic clock timer).1.endMs
  finish := some clock
  result := (function.atomic clock timer).2

theorem step_last
    {clock : Timespec} {timer after : Timer} {calls : List Call}
    {call next : Call} {action : Action}
    (hperform : call.perform clock timer action = some (next, after)) :
    State.step ⟨clock, timer, calls ++ [call]⟩ (.step calls.length action) =
      some ⟨clock, after, calls ++ [next]⟩ := by
  simp [State.step, hperform]

theorem run_last_cons
    {clock : Timespec} {timer after : Timer} {calls : List Call}
    {call next : Call} {action : Action} {labels : List Label} {s : State}
    (hperform : call.perform clock timer action = some (next, after))
    (hrest : State.run ⟨clock, after, calls ++ [next]⟩ labels = some s) :
    State.run ⟨clock, timer, calls ++ [call]⟩
      (.step calls.length action :: labels) = some s :=
  runFrom_cons_eq_some.mpr ⟨_, step_last hperform, hrest⟩

/-- A call that no other step interrupts is the atomic function. -/
theorem run_uninterrupted (s : State) (function : TimerFunction) :
    s.run (.call function :: uninterrupted s.calls.length) =
      some ⟨s.clock, (function.atomic s.clock s.timer).1,
        s.calls ++ [.uninterrupted function s.clock s.timer]⟩ := by
  let read : Call :=
    { Call.begin function s.clock with
      stored := true, secReading := some s.clock, nsecReading := some s.clock }
  let accessed : Call :=
    { read with endMs := some (function.atomic s.clock s.timer).1.endMs }
  have haccess : read.perform s.clock { s.timer with spec := s.clock }
      .accessEnd = some (accessed, (function.atomic s.clock s.timer).1) := by
    cases function <;> rfl
  have hret : accessed.perform s.clock (function.atomic s.clock s.timer).1
      .ret = some (.uninterrupted function s.clock s.timer,
        (function.atomic s.clock s.timer).1) := by
    cases function <;> rfl
  apply runFrom_cons_eq_some.mpr
  refine ⟨_, rfl, ?_⟩
  iterate 3
    apply run_last_cons rfl
  apply run_last_cons haccess
  apply run_last_cons hret
  exact runFrom_nil _

/-! ## The times that calls use -/

/-- The part of `tv_nsec` that a function looks at: `set_timeout` truncates its
time to milliseconds. -/
def TimerFunction.fraction : TimerFunction → ℕ → ℕ
  | .setTimeout, tvNsec => tvNsec / 1000000
  | .isTimeout, tvNsec => tvNsec

def TimerFunction.NotAfter (function : TimerFunction) (left right : Timespec) :
    Prop :=
  match function with
  | .setTimeout => ⌊left.ms⌋ ≤ ⌊right.ms⌋
  | .isTimeout => left.ms ≤ right.ms

/-- `tv_sec` was read in the second of the start, and `tv_nsec` in a later one,
where it is less than at the start. -/
def TornBack (function : TimerFunction) (start sec nsec : Timespec) : Prop :=
  sec.tvSec < nsec.tvSec ∧ sec.tvSec = start.tvSec ∧
    function.fraction nsec.tvNsec < function.fraction start.tvNsec

/-- `tv_sec` was read in the second of the finish, and `tv_nsec` in an earlier
one, where it is more than at the finish. -/
def TornForward (function : TimerFunction) (finish sec nsec : Timespec) : Prop :=
  nsec.tvSec < sec.tvSec ∧ sec.tvSec = finish.tvSec ∧
    function.fraction finish.tvNsec < function.fraction nsec.tvNsec

/-- What a call that has returned wrote to `end`, or compared with it, lies
between the clock at its start and at its finish. -/
def Call.Bounded (call : Call) : Prop :=
  ∀ finish ∈ call.finish,
    (call.function = .setTimeout → ∃ endMs ∈ call.endMs,
      ⌊call.start.ms⌋ + timeoutMs ≤ endMs ∧ endMs ≤ ⌊finish.ms⌋ + timeoutMs) ∧
    (call.function = .isTimeout → ∃ time ∈ call.time,
      call.start.ms ≤ time.ms ∧ time.ms ≤ finish.ms)

def Call.Untorn (call : Call) : Prop :=
  ∀ finish ∈ call.finish, ∀ sec ∈ call.secReading, ∀ nsec ∈ call.nsecReading,
    ¬ TornBack call.function call.start sec nsec ∧
      ¬ TornForward call.function finish sec nsec

instance (function : TimerFunction) (start sec nsec : Timespec) :
    Decidable (TornBack function start sec nsec) :=
  inferInstanceAs (Decidable (_ ∧ _ ∧ _))

instance (function : TimerFunction) (finish sec nsec : Timespec) :
    Decidable (TornForward function finish sec nsec) :=
  inferInstanceAs (Decidable (_ ∧ _ ∧ _))

instance (call : Call) : Decidable call.Bounded :=
  inferInstanceAs (Decidable (∀ finish ∈ call.finish, _ ∧ _))

instance (call : Call) : Decidable call.Untorn :=
  inferInstanceAs (Decidable (∀ finish ∈ call.finish,
    ∀ sec ∈ call.secReading, ∀ nsec ∈ call.nsecReading, _ ∧ _))

theorem TimerFunction.notAfter_of_le (function : TimerFunction)
    {left right : Timespec} (hle : left.ms ≤ right.ms) :
    function.NotAfter left right := by
  cases function with
  | setTimeout => exact Int.floor_mono hle
  | isTimeout => exact hle

theorem TimerFunction.notAfter_iff (function : TimerFunction)
    (left right : Timespec) :
    function.NotAfter left right ↔
      left.tvSec < right.tvSec ∨
        (left.tvSec = right.tvSec ∧
          function.fraction left.tvNsec ≤ function.fraction right.tvNsec) := by
  cases function with
  | setTimeout =>
      have hleft := left.tvNsec_lt
      have hright := right.tvNsec_lt
      simp only [TimerFunction.NotAfter, TimerFunction.fraction,
        Timespec.floor_ms]
      omega
  | isTimeout => exact Timespec.ms_le_ms_iff left right

/-- A mixture of two readings lies between two times that bound both of them
exactly when it is not torn past either. -/
theorem mix_between_iff (function : TimerFunction)
    {start finish sec nsec : Timespec}
    (hsec : start.ms ≤ sec.ms ∧ sec.ms ≤ finish.ms)
    (hnsec : start.ms ≤ nsec.ms ∧ nsec.ms ≤ finish.ms) :
    function.NotAfter start (mix sec nsec) ∧
        function.NotAfter (mix sec nsec) finish ↔
      ¬ TornBack function start sec nsec ∧
        ¬ TornForward function finish sec nsec := by
  have hsecStart := function.notAfter_of_le hsec.1
  have hsecFinish := function.notAfter_of_le hsec.2
  have hnsecStart := function.notAfter_of_le hnsec.1
  have hnsecFinish := function.notAfter_of_le hnsec.2
  rw [TimerFunction.notAfter_iff] at hsecStart hsecFinish hnsecStart hnsecFinish
  simp only [TimerFunction.notAfter_iff, TornBack, TornForward, mix]
  omega

/-! ## Invariants of a run -/

structure CallInvariant (clock spec : Timespec) (call : Call) : Prop where
  started : call.start.ms ≤ clock.ms
  stored : call.stored = true → call.start.ms ≤ spec.ms
  sec : ∀ reading ∈ call.secReading,
    call.start.ms ≤ reading.ms ∧ reading.ms ≤ (call.finish.getD clock).ms
  nsec : ∀ reading ∈ call.nsecReading,
    call.start.ms ≤ reading.ms ∧ reading.ms ≤ (call.finish.getD clock).ms
  unfinished : call.time = none ∨ call.endMs = none → call.finish = none
  written : call.function = .setTimeout → ∀ endMs ∈ call.endMs,
    ∃ time ∈ call.time, endMs = truncateToLong time.ms + timeoutMs

theorem callInvariant_begin (function : TimerFunction) (clock spec : Timespec) :
    CallInvariant clock spec (.begin function clock) := by
  constructor <;> simp [Call.begin]

theorem CallInvariant.later
    {clock spec clock' spec' : Timespec} {call : Call}
    (hinv : CallInvariant clock spec call) (hclock : clock.ms ≤ clock'.ms)
    (hspec : spec.ms ≤ spec'.ms) : CallInvariant clock' spec' call := by
  have hfinish : (call.finish.getD clock).ms ≤ (call.finish.getD clock').ms := by
    cases call.finish with
    | none => exact hclock
    | some finish => exact le_refl _
  constructor
  · exact hinv.started.trans hclock
  · intro hstored
    exact (hinv.stored hstored).trans hspec
  · intro reading hreading
    have hbounds := hinv.sec reading hreading
    exact ⟨hbounds.1, hbounds.2.trans hfinish⟩
  · intro reading hreading
    have hbounds := hinv.nsec reading hreading
    exact ⟨hbounds.1, hbounds.2.trans hfinish⟩
  · exact hinv.unfinished
  · exact hinv.written

/-- A call that has not read both fields has neither returned nor, in
`set_timeout`, written `end`. -/
theorem CallInvariant.unread
    {clock spec : Timespec} {call : Call} (hinv : CallInvariant clock spec call)
    (hnone : call.time = none) :
    call.finish = none ∧ (call.function = .setTimeout → call.endMs = none) := by
  constructor
  · exact hinv.unfinished (Or.inl hnone)
  · intro hfunction
    rw [Option.eq_none_iff_forall_not_mem]
    intro endMs hend
    rcases hinv.written hfunction endMs hend with ⟨time, htime, _⟩
    rw [hnone] at htime
    contradiction

theorem CallInvariant.reading
    {clock spec : Timespec} {call : Call} (hinv : CallInvariant clock spec call)
    (hspec : spec.ms ≤ clock.ms) (hstored : call.stored = true)
    (hunfinished : call.finish = none) :
    call.start.ms ≤ spec.ms ∧ spec.ms ≤ (call.finish.getD clock).ms := by
  rw [hunfinished]
  exact ⟨hinv.stored hstored, hspec⟩

theorem CallInvariant.step
    {clock : Timespec} {timer after : Timer} {call next : Call} {action : Action}
    (hinv : CallInvariant clock timer.spec call)
    (hspec : timer.spec.ms ≤ clock.ms)
    (hstep : CallStep clock timer call action next after) :
    CallInvariant clock after.spec next := by
  cases hstep with
  | clockGettime hstored =>
      constructor
      · exact hinv.started
      · intro _
        exact hinv.started
      · exact hinv.sec
      · exact hinv.nsec
      · exact hinv.unfinished
      · exact hinv.written
  | readSec hstored hnoSec =>
      have hnone : call.time = none := by
        simp [Call.time, hnoSec]
      have hunread := hinv.unread hnone
      constructor
      · exact hinv.started
      · exact hinv.stored
      · intro reading hreading
        cases hreading
        exact hinv.reading hspec hstored hunread.1
      · exact hinv.nsec
      · intro _
        exact hunread.1
      · intro hfunction endMs hend
        rw [hunread.2 hfunction] at hend
        contradiction
  | readNsec hstored hnoNsec =>
      have hnone : call.time = none := by
        unfold Call.time
        rw [hnoNsec]
        cases call.secReading <;> rfl
      have hunread := hinv.unread hnone
      constructor
      · exact hinv.started
      · exact hinv.stored
      · exact hinv.sec
      · intro reading hreading
        cases hreading
        exact hinv.reading hspec hstored hunread.1
      · intro _
        exact hunread.1
      · intro hfunction endMs hend
        rw [hunread.2 hfunction] at hend
        contradiction
  | writeEnd haccess hfunction htime =>
      constructor
      · exact hinv.started
      · exact hinv.stored
      · exact hinv.sec
      · exact hinv.nsec
      · intro _
        exact hinv.unfinished (Or.inr haccess.2)
      · intro _ endMs hend
        cases hend
        exact ⟨_, htime, rfl⟩
  | readEnd haccess hfunction =>
      constructor
      · exact hinv.started
      · exact hinv.stored
      · exact hinv.sec
      · exact hinv.nsec
      · intro _
        exact hinv.unfinished (Or.inr haccess.2)
      · intro hset
        rw [hfunction] at hset
        contradiction
  | @ret time endMs result htime hend hunfinished =>
      have hsec := hinv.sec
      have hnsec := hinv.nsec
      rw [hunfinished] at hsec hnsec
      constructor
      · exact hinv.started
      · exact hinv.stored
      · exact hsec
      · exact hnsec
      · intro hnone
        rcases hnone with hnoTime | hnoEnd
        · exact absurd (htime.symm.trans hnoTime) (by simp)
        · exact absurd (hend.symm.trans hnoEnd) (by simp)
      · exact hinv.written

structure Invariant (s : State) : Prop where
  spec : s.timer.spec.ms ≤ s.clock.ms
  calls : ∀ call ∈ s.calls, CallInvariant s.clock s.timer.spec call

/-- No step takes the reading in `spec` back, or past the clock. -/
theorem CallStep.spec_le
    {clock : Timespec} {timer after : Timer} {call next : Call} {action : Action}
    (hstep : CallStep clock timer call action next after)
    (hspec : timer.spec.ms ≤ clock.ms) :
    timer.spec.ms ≤ after.spec.ms ∧ after.spec.ms ≤ clock.ms := by
  cases hstep with
  | clockGettime => exact ⟨hspec, le_refl _⟩
  | _ => exact ⟨le_refl _, hspec⟩

theorem Invariant.step
    {s next : State} {label : Label} (hinv : Invariant s)
    (hstep : Step s label next) : Invariant next := by
  cases hstep with
  | tick hclock =>
      constructor
      · exact hinv.spec.trans hclock
      · intro call hcall
        exact (hinv.calls call hcall).later hclock (le_refl _)
  | called function =>
      constructor
      · exact hinv.spec
      · intro call hcall
        rcases List.mem_append.mp hcall with hold | hnew
        · exact hinv.calls call hold
        · rw [List.mem_singleton.mp hnew]
          exact callInvariant_begin function s.clock s.timer.spec
  | @stepped index action call after timer hcall hcallStep =>
      have hspec := hcallStep.spec_le hinv.spec
      have hmem := List.mem_of_getElem? hcall
      constructor
      · exact hspec.2
      · intro other hother
        rcases List.mem_or_eq_of_mem_set hother with hold | hnew
        · exact (hinv.calls other hold).later (le_refl _) hspec.1
        · rw [hnew]
          exact (hinv.calls call hmem).step hinv.spec hcallStep

theorem run_invariant
    {labels : List Label} {s : State} (hrun : State.initial.run labels = some s) :
    Invariant s := by
  apply runFrom_invariant Invariant ?_ ?_ hrun
  · constructor
    · exact le_refl _
    · simp [State.initial]
  · intro state label next hinv hstep
    exact hinv.step (Step.of_step hstep)

theorem Call.time_eq_some {call : Call} {time : Timespec}
    (htime : call.time = some time) :
    ∃ sec nsec, call.secReading = some sec ∧ call.nsecReading = some nsec ∧
      time = mix sec nsec := by
  unfold Call.time at htime
  split at htime
  · rename_i sec nsec hsec hnsec
    exact ⟨sec, nsec, hsec, hnsec, (Option.some.inj htime).symm⟩
  · contradiction

theorem CallInvariant.returned
    {clock spec finish : Timespec} {call : Call}
    (hinv : CallInvariant clock spec call) (hfinish : call.finish = some finish) :
    ∃ sec nsec endMs, call.secReading = some sec ∧ call.nsecReading = some nsec ∧
      call.time = some (mix sec nsec) ∧ call.endMs = some endMs := by
  cases htime : call.time with
  | none =>
      have hunfinished := hinv.unfinished (Or.inl htime)
      rw [hfinish] at hunfinished
      contradiction
  | some time =>
      cases hend : call.endMs with
      | none =>
          have hunfinished := hinv.unfinished (Or.inr hend)
          rw [hfinish] at hunfinished
          contradiction
      | some endMs =>
          rcases Call.time_eq_some htime with ⟨sec, nsec, hsec, hnsec, rfl⟩
          exact ⟨sec, nsec, endMs, hsec, hnsec, rfl, rfl⟩

theorem CallInvariant.bounded_iff_notAfter
    {clock spec finish sec nsec : Timespec} {call : Call}
    (hinv : CallInvariant clock spec call) (hfinish : call.finish = some finish)
    (htime : call.time = some (mix sec nsec)) {endMs : ℤ}
    (hend : call.endMs = some endMs) :
    call.Bounded ↔ call.function.NotAfter call.start (mix sec nsec) ∧
      call.function.NotAfter (mix sec nsec) finish := by
  unfold Call.Bounded TimerFunction.NotAfter
  cases hfunction : call.function with
  | setTimeout =>
      have hwritten := hinv.written hfunction endMs hend
      simp only [htime, Option.mem_some_iff, exists_eq_left'] at hwritten
      rw [truncateToLong_of_nonneg (mix sec nsec).ms_nonneg] at hwritten
      simp [hfinish, hend, hwritten]
  | isTimeout => simp [hfinish, htime]

theorem CallInvariant.bounded_iff_untorn
    {clock spec : Timespec} {call : Call}
    (hinv : CallInvariant clock spec call) : call.Bounded ↔ call.Untorn := by
  cases hfinish : call.finish with
  | none => simp [Call.Bounded, Call.Untorn, hfinish]
  | some finish =>
      obtain ⟨sec, nsec, endMs, hsec, hnsec, htime, hend⟩ :=
        hinv.returned hfinish
      have hsecBounds := hinv.sec sec hsec
      have hnsecBounds := hinv.nsec nsec hnsec
      rw [hfinish, Option.getD_some] at hsecBounds hnsecBounds
      rw [hinv.bounded_iff_notAfter hfinish htime hend,
        mix_between_iff call.function hsecBounds hnsecBounds]
      simp [Call.Untorn, hfinish, hsec, hnsec]

/-- Every call of a run stays between the clock at its start and at its finish
exactly when no call is torn. -/
theorem calls_bounded_iff_untorn
    {labels : List Label} {s : State} (hrun : State.initial.run labels = some s) :
    (∀ call ∈ s.calls, call.Bounded) ↔ ∀ call ∈ s.calls, call.Untorn := by
  have hinv := run_invariant hrun
  apply forall_congr'
  intro call
  apply forall_congr'
  intro hcall
  exact (hinv.calls call hcall).bounded_iff_untorn

theorem lateInSecond_lt : 999000000 < 1000000000 := by decide

def lateInSecond : Timespec := ⟨1, 999000000, lateInSecond_lt⟩

/-- `main` reads `tv_sec` for a new deadline, a stream thread stores the clock
in the next second, and `main` reads `tv_nsec`. -/
def tornRun : List Label :=
  [.tick lateInSecond, .call .setTimeout, .step 0 .clockGettime,
    .step 0 .readSec, .tick (.second 2), .call .isTimeout,
    .step 1 .clockGettime, .step 0 .readNsec, .step 0 .accessEnd, .step 0 .ret]

theorem deadline_torn_back :
    ¬ ∀ call ∈ (State.initial.run tornRun |>.get (by decide +kernel)).calls,
      call.Bounded := by
  decide +kernel

/-- The same two calls within one second. -/
def sameSecondRun : List Label :=
  [.tick (.second 1), .call .setTimeout, .step 0 .clockGettime,
    .step 0 .readSec, .tick lateInSecond, .call .isTimeout,
    .step 1 .clockGettime, .step 0 .readNsec, .step 0 .accessEnd, .step 0 .ret]

theorem sameSecondRun_bounded :
    ∃ s, State.initial.run sameSecondRun = some s ∧
      ∀ call ∈ s.calls, call.Bounded := by
  refine ⟨(State.initial.run sameSecondRun).get (by decide +kernel),
    (Option.some_get _).symm, ?_⟩
  exact (calls_bounded_iff_untorn (Option.some_get _).symm).mpr
    (by decide +kernel)

/-! ## Runs in which no second begins between two reads -/

/-- The reading of the one field that a call has read so far. -/
def Call.halfRead (call : Call) : Option Timespec :=
  match call.secReading, call.nsecReading with
  | some reading, none | none, some reading => some reading
  | _, _ => none

/-- No `clock_gettime` stores a new second while a call is between its two
reads. -/
def KeepsSecond (s : State) : Label → Prop
  | .step _ .clockGettime =>
      ∀ call ∈ s.calls, ∀ reading ∈ call.halfRead, reading.tvSec = s.clock.tvSec
  | _ => True

structure OneSecond (spec : Timespec) (call : Call) : Prop where
  halfRead : ∀ reading ∈ call.halfRead, reading.tvSec = spec.tvSec
  read : ∀ sec ∈ call.secReading, ∀ nsec ∈ call.nsecReading,
    sec.tvSec = nsec.tvSec

theorem OneSecond.untorn {spec : Timespec} {call : Call}
    (hsecond : OneSecond spec call) : call.Untorn := by
  intro finish _ sec hsec nsec hnsec
  have hsame := hsecond.read sec hsec nsec hnsec
  unfold TornBack TornForward
  omega

theorem OneSecond.step
    {clock : Timespec} {timer after : Timer} {call next : Call} {action : Action}
    (hsecond : OneSecond timer.spec call)
    (hguard : action = .clockGettime →
      ∀ reading ∈ call.halfRead, reading.tvSec = clock.tvSec)
    (hstep : CallStep clock timer call action next after) :
    OneSecond after.spec next := by
  cases hstep with
  | clockGettime hstored => exact ⟨hguard rfl, hsecond.read⟩
  | readSec hstored hunread =>
      have hhalf := hsecond.halfRead
      cases hnsec : call.nsecReading with
      | none => constructor <;> simp [Call.halfRead]
      | some nsec =>
          simp only [Call.halfRead, hunread, hnsec, Option.mem_some_iff,
            forall_eq'] at hhalf
          constructor <;> simp [Call.halfRead, hhalf]
  | readNsec hstored hunread =>
      have hhalf := hsecond.halfRead
      cases hsec : call.secReading with
      | none => constructor <;> simp [Call.halfRead]
      | some sec =>
          simp only [Call.halfRead, hunread, hsec, Option.mem_some_iff,
            forall_eq'] at hhalf
          constructor <;> simp [Call.halfRead, hhalf]
  | writeEnd => exact ⟨hsecond.halfRead, hsecond.read⟩
  | readEnd => exact ⟨hsecond.halfRead, hsecond.read⟩
  | ret => exact ⟨hsecond.halfRead, hsecond.read⟩

theorem OneSecond.other
    {clock : Timespec} {timer after : Timer} {call next other : Call}
    {action : Action} (hsecond : OneSecond timer.spec other)
    (hguard : action = .clockGettime →
      ∀ reading ∈ other.halfRead, reading.tvSec = clock.tvSec)
    (hstep : CallStep clock timer call action next after) :
    OneSecond after.spec other := by
  cases hstep with
  | clockGettime hstored => exact ⟨hguard rfl, hsecond.read⟩
  | _ => exact hsecond

def SecondsKept (s : State) : Prop :=
  ∀ call ∈ s.calls, OneSecond s.timer.spec call

theorem SecondsKept.step
    {s next : State} {label : Label} (hinv : SecondsKept s)
    (hguard : KeepsSecond s label) (hstep : Step s label next) :
    SecondsKept next := by
  intro other hother
  cases hstep with
  | tick hclock => exact hinv other hother
  | called function =>
      rcases List.mem_append.mp hother with hold | hnew
      · exact hinv other hold
      · rw [List.mem_singleton.mp hnew]
        constructor <;> simp [Call.begin, Call.halfRead]
  | @stepped index action call after timer hcall hcallStep =>
      have hstores : ∀ kept ∈ s.calls, action = .clockGettime →
          ∀ reading ∈ kept.halfRead, reading.tvSec = s.clock.tvSec := by
        intro kept hkept haction
        subst haction
        exact hguard kept hkept
      rcases List.mem_or_eq_of_mem_set hother with hold | hnew
      · exact (hinv other hold).other (hstores other hold) hcallStep
      · have hmem := List.mem_of_getElem? hcall
        rw [hnew]
        exact (hinv call hmem).step (hstores call hmem) hcallStep

/-- Where no `clock_gettime` stores a new second between the two reads of a
call, every call stays between the clock at its start and at its finish. -/
theorem calls_bounded_of_seconds_kept
    {labels : List Label} {s : State}
    (hguard : EveryStep State.step KeepsSecond .initial labels)
    (hrun : State.initial.run labels = some s) :
    ∀ call ∈ s.calls, call.Bounded := by
  have hkept : SecondsKept s := by
    apply runFrom_guardedInvariant SecondsKept ?_ ?_ hguard hrun
    · simp [SecondsKept, State.initial]
    · intro state label next hinv hlabel hstep
      exact hinv.step hlabel (Step.of_step hstep)
  intro call hcall
  exact ((run_invariant hrun).calls call hcall).bounded_iff_untorn.mpr
    (hkept call hcall).untorn

end TimerRace

end RpiUdpStream
