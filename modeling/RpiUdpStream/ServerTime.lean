import RpiUdpStream.ServerSteps

/-!
# The server at another time

A step of the server reads the clock and the timer in its two timer calls alone,
so every other step is the same at any time.
-/

namespace RpiUdpStream

def State.withTime (s : State) (clock : Timespec) (timer : Timer) : State :=
  { s with clock := clock, timer := timer }

theorem State.streamStep_isTimeout
    {s : State} {tid : ℕ} {thread : StreamThread}
    (hpc : thread.pc ≠ .timeoutCheck) : s.streamStep tid thread .isTimeout = none := by
  unfold State.streamStep
  cases hthread : thread.pc <;> simp_all [StreamPc.advance]

theorem State.join_withTime
    (s : State) (clock : Timespec) (timer : Timer) :
    (s.withTime clock timer).join =
      s.join.map fun next => next.withTime clock timer := by
  unfold State.join
  simp only [State.withTime]
  split
  · split <;> rfl
  · rfl

theorem State.mainStep_withTime
    (s : State) (clock : Timespec) (timer : Timer) {action : MainAction}
    (haction : action ≠ .setTimeout) :
    (s.withTime clock timer).mainStep action =
      (s.mainStep action).map fun next => next.withTime clock timer := by
  cases action with
  | setup ok =>
      cases ok <;> cases hmain : s.main <;> simp [State.mainStep, State.withTime, hmain]
  | receive received =>
      cases received <;> cases hmain : s.main <;>
        simp [State.mainStep, State.withTime, hmain]
  | dispatch =>
      cases hdispatch : dispatch s.udp <;> cases hmain : s.main <;>
        simp [State.mainStep, State.withTime, hmain, hdispatch]
  | create outcome =>
      cases outcome <;> cases hmain : s.main <;>
        simp [State.mainStep, State.withTime, hmain]
  | join =>
      cases hmain : s.main with
      | joining =>
          simpa [State.mainStep, hmain, State.withTime] using
            State.join_withTime s clock timer
      | _ => simp [State.mainStep, State.withTime, hmain]
  | setTimeout => contradiction
  | _ =>
      cases hmain : s.main <;> simp [State.mainStep, State.withTime, hmain]

theorem State.mainStep_setTimeout
    (s : State) (clock : Timespec) (timer : Timer) :
    (s.withTime clock timer).mainStep .setTimeout =
      (s.mainStep .setTimeout).map fun next =>
        next.withTime clock (setTimeout clock timer) := by
  cases hmain : s.main <;> simp [State.mainStep, State.withTime, hmain]

theorem State.streamStep_withTime
    (s : State) (clock : Timespec) (timer : Timer) {tid : ℕ}
    {thread : StreamThread} {action : StreamAction} (haction : action ≠ .isTimeout) :
    (s.withTime clock timer).streamStep tid thread action =
      (s.streamStep tid thread action).map fun next =>
        next.withTime clock timer := by
  unfold State.streamStep
  simp only [State.withTime]
  split
  · rfl
  · rw [apply_ite (Option.map _)]
    rfl
  · rfl
  · contradiction
  · rw [apply_ite (Option.map _)]
    rfl
  · rw [Option.map_map]
    rfl

theorem State.step_withTime
    (s : State) (clock : Timespec) (timer : Timer) {label : Label}
    (htick : ∀ now, label ≠ .tick now) (hset : label ≠ .main .setTimeout)
    (hcheck : ∀ tid, label ≠ .stream tid .isTimeout) :
    (s.withTime clock timer).step label =
      (s.step label).map fun next => next.withTime clock timer := by
  unfold State.step
  change (if s.exitCode.isSome then none else _) = _
  split
  · rfl
  · cases label with
    | tick now => exact absurd rfl (htick now)
    | main action =>
        exact State.mainStep_withTime s clock timer fun heq => hset (by rw [heq])
    | stream tid action =>
        have hthreads : (s.withTime clock timer).threads = s.threads := rfl
        simp only [hthreads]
        cases s.threads[tid]? with
        | none => rfl
        | some thread =>
            exact State.streamStep_withTime s clock timer fun heq =>
              hcheck tid (by rw [heq])

theorem State.step_check
    {s : State} {tid : ℕ} {thread : StreamThread}
    (hrunning : s.exitCode = none) (hthread : s.threads[tid]? = some thread)
    (hpc : thread.pc = .timeoutCheck) :
    s.step (.stream tid .isTimeout) =
      some { s.setPc tid thread
          (if (isTimeout s.clock s.timer).2 then .deinitCall else .quitTest) with
        timer := (isTimeout s.clock s.timer).1 } := by
  simp [State.step, State.streamStep, hrunning, hthread, hpc]

end RpiUdpStream
