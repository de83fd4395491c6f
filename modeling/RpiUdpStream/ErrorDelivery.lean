import RpiUdpStream.ComponentEvents
import RpiUdpStream.LabelledRun

/-!
# When a component error ends the process

Callbacks of the three components are interleaved with calls of `wait` that
request any events.  `wait` compares the whole reported set with `EVENT_ERROR`,
so an error ends the process exactly when nothing else is reported with it.
-/

namespace RpiUdpStream

namespace ErrorDelivery

open LabelledRun

inductive Label where
  | callback (component : Component) (callback : Callback)
  | wait (component : Component) (events : Flags) (outcome : CallOutcome)
  deriving DecidableEq

structure State where
  flags : PerComponent Flags
  exitCode : Option ℕ
  deriving DecidableEq

def State.initial : State := ⟨.const 0, none⟩

def State.step (s : State) (label : Label) : Option State :=
  if s.exitCode.isSome then none
  else
    match label with
    | .callback component callback =>
        let flags := callback.deliver (s.flags.get component)
        some { s with flags := s.flags.set component flags }
    | .wait component events outcome =>
        (wait (s.flags.get component) events outcome).map fun (result, rest) =>
          { flags := s.flags.set component rest, exitCode := result.exitCode }

abbrev run (labels : List Label) : Option State :=
  runFrom State.step .initial labels

def ErrorPending (flags : Flags) : Prop :=
  flags &&& ComponentEvent.error.flag ≠ 0

instance (flags : Flags) : Decidable (ErrorPending flags) :=
  inferInstanceAs (Decidable (_ ≠ _))

inductive Step (s : State) : Label → State → Prop where
  | callback (source : Component) (callback : Callback) :
      Step s (.callback source callback)
        { s with
          flags := s.flags.set source (callback.deliver (s.flags.get source)) }
  | getFailed (waited : Component) (events : Flags) :
      Step s (.wait waited events .failed) { s with exitCode := some 1 }
  | collected (waited : Component) (events extra : Flags)
      (hpending : s.flags.get waited &&&
        (events ||| ComponentEvent.error.flag) ≠ 0) :
      Step s (.wait waited events (.returned extra))
        { flags := s.flags.set waited
            (s.flags.get waited &&& ~~~(events ||| ComponentEvent.error.flag))
          exitCode := (afterGet (s.flags.get waited &&&
            (events ||| ComponentEvent.error.flag) ||| extra)).exitCode }

theorem Step.of_step
    {s next : State} {label : Label} (hstep : s.step label = some next) :
    Step s label next := by
  unfold State.step at hstep
  split at hstep
  · contradiction
  · cases label with
    | callback source callback =>
        cases hstep
        exact .callback source callback
    | wait waited events outcome =>
        rcases Option.map_eq_some_iff.mp hstep with ⟨result, hwait, hnext⟩
        subst next
        cases outcome with
        | failed =>
            cases hwait
            simpa [WaitResult.exitCode] using Step.getFailed waited events
        | returned extra =>
            rcases wait_returned_eq_some_iff.mp hwait with ⟨hpending, hresult⟩
            subst result
            exact .collected waited events extra hpending

def errorSinceWait (component : Component) (labels : List Label) : Bool :=
  labels.foldl
    (fun pending label =>
      match label with
      | .callback source callback =>
          pending || decide (source = component ∧ callback = .eventHandler .error)
      | .wait waited _ (.returned _) => pending && decide (waited ≠ component)
      | .wait _ _ .failed => pending) false

theorem errorSinceWait_concat
    (component : Component) (labels : List Label) (label : Label) :
    errorSinceWait component (labels ++ [label]) =
      match label with
      | .callback source callback =>
          errorSinceWait component labels ||
            decide (source = component ∧ callback = .eventHandler .error)
      | .wait waited _ (.returned _) =>
          errorSinceWait component labels && decide (waited ≠ component)
      | .wait _ _ .failed => errorSinceWait component labels := by
  simp [errorSinceWait]

theorem wakes_eq_error_iff (callback : Callback) :
    callback.wakes = some .error ↔ callback = .eventHandler .error := by
  cases callback with
  | fillBufferDone => simp [Callback.wakes, RpiUdpStream.fillBufferDone]
  | eventHandler event =>
      cases event with
      | cmdComplete data1 =>
          cases data1 <;> simp [Callback.wakes, RpiUdpStream.eventHandler]
      | _ => simp [Callback.wakes, RpiUdpStream.eventHandler]

theorem errorPending_wake (flags : Flags) (event : ComponentEvent) :
    ErrorPending (wake flags event) ↔ ErrorPending flags ∨ event = .error := by
  unfold ErrorPending wake
  by_cases herror : event = .error
  · subst herror
    rw [EventFlags.set_and_of_subset (by decide)]
    simp [ComponentEvent.flag]
  · rw [EventFlags.set_and_of_disjoint (ComponentEvent.flag_and_flag herror)]
    simp [herror]

theorem errorPending_deliver (callback : Callback) (flags : Flags) :
    ErrorPending (callback.deliver flags) ↔
      ErrorPending flags ∨ callback = .eventHandler .error := by
  rw [← wakes_eq_error_iff]
  unfold Callback.deliver
  cases callback.wakes with
  | none => simp
  | some event => simp [errorPending_wake]

theorem not_errorPending_consume (flags events : Flags) :
    ¬ ErrorPending (flags &&& ~~~(events ||| ComponentEvent.error.flag)) := by
  unfold ErrorPending
  rw [EventFlags.consume_and_of_subset EventFlags.and_or_right_self]
  simp

theorem run_errorPending_iff
    {labels : List Label} {s : State} (hrun : run labels = some s)
    (component : Component) :
    ErrorPending (s.flags.get component) ↔
      errorSinceWait component labels = true := by
  apply runFrom_traceInvariant
    (fun trace state => ErrorPending (state.flags.get component) ↔
      errorSinceWait component trace = true) ?_ ?_ hrun
  · simp [State.initial, ErrorPending, errorSinceWait]
  · intro trace state label next _ hinv hstep
    rw [errorSinceWait_concat]
    cases Step.of_step hstep with
    | callback source callback =>
        by_cases hsource : source = component
        · simp [hsource, errorPending_deliver, hinv]
        · simp [hsource, Ne.symm hsource, PerComponent.get_set, hinv]
    | getFailed waited events => exact hinv
    | collected waited events extra hpending =>
        by_cases hwaited : waited = component
        · simp [hwaited, not_errorPending_consume]
        · simp [hwaited, Ne.symm hwaited, PerComponent.get_set, hinv]

/-! ## Waits that collect an error -/

/-- Every `wait` that collects an error which was delivered after the previous
`wait` on its component ends the process. -/
def ErrorsEndWaits (labels : List Label) : Prop :=
  ∀ before component events outcome after s next,
    labels = before ++ .wait component events outcome :: after →
    run before = some s → errorSinceWait component before = true →
    s.step (.wait component events outcome) = some next →
      next.exitCode = some 1

/-- Where an error is pending, `wait` finds none of the awaited events pending
with it, and no other bit is reported. -/
def CollectsErrorAlone (s : State) : Label → Prop
  | .wait component events (.returned extra) =>
      ErrorPending (s.flags.get component) →
        (s.flags.get component &&& events ||| extra) &&&
          ~~~ComponentEvent.error.flag = 0
  | _ => True

instance (s : State) : (label : Label) → Decidable (CollectsErrorAlone s label)
  | .callback _ _ => inferInstanceAs (Decidable True)
  | .wait _ _ .failed => inferInstanceAs (Decidable True)
  | .wait _ _ (.returned _) => inferInstanceAs (Decidable (_ → _))

theorem ErrorPending.and_flag {flags : Flags} (hpending : ErrorPending flags) :
    flags &&& ComponentEvent.error.flag = ComponentEvent.error.flag := by
  have hbit : ComponentEvent.error.flag = BitVec.twoPow 32 0 := by decide
  unfold ErrorPending at hpending
  rw [hbit, BitVec.and_twoPow] at hpending ⊢
  split at hpending
  · rename_i hset
    rw [if_pos hset]
  · contradiction

theorem afterGet_exits_iff
    {flags events extra : Flags} (hpending : ErrorPending flags) :
    (afterGet (flags &&& (events ||| ComponentEvent.error.flag) |||
        extra)).exitCode = some 1 ↔
      (flags &&& events ||| extra) &&& ~~~ComponentEvent.error.flag = 0 := by
  have hreported : (flags &&& (events ||| ComponentEvent.error.flag) ||| extra) &&&
      ComponentEvent.error.flag = ComponentEvent.error.flag :=
    EventFlags.report_and_of_pending hpending.and_flag
      EventFlags.and_or_right_self
  rw [← EventFlags.report_and_not,
    ← EventFlags.report_eq_iff_of_subset hreported]
  unfold afterGet
  split
  · rename_i halone
    simp [halone, WaitResult.exitCode]
  · rename_i hmore
    simp [hmore, WaitResult.exitCode]

theorem Step.exits_iff_collectsErrorAlone
    {s next : State} {component : Component} {events : Flags}
    {outcome : CallOutcome}
    (hstep : Step s (.wait component events outcome) next)
    (hpending : ErrorPending (s.flags.get component)) :
    next.exitCode = some 1 ↔
      CollectsErrorAlone s (.wait component events outcome) := by
  cases hstep with
  | getFailed => simp [CollectsErrorAlone]
  | collected waited events extra hany =>
      simpa [CollectsErrorAlone, hpending] using afterGet_exits_iff hpending

/-- Along a run, every `wait` that collects a component error ends the process
exactly when each of them finds the error bit alone. -/
theorem errors_end_waits_iff_collected_alone
    {labels : List Label} {s : State} (hrun : run labels = some s) :
    ErrorsEndWaits labels ↔
      EveryStep State.step CollectsErrorAlone .initial labels := by
  rw [everyStep_iff_split]
  constructor
  · intro hend before label after middle hsplit hmiddle
    cases label with
    | callback source callback => trivial
    | wait component events outcome =>
        by_cases hpending : ErrorPending (middle.flags.get component)
        · rcases step_of_split hrun hsplit hmiddle with ⟨next, hnext⟩
          have hsince := (run_errorPending_iff hmiddle component).mp hpending
          have hexit := hend before component events outcome after middle next
            hsplit hmiddle hsince hnext
          exact ((Step.of_step hnext).exits_iff_collectsErrorAlone hpending).mp hexit
        · cases outcome with
          | failed => trivial
          | returned extra => exact fun herror => absurd herror hpending
  · intro halone before component events outcome after middle next hsplit
      hmiddle hsince hnext
    have hpending := (run_errorPending_iff hmiddle component).mpr hsince
    apply ((Step.of_step hnext).exits_iff_collectsErrorAlone hpending).mpr
    exact halone before _ after middle hsplit hmiddle

/-- The encoder reports an error and then completes the state change that the
session thread waits for. -/
def errorWithCompletion : List Label :=
  [.callback .encoder (.eventHandler .error),
    .callback .encoder (.eventHandler (.cmdComplete .stateSet)),
    .wait .encoder ComponentEvent.stateSet.flag (.returned 0)]

theorem errorWithCompletion_swallowed : ¬ ErrorsEndWaits errorWithCompletion := by
  intro hend
  have hreturns : ∃ s next, run (errorWithCompletion.take 2) = some s ∧
      s.step (.wait .encoder ComponentEvent.stateSet.flag (.returned 0)) =
        some next ∧ next.exitCode = none :=
    ⟨_, _, rfl, rfl, by decide⟩
  rcases hreturns with ⟨s, next, hrun, hstep, hnone⟩
  have hexit := hend (errorWithCompletion.take 2) .encoder
    ComponentEvent.stateSet.flag (.returned 0) [] s next rfl hrun (by decide) hstep
  rw [hnone] at hexit
  contradiction

def errorBesideMark : List Label :=
  [.callback .encoder (.eventHandler .mark),
    .callback .encoder (.eventHandler .error),
    .wait .encoder ComponentEvent.stateSet.flag (.returned 0)]

theorem errorBesideMark_ends_wait : ErrorsEndWaits errorBesideMark :=
  have hrun : run errorBesideMark =
      some ((run errorBesideMark).get (by decide)) :=
    (Option.some_get _).symm
  (errors_end_waits_iff_collected_alone hrun).mpr (by decide)

end ErrorDelivery

end RpiUdpStream
