import RpiUdpStream.SessionRefinement

/-!
# The life of the event flags against the life of the handle

Callbacks of any kind may come from the start of `OMX_GetHandle` to the end of
`OMX_FreeHandle`.  The flag group is created before the handle is acquired, but
deleted before it is freed, so a callback in between wakes a deleted group.
-/

namespace RpiUdpStream

namespace Omx

open LabelledRun

def State.wakes (s : State) : Label → Option Component
  | .call _ => none
  | .answer index => s.outstanding[index]?.map fun request => request.component
  | .callback component notice => notice.wakes.map fun _ => component

def WakesExisting (s : State) (label : Label) : Prop :=
  ∀ component, s.wakes label = some component → s.flags.get component ≠ none

/-- No wake of a component comes while the next call of the session thread is
that of `OMX_FreeHandle` for it, or its return. -/
def WakesOutsideFreeHandle (s : State) (label : Label) : Prop :=
  ∀ component, s.wakes label = some component →
    ∀ call, s.calls.head? = some call → call.frees component = false

instance (s : State) (label : Label) : Decidable (WakesExisting s label) :=
  inferInstanceAs (Decidable (∀ component, s.wakes label = some component →
    s.flags.get component ≠ none))

instance (s : State) (label : Label) :
    Decidable (WakesOutsideFreeHandle s label) :=
  decidable_of_iff
    (∀ component, s.wakes label = some component →
      s.calls.head?.all (fun call => !call.frees component) = true)
    (by simp [WakesOutsideFreeHandle, Option.all_eq_true])

def Call.handleAfter (component : Component) (before : HandleState) :
    Call → HandleState
  | .getHandleStart other => if component = other then .acquiring else before
  | .getHandleEnd other _ => if component = other then .held else before
  | .freeHandleStart other => if component = other then .freeing else before
  | .freeHandleEnd other => if component = other then .freed else before
  | _ => before

theorem Call.handle_perform (call : Call) (setup : Setup) (component : Component) :
    (call.perform setup).handle component =
      call.handleAfter component (setup.handle component) := by
  cases call <;>
    simp only [Call.perform, Call.handleAfter, Setup.handle, Setup.setHandle,
      PerComponent.get_set] <;>
    split <;> rfl

theorem Request.handle_carryOut (request : Request) (setup : Setup)
    (component : Component) :
    (request.carryOut setup).handle component = setup.handle component := by
  simp only [Request.carryOut, Setup.handle, PerComponent.get_set]
  split
  · rename_i heq
    rw [heq]
    cases request.order <;> rfl
  · rfl

/-- The flag groups that exist and the handles are those of the synchronous
program, whatever the components call back. -/
structure SameLife (s : State) (sync : Sync) : Prop where
  flags : ∀ component,
    (s.flags.get component).isSome = sync.flagged.get component
  handle : ∀ component, s.setup.handle component = sync.setup.handle component

theorem SameLife.deliver
    {s : State} {sync : Sync} (hsame : SameLife s sync) (component : Component)
    (callback : Callback) : SameLife (s.deliver component callback) sync := by
  constructor
  · intro other
    rw [State.get_flags_deliver, ← hsame.flags other]
    split
    · rename_i heq
      rw [heq, Option.isSome_map]
    · rfl
  · exact hsame.handle

theorem SameLife.setFlags
    {s : State} {sync : Sync} (hsame : SameLife s sync) (component : Component)
    {value : Option Flags} {flagged : Bool} (hvalue : value.isSome = flagged) :
    SameLife { s with flags := s.flags.set component value }
      { sync with flagged := sync.flagged.set component flagged } := by
  constructor
  · intro other
    rw [PerComponent.get_set, PerComponent.get_set]
    split
    · exact hvalue
    · exact hsame.flags other
  · exact hsame.handle

theorem SameLife.perform
    {s next : State} {sync : Sync} {extra : Flags} {call : Call}
    (hsame : SameLife s sync) (hperform : s.perform extra call = some next) :
    SameLife next (sync.perform call) := by
  have hinstant : SameLife { s with setup := call.perform s.setup }
      { sync with setup := call.perform sync.setup } := by
    constructor
    · exact hsame.flags
    · intro component
      rw [Call.handle_perform, Call.handle_perform, hsame.handle]
  cases call with
  | flagsCreate component =>
      cases hperform
      exact hsame.setFlags component rfl
  | flagsDelete component =>
      cases hperform
      exact hsame.setFlags component rfl
  | request made =>
      cases hperform
      exact ⟨hsame.flags, hsame.handle⟩
  | wait component event =>
      obtain ⟨flags, result, rest, hflags, _, hnext⟩ :=
        perform_wait_eq_some hperform
      subst next
      constructor
      · intro other
        have hflagged : (sync.perform (.wait component event)).flagged =
            sync.flagged := by
          simp only [Sync.perform]
          split <;> rfl
        rw [hflagged, ← hsame.flags other, PerComponent.get_set]
        split
        · rename_i heq
          rw [heq, hflags]
          rfl
        · rfl
      · intro other
        simp only [Sync.perform]
        split
        · exact hsame.handle other
        · rw [Request.handle_carryOut]
          exact hsame.handle other
  | freeHandleEnd component =>
      cases hperform
      exact ⟨hinstant.flags, hinstant.handle⟩
  | _ =>
      cases hperform
      exact hinstant

theorem run_sameLife
    {sessions : List Session} {labels : List Label} {s : State}
    (hrun : (State.initial sessions).run labels = some s) :
    ∃ sync, Follows (sessions.flatMap Session.calls) s sync ∧ SameLife s sync := by
  apply runFrom_invariant
    (fun state => ∃ sync, Follows (sessions.flatMap Session.calls) state sync ∧
      SameLife state sync) ?_ ?_ hrun
  · refine ⟨.initial, follows_initial sessions, ?_, ?_⟩
    · intro component
      cases component <;> rfl
    · intro component
      rfl
  · rintro state label next ⟨sync, hfollows, hsame⟩ hstep
    cases (Step.of_step hstep).2 with
    | failed hcalls hchecked =>
        exact ⟨sync, hfollows, hsame.flags, hsame.handle⟩
    | @performed call rest extra performed hcalls hperform =>
        obtain ⟨_, hadvance⟩ :=
          hfollows.advance (run_program sessions) hcalls
        have hnext := hsame.perform hperform
        exact ⟨sync.perform call, hadvance _ rfl, hnext.flags, hnext.handle⟩
    | @answered index request hrequest hhandle =>
        have hdelivered := hsame.deliver request.component request.order.callback
        refine ⟨sync, hfollows, hdelivered.flags, ?_⟩
        intro component
        exact (Request.handle_carryOut request state.setup component).trans
          (hsame.handle component)
    | calledBack hhandle => exact ⟨sync, hfollows, hsame.deliver _ _⟩

theorem flags_eq_none_iff
    {sessions : List Session} {labels : List Label} {s : State}
    (hrun : (State.initial sessions).run labels = some s)
    {component : Component} (hhandle : s.setup.handle component ≠ .freed) :
    s.flags.get component = none ↔
      ∃ call, s.calls.head? = some call ∧ call.frees component = true := by
  rcases run_sameLife hrun with ⟨sync, hfollows, hsame⟩
  have hflags : s.flags.get component = none ↔
      sync.flagged.get component = false := by
    rw [← hsame.flags component, Option.isSome_eq_false_iff, Option.isNone_iff_eq_none]
  rw [hsame.handle] at hhandle
  rw [hflags]
  cases hcalls : s.calls with
  | nil =>
      rcases hfollows with ⟨executed, hsplit, hexecuted⟩
      rw [hcalls, List.append_nil] at hsplit
      rw [← hsplit, run_program] at hexecuted
      have hfreed := (rests_setupAfter sessions Sync.rests_initial).freed component
      rw [← Option.some.inj hexecuted] at hhandle
      exact absurd hfreed hhandle
  | cons call rest =>
      obtain ⟨⟨hsettled, hcall⟩, _⟩ :=
        hfollows.advance (run_program sessions) hcalls
      constructor
      · intro hflagged
        rcases hsettled component with hsettledHere | hfrees
        · rcases hsettledHere with hexists | hfreed
          · rw [hflagged] at hexists
            contradiction
          · exact absurd hfreed hhandle
        · exact ⟨call, rfl, hfrees⟩
      · rintro ⟨next, hnext, hfrees⟩
        cases hnext
        cases call with
        | freeHandleStart freed =>
            have heq : freed = component := by
              simpa [Call.frees] using hfrees
            exact heq ▸ hcall.2.1
        | freeHandleEnd freed =>
            have heq : freed = component := by
              simpa [Call.frees] using hfrees
            exact heq ▸ hcall.2.1
        | _ => contradiction

/-- Every wake of a run is of an existing flag group exactly when no wake of a
component comes between `vcos_event_flags_delete` and the return of
`OMX_FreeHandle` for it. -/
theorem wakes_existing_iff_outside_freeHandle
    {sessions : List Session} {labels : List Label} {s : State}
    (hrun : (State.initial sessions).run labels = some s) :
    EveryStep State.step WakesExisting (State.initial sessions) labels ↔
      EveryStep State.step WakesOutsideFreeHandle (State.initial sessions)
        labels := by
  apply everyStep_congr hrun
  intro trace state label next htrace hstep
  have hhandle : ∀ component, state.wakes label = some component →
      state.setup.handle component ≠ .freed := by
    intro component hwakes
    cases (Step.of_step hstep).2 with
    | failed => contradiction
    | performed => contradiction
    | @answered index request hrequest hheld =>
        have heq : request.component = component := by
          simpa [State.wakes, hrequest] using hwakes
        exact heq ▸ hheld
    | @calledBack source callback hheld =>
        have heq : source = component := by
          simp only [State.wakes, Option.map_eq_some_iff] at hwakes
          exact hwakes.choose_spec.2
        exact heq ▸ hheld
  apply forall_congr'
  intro component
  constructor
  · intro hexists hwakes call hcall
    have hflags := hexists hwakes
    rw [ne_eq, flags_eq_none_iff htrace (hhandle component hwakes)] at hflags
    by_contra hfrees
    exact hflags ⟨call, hcall, by simpa using hfrees⟩
  · intro houtside hwakes
    rw [ne_eq, flags_eq_none_iff htrace (hhandle component hwakes)]
    rintro ⟨call, hcall, hfrees⟩
    rw [houtside hwakes call hcall] at hfrees
    contradiction

/-- One session in which the camera reports a buffer flag after its flag group
was deleted and before its handle is freed. -/
def lateCallbackRun : List Label :=
  ((boardSession 0).calls.takeWhile fun call =>
      decide (call ≠ .freeHandleStart .camera)).flatMap Call.served ++
    [.callback .camera (.eventHandler .bufferFlag)]

theorem late_callback_wakes_deleted_flags :
    (∃ s, (State.initial [boardSession 0]).run lateCallbackRun = some s) ∧
      ¬ EveryStep State.step WakesExisting (State.initial [boardSession 0])
        lateCallbackRun := by
  constructor
  · exact Option.isSome_iff_exists.mp (by decide +kernel)
  · decide +kernel

def earlyCallbackRun : List Label :=
  [.call (.returned 0), .call (.returned 0), .call (.returned 0),
    .call (.returned 0), .callback .camera (.eventHandler .bufferFlag)] ++
    ((boardSession 0).calls.drop 4).flatMap Call.served

theorem earlyCallbackRun_wakes_existing :
    EveryStep State.step WakesExisting (State.initial [boardSession 0])
      earlyCallbackRun :=
  have hrun : (State.initial [boardSession 0]).run earlyCallbackRun =
      some (((State.initial [boardSession 0]).run earlyCallbackRun).get
        (by decide +kernel)) :=
    (Option.some_get _).symm
  (wakes_existing_iff_outside_freeHandle hrun).mpr (by decide +kernel)

end Omx

end RpiUdpStream
