import RpiUdpStream.ErrorDelivery
import RpiUdpStream.SessionProgress
import RpiUdpStream.Mailbox
import RpiUdpStream.WholeProgram

/-!
# The flag groups as mailboxes

The flag group of a component is a mailbox of events: `init_component` opens
it, the callbacks put events into it, `wait` takes the awaited event and the
error, and `deinit_component` closes it.  A get of vcos collects and clears in one
step, also where several threads wait on the group.  So what is pending, and which
`wait` returns, is read off the history of the group, in every interleaving of any
number of stream threads with the components.
-/

namespace RpiUdpStream

open LabelledRun

theorem ComponentEvent.separate_flag : EventFlags.Separate ComponentEvent.flag where
  ne_zero := ComponentEvent.flag_ne_zero
  disjoint _ _ := ComponentEvent.flag_and_flag

theorem ComponentEvent.pending_eq
    {group : Flags} (event : ComponentEvent) (hpending : group &&& event.flag ≠ 0) :
    group &&& event.flag = event.flag := by
  have hbit : ∃ bit, event.flag = BitVec.twoPow 32 bit := by
    cases event with
    | error => exact ⟨0, by decide⟩
    | portEnable => exact ⟨1, by decide⟩
    | portDisable => exact ⟨2, by decide⟩
    | stateSet => exact ⟨3, by decide⟩
    | flush => exact ⟨4, by decide⟩
    | markBuffer => exact ⟨5, by decide⟩
    | mark => exact ⟨6, by decide⟩
    | portSettingsChanged => exact ⟨7, by decide⟩
    | paramOrConfigChanged => exact ⟨8, by decide⟩
    | bufferFlag => exact ⟨9, by decide⟩
    | resourcesAcquired => exact ⟨10, by decide⟩
    | dynamicResourcesAvailable => exact ⟨11, by decide⟩
    | fillBufferDone => exact ⟨12, by decide⟩
    | emptyBufferDone => exact ⟨13, by decide⟩
  obtain ⟨bit, hbit⟩ := hbit
  rw [hbit, BitVec.and_twoPow] at hpending ⊢
  split at hpending
  · rename_i hset
    rw [if_pos hset]
  · contradiction

/-- The group exists and the event is pending in it. -/
def Pending (flags : Option Flags) (event : ComponentEvent) : Prop :=
  ∃ group, flags = some group ∧ group &&& event.flag ≠ 0

/-- The events that a group holds, or `none` while there is no group. -/
def pendingEvents (flags : Option Flags) : Option (Set ComponentEvent) :=
  flags.map (EventFlags.pending ComponentEvent.flag)

theorem mem_pendingEvents {flags : Option Flags} {event : ComponentEvent} :
    (∃ held, pendingEvents flags = some held ∧ event ∈ held) ↔
      Pending flags event := by
  simp [pendingEvents, Pending, EventFlags.pending]

theorem pendingEvents_wake (flags : Option Flags) (event : ComponentEvent) :
    pendingEvents (flags.map fun group => wake group event) =
      (pendingEvents flags).map (insert event) := by
  simp only [pendingEvents, Option.map_map]
  congr 1
  funext group
  exact ComponentEvent.separate_flag.pending_set event

namespace Omx

def Call.mail (component : Component) : Call → Option (Mailbox.Event ComponentEvent)
  | .flagsCreate other => if other = component then some .opened else none
  | .wait other event =>
      if other = component then some (.take {event, .error}) else none
  | .flagsDelete other => if other = component then some .closed else none
  | _ => none

/-- What a step does to the group of a component. -/
def State.mail (component : Component) (s : State) :
    Label → Option (Mailbox.Event ComponentEvent)
  | .call .failed => none
  | .call (.returned _) => s.calls.head?.bind (Call.mail component)
  | .answer index =>
      s.outstanding[index]?.bind fun request =>
        if request.component = component then some (.put request.order.completion)
        else none
  | .callback other notice =>
      if other = component then notice.wakes.map .put else none

abbrev State.box (s : State) (component : Component) : Option (Set ComponentEvent) :=
  pendingEvents (s.flags.get component)

theorem State.box_deliver (s : State) (component other : Component)
    (notice : Callback) :
    runFrom Mailbox.step (s.box component)
        (if other = component then notice.wakes.map .put else none).toList =
      some ((s.deliver other notice).box component) := by
  rw [State.box, State.box, State.get_flags_deliver]
  by_cases hmine : other = component
  · subst hmine
    rw [if_pos rfl, if_pos rfl]
    unfold Callback.deliver
    cases notice.wakes with
    | none => simp
    | some event =>
        rw [pendingEvents_wake]
        simp [Mailbox.step]
  · rw [if_neg hmine, if_neg (Ne.symm hmine)]
    rfl

theorem box_perform
    {s next : State} {extra : Flags} {call : Call} (component : Component)
    (hperform : s.perform extra call = some next) :
    runFrom Mailbox.step (s.box component) (call.mail component).toList =
      some (next.box component) := by
  cases call with
  | flagsCreate other =>
      cases hperform
      rw [Call.mail, State.box, State.box, PerComponent.get_set]
      by_cases hmine : other = component
      · simp [hmine, Mailbox.step, pendingEvents, EventFlags.pending_zero]
      · simp [hmine, Ne.symm hmine]
  | flagsDelete other =>
      cases hperform
      rw [Call.mail, State.box, State.box, PerComponent.get_set]
      by_cases hmine : other = component
      · simp [hmine, Mailbox.step, pendingEvents]
      · simp [hmine, Ne.symm hmine]
  | wait other event =>
      obtain ⟨group, result, rest, hgroup, hwait, hnext⟩ :=
        perform_wait_eq_some hperform
      obtain ⟨hpending, hresult⟩ := wait_returned_eq_some_iff.mp hwait
      have hrest := (Prod.mk.inj hresult).2
      subst hnext hrest
      rw [Call.mail, State.box, State.box, PerComponent.get_set]
      by_cases hmine : other = component
      · subst hmine
        rw [if_pos rfl, if_pos rfl, hgroup]
        apply (runFrom_singleton _ _).trans
        rw [Mailbox.step_take_eq_some_iff]
        refine ⟨_, rfl, EventFlags.pending_inter_nonempty_iff.mpr hpending, ?_⟩
        rw [← ComponentEvent.separate_flag.pending_consume]
        rfl
      · rw [if_neg hmine, if_neg (Ne.symm hmine)]
        rfl
  | _ =>
      cases hperform
      rfl

/-- The group of a component is a mailbox. -/
theorem State.box_step
    {s next : State} {label : Label} (component : Component)
    (hstep : s.step label = some next) :
    runFrom Mailbox.step (s.box component) (s.mail component label).toList =
      some (next.box component) := by
  cases (Step.of_step hstep).2 with
  | failed => rfl
  | @performed call rest extra performed hcalls hperform =>
      have hbox := box_perform component hperform
      simpa [State.mail, hcalls] using hbox
  | @answered index request hrequest =>
      have hbox := s.box_deliver component request.component request.order.callback
      rw [Order.wakes_callback, Option.map_some] at hbox
      simpa [State.mail, hrequest] using hbox
  | calledBack => exact s.box_deliver component _ _

theorem step_wait
    {s : State} {component : Component} {event : ComponentEvent} {rest : List Call}
    (hrunning : s.exitCode = none)
    (hcalls : s.calls = .wait component event :: rest) (extra : Flags) :
    s.step (.call (.returned extra)) =
      (s.flags.get component).bind fun group =>
        (wait group event.flag (.returned extra)).map fun (result, left) =>
          { s with
            calls := rest
            flags := s.flags.set component (some left)
            exitCode := result.exitCode } := by
  simp only [State.step, hrunning, hcalls, State.perform]
  cases s.flags.get component with
  | none => rfl
  | some group => simp [Option.map_map, Function.comp_def]

theorem wait_returns_iff
    {s : State} {component : Component} {event : ComponentEvent} {rest : List Call}
    (hrunning : s.exitCode = none)
    (hcalls : s.calls = .wait component event :: rest) (extra : Flags) :
    (∃ next, s.step (.call (.returned extra)) = some next) ↔
      Pending (s.flags.get component) event ∨
        Pending (s.flags.get component) .error := by
  rw [step_wait hrunning hcalls, ← Option.isSome_iff_exists]
  cases s.flags.get component with
  | none => simp [Pending]
  | some group =>
      have hblocked : wait group event.flag (.returned extra) ≠ none ↔ _ :=
        not_congr wait_eq_none_iff
      rw [Option.bind_some, Option.isSome_map, ← Option.ne_none_iff_isSome]
      simp only [Pending, Option.some.injEq, exists_eq_left']
      rw [← EventFlags.and_or_ne_zero_iff]
      exact hblocked

theorem wait_exits_iff
    {s next : State} {component : Component} {event : ComponentEvent}
    {rest : List Call} {extra : Flags}
    (hcalls : s.calls = .wait component event :: rest) (hne : event ≠ .error)
    (hstep : s.step (.call (.returned extra)) = some next) :
    next.exitCode = some 1 ↔
      ¬ Pending (s.flags.get component) event ∧
        extra &&& ~~~ComponentEvent.error.flag = 0 := by
  have hrunning := (Step.of_step hstep).1
  have hreturned := (wait_returns_iff hrunning hcalls extra).mp ⟨next, hstep⟩
  rw [step_wait hrunning hcalls] at hstep
  obtain ⟨group, hgroup, hwaited⟩ := Option.bind_eq_some_iff.mp hstep
  obtain ⟨⟨result, left⟩, hwait, hnext⟩ := Option.map_eq_some_iff.mp hwaited
  have hresult := (Prod.mk.inj (wait_returned_eq_some_iff.mp hwait).2).1
  subst hnext hresult
  simp only [hgroup, Pending, Option.some.injEq, exists_eq_left'] at hreturned ⊢
  by_cases hpending : group &&& event.flag = 0
  · have herror : ErrorDelivery.ErrorPending group :=
      hreturned.resolve_left (not_not_intro hpending)
    rw [ErrorDelivery.afterGet_exits_iff herror, hpending]
    simp
  · have hreturns := afterGet_returns hne (event.pending_eq hpending) extra
    simp only [hreturns, reduceCtorEq, false_iff, not_and]
    exact fun hnone => absurd hpending hnone

end Omx

namespace Whole

open Omx (DeviceReport)

def State.mail (component : Component) (s : State) (label : Label) (_ : State) :
    Option (Mailbox.Event ComponentEvent) :=
  match label with
  | .server _ => none
  | .call tid outcome => (s.session (s.calls tid)).mail component (.call outcome)
  | .answer index => (s.session []).mail component (.answer index)
  | .callback other notice => (s.session []).mail component (.callback other notice)

theorem functionCalls_subset_session (report : DeviceReport) (pc : StreamPc) :
    functionCalls report pc ⊆ (Omx.Session.mk report 1).calls := by
  intro call hcall
  simp only [Omx.Session.calls, Omx.Session.callsAfterInit, List.mem_append]
  cases pc with
  | initializing => exact Or.inl hcall
  | filling => exact Or.inr (Or.inl (by simpa [functionCalls] using hcall))
  | deinitializing => exact Or.inr (Or.inr hcall)
  | _ => contradiction

theorem run_awaitable
    {reports : ℕ → DeviceReport} {nBufferSize : ℕ} {labels : List Label} {s : State}
    (hrun : (State.initial nBufferSize).run reports labels = some s)
    {tid : ℕ} {call : Omx.Call} (hcall : call ∈ s.calls tid) :
    call.awaitable = true := by
  obtain ⟨pc, hpc, _⟩ := run_callsInOmx hrun tid (List.ne_nil_of_mem hcall)
  have hfunction := (run_calls_suffix hrun tid pc hpc).subset hcall
  exact Omx.session_awaitable _ call (functionCalls_subset_session _ pc hfunction)

/-- What happens to the group of a component along a run. -/
def history (reports : ℕ → DeviceReport) (nBufferSize : ℕ) (labels : List Label)
    (component : Component) : List (Mailbox.Event ComponentEvent) :=
  observe (State.step reports) (State.mail component) (State.initial nBufferSize) labels

theorem box_step
    {reports : ℕ → DeviceReport} {s next : State} {label : Label}
    (component : Component) (hstep : s.step reports label = some next) :
    runFrom Mailbox.step (pendingEvents (s.flags.get component))
        (s.mail component label next).toList =
      some (pendingEvents (next.flags.get component)) := by
  cases Step.of_step hstep with
  | entered => rfl
  | moved => rfl
  | called hsession => exact Omx.State.box_step component hsession
  | answered hsession => exact Omx.State.box_step component hsession
  | calledBack hsession => exact Omx.State.box_step component hsession

theorem run_history
    {reports : ℕ → DeviceReport} {nBufferSize : ℕ} {labels : List Label} {s : State}
    (hrun : (State.initial nBufferSize).run reports labels = some s)
    (component : Component) :
    runFrom Mailbox.step none (history reports nBufferSize labels component) =
      some (pendingEvents (s.flags.get component)) := by
  have hbox : ∃ box,
      runFrom Mailbox.step none (history reports nBufferSize labels component) =
          some box ∧
        pendingEvents (s.flags.get component) = box := by
    apply runFrom_simulation
      (fun state box => pendingEvents (state.flags.get component) = box) ?_ ?_
      (fun _ _ => rfl : ∀ label ∈ labels, (fun _ => true) label = true) hrun
    · cases component <;> rfl
    · rintro state label next box rfl _ hstep
      exact ⟨_, box_step component hstep, rfl⟩
  obtain ⟨box, hruns, hsame⟩ := hbox
  rw [hsame]
  exact hruns

theorem run_pending_iff
    {reports : ℕ → DeviceReport} {nBufferSize : ℕ} {labels : List Label} {s : State}
    (hrun : (State.initial nBufferSize).run reports labels = some s)
    (component : Component) (event : ComponentEvent) :
    Pending (s.flags.get component) event ↔
      Mailbox.Holds event (history reports nBufferSize labels component) := by
  rw [← mem_pendingEvents]
  exact (Mailbox.run_holds (run_history hrun component)).2 event

/-- A `wait` returns exactly when the awaited event or an error was put into the
mailbox after `init_component` opened it, and neither taken nor lost to a closing
since; and it ends the process exactly when the awaited event was not, if nothing
but what it requested is reported.  One get at a time collects from a group and
clears what it collects, as vcos does it for several waiters too. -/
theorem waits_read_history
    {reports : ℕ → DeviceReport} {nBufferSize : ℕ} {labels : List Label} {s : State}
    (hrun : (State.initial nBufferSize).run reports labels = some s)
    (hrunning : s.server.exitCode = none) {tid : ℕ} {component : Component}
    {event : ComponentEvent} {rest : List Omx.Call}
    (hcalls : s.calls tid = .wait component event :: rest) (extra : Flags) :
    ((∃ next, s.step reports (.call tid (.returned extra)) = some next) ↔
        Mailbox.Holds event (history reports nBufferSize labels component) ∨
          Mailbox.Holds .error (history reports nBufferSize labels component)) ∧
      ∀ next, s.step reports (.call tid (.returned extra)) = some next →
        (next.server.exitCode = some 1 ↔
          ¬ Mailbox.Holds event (history reports nBufferSize labels component) ∧
            extra &&& ~~~ComponentEvent.error.flag = 0) := by
  rw [← run_pending_iff hrun, ← run_pending_iff hrun]
  constructor
  · have hreturns := Omx.wait_returns_iff (s := s.session (s.calls tid))
      hrunning hcalls extra
    apply Iff.trans ?_ hreturns
    simp [State.step]
  · intro next hstep
    obtain ⟨session, hsession, hnext⟩ := Option.map_eq_some_iff.mp hstep
    subst hnext
    have hawaitable := run_awaitable hrun (by rw [hcalls]; exact List.mem_cons_self)
    exact Omx.wait_exits_iff hcalls (of_decide_eq_true hawaitable).2 hsession

/-- The encoder reports an error before it answers the request for a frame. -/
def errorBeforeFrameOnBoard : List Label :=
  promptRun ([.main (.setup true)] ++ serveVideoRequest ⟨1, 40000⟩ ++
    initSession 0 ++ [.stream 0 .isQuit]) ++
    [.server (.stream 0 .fillStart), .call 0 (.returned 0),
      .callback .encoder (.eventHandler .error), .answer 0]

theorem errorBeforeFrameOnBoard_returns :
    ((State.initial 65536).run onBoard errorBeforeFrameOnBoard).map
        (fun s => (s.server.exitCode, s.calls 0,
          (s.step onBoard (.call 0 (.returned 0))).map fun next =>
            next.server.exitCode)) =
      some (none, [.wait .encoder .fillBufferDone], some none) := by
  decide +kernel

theorem errorBeforeFrameOnBoard_holds_frame :
    Mailbox.Holds .fillBufferDone
      (history onBoard 65536 errorBeforeFrameOnBoard .encoder) := by
  obtain ⟨s, hrun, hstate⟩ :=
    Option.map_eq_some_iff.mp errorBeforeFrameOnBoard_returns
  obtain ⟨hrunning, hwaits⟩ := Prod.mk.inj hstate
  obtain ⟨hcalls, hreturns⟩ := Prod.mk.inj hwaits
  obtain ⟨next, hstep, hnone⟩ := Option.map_eq_some_iff.mp hreturns
  have hexits := (waits_read_history hrun hrunning hcalls 0).2 next hstep
  by_contra hmissing
  have hexit := hexits.mpr ⟨hmissing, by decide⟩
  rw [hnone] at hexit
  contradiction

end Whole

end RpiUdpStream
