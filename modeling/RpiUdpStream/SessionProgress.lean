import RpiUdpStream.ComponentRules

/-!
# A session can always go on

Whatever a session has come to, its next call can be made and return: at once,
after the outstanding request is answered, or after its component has called
back with the one event that the call waits for.  So a session can be carried on
to any later place of its program.
-/

namespace RpiUdpStream

namespace Omx

open LabelledRun

/-- A step of components that keep to the handshake, or a call that does not
fail. -/
def Label.goesWell : Label → Bool
  | .call .failed => false
  | label => label.honest

/-- A callback wakes a component with every event but `emptyBufferDone`. -/
theorem exists_callback
    {event : ComponentEvent} (hne : event ≠ .emptyBufferDone) :
    ∃ callback : Callback, callback.wakes = some event := by
  cases event with
  | error => exact ⟨.eventHandler .error, rfl⟩
  | portEnable => exact ⟨.eventHandler (.cmdComplete .portEnable), rfl⟩
  | portDisable => exact ⟨.eventHandler (.cmdComplete .portDisable), rfl⟩
  | stateSet => exact ⟨.eventHandler (.cmdComplete .stateSet), rfl⟩
  | flush => exact ⟨.eventHandler (.cmdComplete .flush), rfl⟩
  | markBuffer => exact ⟨.eventHandler (.cmdComplete .markBuffer), rfl⟩
  | mark => exact ⟨.eventHandler .mark, rfl⟩
  | portSettingsChanged => exact ⟨.eventHandler .portSettingsChanged, rfl⟩
  | paramOrConfigChanged => exact ⟨.eventHandler .paramOrConfigChanged, rfl⟩
  | bufferFlag => exact ⟨.eventHandler .bufferFlag, rfl⟩
  | resourcesAcquired => exact ⟨.eventHandler .resourcesAcquired, rfl⟩
  | dynamicResourcesAvailable =>
      exact ⟨.eventHandler .dynamicResourcesAvailable, rfl⟩
  | fillBufferDone => exact ⟨.fillBufferDone, rfl⟩
  | emptyBufferDone => contradiction

/-! ## The events that are waited for -/

/-- No call waits for an error, or for the event that no callback wakes with. -/
def Call.awaitable : Call → Bool
  | .wait _ event => decide (event ≠ .emptyBufferDone ∧ event ≠ .error)
  | _ => true

theorem awaitable_of_visitsPorts
    {component : Component} {call : Call} (hvisits : call.visitsPorts component) :
    call.awaitable = true := by
  cases call with
  | wait visited event =>
      obtain ⟨_, hevent⟩ := hvisits
      rw [hevent]
      rfl
  | _ => rfl

theorem session_awaitable (session : Session) :
    ∀ call ∈ session.calls, call.awaitable = true := by
  have hstart : ∀ call ∈ startComponents, call.awaitable = true := by decide
  have hframe : ∀ call ∈ fillFrameBuffer, call.awaitable = true := by decide
  have hend : ∀ call ∈ omxH264Deinit, call.awaitable = true := by decide
  intro call hcall
  simp only [Session.calls, omxH264Init, Session.callsAfterInit,
    List.mem_append] at hcall
  rcases hcall with (hinit | hstarted) | hframes | hended
  · exact forall_mem_initComponents (p := fun call => call.awaitable = true) rfl rfl
      (fun _ => rfl) (fun _ => rfl) (fun _ _ => rfl)
      (fun _ _ hvisits => awaitable_of_visitsPorts hvisits) call hinit
  · exact hstart call hstarted
  · obtain ⟨calls, hcalls, hmem⟩ := List.mem_flatten.mp hframes
    rw [(List.mem_replicate.mp hcalls).2] at hmem
    exact hframe call hmem
  · exact hend call hended

theorem run_awaitable
    {sessions : List Session} {s : State} {sync : Sync} {call : Call}
    {rest : List Call} (hfollows : Follows (sessions.flatMap Session.calls) s sync)
    (hcalls : s.calls = call :: rest) : call.awaitable = true := by
  obtain ⟨executed, hsplit, _⟩ := hfollows
  have hmem : call ∈ sessions.flatMap Session.calls := by
    rw [hsplit, hcalls]
    simp
  obtain ⟨session, _, hsession⟩ := List.mem_flatMap.mp hmem
  exact session_awaitable session call hsession

/-! ## One call -/

theorem exists_perform
    (s : State) {call : Call} (hwait : ∀ component event, call ≠ .wait component event) :
    ∃ next, s.perform 0 call = some next ∧ next.exitCode = s.exitCode := by
  cases call with
  | wait component event => exact absurd rfl (hwait component event)
  | _ => exact ⟨_, rfl, rfl⟩

theorem returns_of_pending
    {s : State} {component : Component} {event : ComponentEvent} {flags : Flags}
    {rest : List Call} (hrunning : s.exitCode = none)
    (hcalls : s.calls = .wait component event :: rest)
    (hflags : s.flags.get component = some flags) (hne : event ≠ .error)
    (hpending : flags &&& event.flag = event.flag) : Returns s := by
  intro extra
  cases hwait : wait flags event.flag (.returned extra) with
  | none =>
      exact absurd (wait_eq_none_iff.mp hwait)
        (EventFlags.and_or_ne_zero hpending event.flag_ne_zero)
  | some result =>
      have hresult := (wait_returned_eq_some_iff.mp hwait).2
      have hreturns : result.1.exitCode = none := by
        rw [hresult]
        exact afterGet_returns hne hpending extra
      refine ⟨{ s with
        calls := rest
        flags := s.flags.set component (some result.2)
        exitCode := result.1.exitCode }, ?_, hreturns⟩
      simp [State.step, hrunning, hcalls, State.perform, hflags, hwait]

/-- A wait for an event that completes no request returns once its component
has called back with it. -/
theorem exists_notice
    {s : State} {component : Component} {event : ComponentEvent} {flags : Flags}
    {rest : List Call} (hrunning : s.exitCode = none)
    (hcalls : s.calls = .wait component event :: rest)
    (hflags : s.flags.get component = some flags)
    (hheld : s.setup.handle component = .held)
    (hnotice : event.isCompletion = false) (herror : event ≠ .error)
    (hwakeable : event ≠ .emptyBufferDone) :
    ∃ callback, Label.goesWell (.callback component callback) = true ∧
      s.step (.callback component callback) = some (s.deliver component callback) ∧
        Returns (s.deliver component callback) := by
  obtain ⟨callback, hwakes⟩ := exists_callback hwakeable
  have hcallback : s.step (.callback component callback) =
      some (s.deliver component callback) := by
    simp [State.step, hrunning, hheld]
  have hdelivered : (s.deliver component callback).flags.get component =
      some (wake flags event) := by
    rw [State.get_flags_deliver, if_pos rfl, hflags]
    simp [Callback.deliver, hwakes]
  refine ⟨callback, ?_, hcallback, ?_⟩
  · simp [Label.goesWell, Label.honest, Callback.unsolicited, hwakes, hnotice,
      herror]
  · exact returns_of_pending hrunning hcalls hdelivered herror
      EventFlags.set_and_self

/-- The next call of a session returns, once its component has done its part. -/
theorem exists_advance
    {sessions : List Session} {labels : List Label} {s : State}
    (hcovers : ∀ session ∈ sessions, session.report.Covers)
    (hhonest : ∀ label ∈ labels, label.honest = true)
    (hrun : (State.initial sessions).run labels = some s)
    (hrunning : s.exitCode = none) {call : Call} {rest : List Call}
    (hcalls : s.calls = call :: rest) :
    ∃ more next, (∀ label ∈ more, label.goesWell = true) ∧
      s.run more = some next ∧ next.exitCode = none ∧ next.calls = rest := by
  have hreturns : ∀ {waiting : State} {before : List Label},
      (∀ label ∈ before, label.goesWell = true) → s.run before = some waiting →
        waiting.calls = call :: rest → Returns waiting →
          ∃ more next, (∀ label ∈ more, label.goesWell = true) ∧
            s.run more = some next ∧ next.exitCode = none ∧ next.calls = rest := by
    intro waiting before hbefore hwaiting hsame hreturns
    obtain ⟨next, hnext, hexit⟩ := hreturns 0
    refine ⟨before ++ [.call (.returned 0)], next, ?_,
      runFrom_concat_eq_some.mpr ⟨waiting, hwaiting, hnext⟩, hexit,
      calls_of_step hsame hnext hexit⟩
    intro label hlabel
    rcases List.mem_append.mp hlabel with hold | hnew
    · exact hbefore label hold
    · rw [List.mem_singleton.mp hnew]
      rfl
  by_cases hwait : ∃ component event, call = .wait component event
  · obtain ⟨component, event, heq⟩ := hwait
    subst heq
    obtain ⟨phase, _, sync, hfollows, hrefines⟩ := run_inStep hhonest hrun
    obtain ⟨_, hflagged, hwaits⟩ :=
      (hfollows.advance (run_program sessions) hcalls).1
    rw [hrefines.pending] at hwaits
    cases phase with
    | idle =>
        obtain ⟨flags, hflags, _⟩ := hrefines.get_flags hflagged
        have hheld : s.setup.handle component = .held :=
          (run_legal hcovers hhonest hrun hcalls).1
        have hwakeable : event ≠ .emptyBufferDone :=
          (of_decide_eq_true (run_awaitable hfollows hcalls)).1
        obtain ⟨callback, hwell, hcallback, hback⟩ := exists_notice hrunning hcalls
          hflags hheld hwaits.1 hwaits.2 hwakeable
        exact hreturns (by simpa using hwell) ((runFrom_singleton _ _).trans hcallback)
          hcalls hback
    | issued request =>
        obtain ⟨hcomponent, hevent⟩ := hwaits
        subst hcomponent hevent
        obtain ⟨answered, hanswer, hstill, hsame, hanswered⟩ :=
          hrefines.answerable hrunning
        exact hreturns (by simp [Label.goesWell, Label.honest])
          ((runFrom_singleton _ _).trans hanswer) (hsame.trans hcalls)
          (hanswered.returns hstill (hsame.trans hcalls))
    | answered request =>
        obtain ⟨hcomponent, hevent⟩ := hwaits
        subst hcomponent hevent
        exact hreturns (by simp) (runFrom_nil s) hcalls
          (hrefines.returns hrunning hcalls)
  · push Not at hwait
    obtain ⟨next, hperform, hexit⟩ := exists_perform s hwait
    have hstep : s.step (.call (.returned 0)) = some { next with calls := rest } := by
      simp only [State.step, hrunning, hcalls, hperform]
      rfl
    refine ⟨[.call (.returned 0)], { next with calls := rest }, ?_,
      (runFrom_singleton _ _).trans hstep, hexit.trans hrunning, rfl⟩
    simp [Label.goesWell, Label.honest]

/-! ## The rest of the session -/

theorem honest_of_goesWell {label : Label} (hwell : label.goesWell = true) :
    label.honest = true := by
  cases label with
  | call outcome => rfl
  | answer index => rfl
  | callback component callback => exact hwell

/-- A session can be carried on to any later place of its program. -/
theorem exists_run_to
    {sessions : List Session} {labels : List Label} {s : State}
    (hcovers : ∀ session ∈ sessions, session.report.Covers)
    (hhonest : ∀ label ∈ labels, label.honest = true)
    (hrun : (State.initial sessions).run labels = some s)
    (hrunning : s.exitCode = none) {before after : List Call}
    (hcalls : s.calls = before ++ after) :
    ∃ more last, (∀ label ∈ more, label.goesWell = true) ∧
      s.run more = some last ∧ last.exitCode = none ∧ last.calls = after := by
  induction before generalizing s labels with
  | nil => exact ⟨[], s, by simp, rfl, hrunning, hcalls⟩
  | cons call rest ih =>
      obtain ⟨first, next, hfirst, hnext, hstill, hrest⟩ :=
        exists_advance hcovers hhonest hrun hrunning hcalls
      have hboth : ∀ label ∈ labels ++ first, label.honest = true := by
        intro label hlabel
        rcases List.mem_append.mp hlabel with hold | hnew
        · exact hhonest label hold
        · exact honest_of_goesWell (hfirst label hnew)
      obtain ⟨others, last, hothers, hlast, hend, hafter⟩ :=
        ih hboth (runFrom_append_eq_some.mpr ⟨s, hrun, hnext⟩) hstill hrest
      refine ⟨first ++ others, last, ?_,
        runFrom_append_eq_some.mpr ⟨next, hnext, hlast⟩, hend, hafter⟩
      intro label hlabel
      exact (List.mem_append.mp hlabel).elim (hfirst label) (hothers label)

end Omx

end RpiUdpStream
