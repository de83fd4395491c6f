import RpiUdpStream.SessionRefinement

/-!
# The handshake of the session thread with its components

At most one request is outstanding, every wait for a completion returns only
after the request made before it was answered, and none of these waits is
blocked for ever.
-/

namespace RpiUdpStream

namespace Omx

open LabelledRun

theorem run_inStep
    {sessions : List Session} {labels : List Label} {s : State}
    (hhonest : ∀ label ∈ labels, label.honest = true)
    (hrun : (State.initial sessions).run labels = some s) :
    ∃ phase,
      runFrom Handshake.step .idle
          (observe State.step State.shows (State.initial sessions) labels) =
        some phase ∧ InStep (sessions.flatMap Session.calls) s phase := by
  apply runFrom_simulation
    (InStep (sessions.flatMap Session.calls)) ?_ ?_ hhonest hrun
  · exact ⟨.initial, follows_initial sessions, refines_initial sessions⟩
  · intro state label next phase hinv hlabel hstep
    exact hinv.step (run_program sessions) hlabel hstep

theorem Handshake.length_outstanding_le_one (phase : Handshake) :
    phase.outstanding.length ≤ 1 := by
  cases phase <;> simp [Handshake.outstanding]

def Returns (s : State) : Prop :=
  ∀ extra, ∃ next, s.step (.call (.returned extra)) = some next ∧
    next.exitCode = none

theorem Refines.returns
    {s : State} {sync : Sync} {request : Request} {rest : List Call}
    (hrefines : Refines s sync (.answered request))
    (hrunning : s.exitCode = none)
    (hcalls : s.calls =
      .wait request.component request.order.completion :: rest) :
    Returns s := by
  intro extra
  rcases hrefines.completion_pending with ⟨flags, hflags, _, hfound⟩
  cases hwait : wait flags request.order.completion.flag (.returned extra) with
  | none =>
      exact absurd (wait_eq_none_iff.mp hwait)
        (EventFlags.and_or_ne_zero hfound request.order.completion.flag_ne_zero)
  | some result =>
      have hperform : ∃ next, s.perform extra
          (.wait request.component request.order.completion) = some next := by
        simp [State.perform, hflags, hwait]
      rcases hperform with ⟨next, hnext⟩
      have hreturns := (hrefines.waitCompletion hrefines.pending hnext).2.1
      refine ⟨{ next with calls := rest }, ?_, hreturns⟩
      simp [State.step, hrunning, hcalls, hnext]

theorem Refines.answerable
    {s : State} {sync : Sync} {request : Request}
    (hrefines : Refines s sync (.issued request)) (hrunning : s.exitCode = none) :
    ∃ answered, s.step (.answer 0) = some answered ∧
      answered.exitCode = none ∧ answered.calls = s.calls ∧
      Refines answered sync (.answered request) := by
  have hfirst : s.outstanding[0]? = some request := by
    rw [hrefines.outstanding]
    rfl
  have hheld : s.setup.handle request.component ≠ .freed := by
    rw [hrefines.setup]
    simp [Handshake.carryOut, (hrefines.live request rfl).2.1]
  have hstep : s.step (.answer 0) =
      some { s.deliver request.component request.order.callback with
        setup := request.carryOut s.setup
        outstanding := s.outstanding.eraseIdx 0 } := by
    simp [State.step, hrunning, hfirst, hheld]
  exact ⟨_, hstep, hrunning, rfl, (hrefines.answer hfirst).2⟩

/-- One session handshake after the other.  Whatever ports the components report
and in whatever order they call back, answering each request once and reporting
neither errors nor completions besides, at most one request is outstanding, the
requests, answers and returning waits follow the handshake, and a wait for a
completion returns at once or as soon as the one outstanding request is
answered. -/
theorem handshake_sound
    {sessions : List Session} {labels : List Label} {s : State}
    (hhonest : ∀ label ∈ labels, label.honest = true)
    (hrun : (State.initial sessions).run labels = some s) :
    s.outstanding.length ≤ 1 ∧
      (∃ phase, runFrom Handshake.step .idle
        (observe State.step State.shows (State.initial sessions) labels) =
          some phase) ∧
      ∀ component event rest, s.exitCode = none →
        s.calls = .wait component event :: rest → event.isCompletion = true →
          Returns s ∨
            ∃ request answered, s.outstanding = [request] ∧
              request.component = component ∧
              request.order.completion = event ∧
              s.step (.answer 0) = some answered ∧ Returns answered := by
  rcases run_inStep hhonest hrun with ⟨phase, hevents, sync, hfollows, hrefines⟩
  refine ⟨?_, ⟨phase, hevents⟩, ?_⟩
  · rw [hrefines.outstanding]
    exact phase.length_outstanding_le_one
  · intro component event rest hrunning hcalls hcompletion
    rcases hfollows.advance (run_program sessions) hcalls with ⟨⟨_, _, hwaits⟩, _⟩
    cases phase with
    | idle =>
        rw [hrefines.pending] at hwaits
        rw [hwaits.1] at hcompletion
        contradiction
    | answered request =>
        rw [hrefines.pending] at hwaits
        rcases hwaits with ⟨hcomponent, hevent⟩
        subst hcomponent hevent
        exact Or.inl (hrefines.returns hrunning hcalls)
    | issued request =>
        rw [hrefines.pending] at hwaits
        rcases hwaits with ⟨hcomponent, hevent⟩
        subst hcomponent hevent
        right
        obtain ⟨answered, hanswer, hstill, hsame, hanswered⟩ :=
          hrefines.answerable hrunning
        exact ⟨request, answered, hrefines.outstanding, rfl, rfl, hanswer,
          hanswered.returns hstill (hsame.trans hcalls)⟩

def boardRun : List Label :=
  (boardSession 1).calls.flatMap Call.served

theorem boardRun_handshake :
    (((State.initial [boardSession 1]).run boardRun).get
      (by decide +kernel)).outstanding.length ≤ 1 :=
  (handshake_sound (by decide +kernel) (Option.some_get _).symm).1

end Omx

end RpiUdpStream
