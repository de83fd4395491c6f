import RpiUdpStream.OmxSession
import RpiUdpStream.ServerSteps

/-!
# The server together with the components

The machine of the server and the machine of a session, put together.  A stream
thread that enters `omx_h264_init`, `fill_frame_buffer` or `omx_h264_deinit` has
the calls of that function to make, returns when it has made them all, and makes
them on components, flag groups and a buffer that all threads share.  A failed
call, or a `wait` that collects an error, ends the process.

Leaving the components out, the whole program is the server.
-/

namespace RpiUdpStream

namespace Whole

open LabelledRun
open Omx (DeviceReport)

/-- `calls` are the calls that a thread has still to make in the function of
`h264.cpp` that it is in. -/
structure State where
  server : RpiUdpStream.State
  setup : Omx.Setup
  flags : PerComponent (Option Flags)
  outstanding : List Omx.Request
  calls : ℕ → List Omx.Call

def State.initial (nBufferSize : ℕ) : State where
  server := .initial nBufferSize
  setup := .initial
  flags := .const none
  outstanding := []
  calls := fun _ => []

/-- A step of the server outside the calls to OpenMAX, a call of a thread, the
answer to a request, or another callback. -/
inductive Label where
  | server (label : RpiUdpStream.Label)
  | call (tid : ℕ) (outcome : CallOutcome)
  | answer (index : ℕ)
  | callback (component : Component) (callback : Callback)
  deriving DecidableEq

/-- The calls of the function that an action enters.  `report` is what the
components report in the session of the thread. -/
def enteredCalls (report : DeviceReport) : StreamAction → Option (List Omx.Call)
  | .initStart => some (Omx.omxH264Init report)
  | .fillStart => some Omx.fillFrameBuffer
  | .deinitStart => some Omx.omxH264Deinit
  | _ => none

/-- The returns from the functions of `h264.cpp`. -/
def returns : StreamAction → Bool
  | .initEnd | .fillEnd _ | .deinitEnd => true
  | _ => false

/-- The session that makes the given calls on the shared components. -/
def State.session (s : State) (calls : List Omx.Call) : Omx.State where
  calls := calls
  setup := s.setup
  flags := s.flags
  outstanding := s.outstanding
  exitCode := s.server.exitCode

def State.afterSession (s : State) (session : Omx.State) : State :=
  { s with
    server := { s.server with exitCode := session.exitCode }
    setup := session.setup
    flags := session.flags
    outstanding := session.outstanding }

def State.serverStep (reports : ℕ → DeviceReport) (s : State)
    (label : RpiUdpStream.Label) : Option State :=
  match label with
  | .stream tid action =>
      if action = .omxError ∨ (returns action = true ∧ s.calls tid ≠ []) then none
      else
        (s.server.step label).map fun server =>
          { s with
            server := server
            calls := Function.update s.calls tid
              ((enteredCalls (reports tid) action).getD (s.calls tid)) }
  | label => (s.server.step label).map fun server => { s with server := server }

def State.step (reports : ℕ → DeviceReport) (s : State) : Label → Option State
  | .server label => s.serverStep reports label
  | .call tid outcome =>
      ((s.session (s.calls tid)).step (.call outcome)).map fun session =>
        { s.afterSession session with
          calls := Function.update s.calls tid session.calls }
  | .answer index => ((s.session []).step (.answer index)).map s.afterSession
  | .callback component callback =>
      ((s.session []).step (.callback component callback)).map s.afterSession

abbrev State.run (reports : ℕ → DeviceReport) (s : State) (labels : List Label) :
    Option State :=
  runFrom (State.step reports) s labels

/-! ## What one step can do -/

inductive Step (reports : ℕ → DeviceReport) (s : State) : Label → State → Prop where
  | entered {tid : ℕ} {action : StreamAction} {calls : List Omx.Call}
      {server : RpiUdpStream.State}
      (hcalls : enteredCalls (reports tid) action = some calls)
      (hserver : s.server.step (.stream tid action) = some server) :
      Step reports s (.server (.stream tid action))
        { s with
          server := server
          calls := Function.update s.calls tid calls }
  | moved {label : RpiUdpStream.Label} {server : RpiUdpStream.State}
      (hmoved : ∀ tid action, label = .stream tid action →
        action ≠ .omxError ∧ enteredCalls (reports tid) action = none ∧
          (returns action = true → s.calls tid = []))
      (hserver : s.server.step label = some server) :
      Step reports s (.server label) { s with server := server }
  | called {tid : ℕ} {outcome : CallOutcome} {session : Omx.State}
      (hsession : (s.session (s.calls tid)).step (.call outcome) = some session) :
      Step reports s (.call tid outcome)
        { s.afterSession session with
          calls := Function.update s.calls tid session.calls }
  | answered {index : ℕ} {session : Omx.State}
      (hsession : (s.session []).step (.answer index) = some session) :
      Step reports s (.answer index) (s.afterSession session)
  | calledBack {component : Component} {callback : Callback} {session : Omx.State}
      (hsession : (s.session []).step (.callback component callback) =
        some session) :
      Step reports s (.callback component callback) (s.afterSession session)

theorem Step.of_step
    {reports : ℕ → DeviceReport} {s next : State} {label : Label}
    (hstep : s.step reports label = some next) : Step reports s label next := by
  cases label with
  | server label =>
      cases label with
      | stream tid action =>
          simp only [State.step, State.serverStep, Option.ite_none_left_eq_some,
            Option.map_eq_some_iff] at hstep
          rcases hstep with ⟨hallowed, server, hserver, rfl⟩
          push Not at hallowed
          cases hentered : enteredCalls (reports tid) action with
          | some calls => exact .entered hentered hserver
          | none =>
              rw [Option.getD_none, Function.update_eq_self]
              apply Step.moved ?_ hserver
              intro mover moving heq
              cases heq
              exact ⟨hallowed.1, hentered, hallowed.2⟩
      | tick now =>
          rcases Option.map_eq_some_iff.mp hstep with ⟨server, hserver, rfl⟩
          exact .moved (by simp) hserver
      | main action =>
          rcases Option.map_eq_some_iff.mp hstep with ⟨server, hserver, rfl⟩
          exact .moved (by simp) hserver
  | call tid outcome =>
      rcases Option.map_eq_some_iff.mp hstep with ⟨session, hsession, rfl⟩
      exact .called hsession
  | answer index =>
      rcases Option.map_eq_some_iff.mp hstep with ⟨session, hsession, rfl⟩
      exact .answered hsession
  | callback component callback =>
      rcases Option.map_eq_some_iff.mp hstep with ⟨session, hsession, rfl⟩
      exact .calledBack hsession

/-! ## A session ends the process only with code 1 -/

theorem exitCode_of_call
    {s next : Omx.State} {outcome : CallOutcome}
    (hstep : s.step (.call outcome) = some next) :
    s.exitCode = none ∧ s.calls ≠ [] ∧
      (next.exitCode = none ∨ next.exitCode = some 1) := by
  rcases Omx.Step.of_step hstep with ⟨hrunning, hstep⟩
  refine ⟨hrunning, ?_⟩
  cases hstep with
  | failed hcalls hchecked => exact ⟨by simp [hcalls], Or.inr rfl⟩
  | @performed call rest extra performed hcalls hperform =>
      refine ⟨by simp [hcalls], ?_⟩
      change performed.exitCode = none ∨ performed.exitCode = some 1
      cases call with
      | wait component event =>
          simp only [Omx.State.perform, Option.bind_eq_some_iff,
            Option.map_eq_some_iff] at hperform
          rcases hperform with ⟨flags, _, ⟨result, remaining⟩, hwait, rfl⟩
          rcases wait_returned_eq_some_iff.mp hwait with ⟨_, hresult⟩
          rw [(Prod.mk.inj hresult).1]
          unfold afterGet
          split
          · exact Or.inr rfl
          · exact Or.inl rfl
      | _ =>
          cases hperform
          exact Or.inl hrunning

theorem exitCode_of_component
    {s next : Omx.State} {label : Omx.Label}
    (hcomponent : ∀ outcome, label ≠ .call outcome)
    (hstep : s.step label = some next) :
    s.exitCode = none ∧ next.exitCode = none ∧ next.calls = s.calls := by
  rcases Omx.Step.of_step hstep with ⟨hrunning, hstep⟩
  cases hstep with
  | failed => exact absurd rfl (hcomponent _)
  | performed => exact absurd rfl (hcomponent _)
  | answered => exact ⟨hrunning, hrunning, rfl⟩
  | calledBack => exact ⟨hrunning, hrunning, rfl⟩

/-! ## The whole program refines the server -/

/-- The step of the server that a step of the whole program shows. -/
def State.shows (s : State) (label : Label) (next : State) :
    Option RpiUdpStream.Label :=
  match label with
  | .server label => some label
  | .call tid _ =>
      if next.server.exitCode = s.server.exitCode then none
      else some (.stream tid .omxError)
  | .answer _ | .callback _ _ => none

def serverLabels (reports : ℕ → DeviceReport) (nBufferSize : ℕ)
    (labels : List Label) : List RpiUdpStream.Label :=
  observe (State.step reports) State.shows (State.initial nBufferSize) labels

/-- A thread that has calls to make is in a function of `h264.cpp`. -/
def CallsInOmx (s : State) : Prop :=
  ∀ tid, s.calls tid ≠ [] →
    ∃ pc, s.server.pcOf tid = some pc ∧ pc.inOmxCall = true

theorem PcMove.inOmxCall_of_enteredCalls
    {s : RpiUdpStream.State} {pc pc' : StreamPc} {action : StreamAction}
    {report : DeviceReport} {calls : List Omx.Call}
    (hmove : PcMove s pc action pc') (hcalls : enteredCalls report action = some calls) :
    pc'.inOmxCall = true := by
  cases hmove <;> first | rfl | contradiction

theorem PcMove.returns_of_inOmxCall
    {s : RpiUdpStream.State} {pc pc' : StreamPc} {action : StreamAction}
    (hmove : PcMove s pc action pc') (hin : pc.inOmxCall = true) :
    returns action = true := by
  cases hmove <;> first | rfl | contradiction

theorem CallsInOmx.server
    {s : State} {server : RpiUdpStream.State} {label : RpiUdpStream.Label}
    (hinv : CallsInOmx s) (hserver : RpiUdpStream.Step s.server label server)
    {tid : ℕ} (hcalls : s.calls tid ≠ [])
    (hmoved : ∀ action, label = .stream tid action →
      action = .sendto false ∨ action = .omxError ∨ returns action = false) :
    ∃ pc, server.pcOf tid = some pc ∧ pc.inOmxCall = true := by
  rcases hinv tid hcalls with ⟨pc, hpc, hin⟩
  by_cases hmine : ∃ action, label = .stream tid action
  · rcases hmine with ⟨action, rfl⟩
    rcases hserver.stream_cases with
      ⟨before, after, hbefore, hafter, hmove⟩ | ⟨_, _, hthreads, _⟩
    · rw [hpc] at hbefore
      cases hbefore
      have hreturns := PcMove.returns_of_inOmxCall hmove hin
      rcases hmoved action rfl with rfl | rfl | hstays
      · contradiction
      · contradiction
      · rw [hreturns] at hstays
        contradiction
    · refine ⟨pc, ?_, hin⟩
      unfold RpiUdpStream.State.pcOf
      rw [hthreads]
      exact hpc
  · push Not at hmine
    rcases hserver.pcOf_of_other hmine with hsame | ⟨hnone, _⟩
    · exact ⟨pc, hsame.trans hpc, hin⟩
    · rw [hnone] at hpc
      contradiction

theorem CallsInOmx.step
    {reports : ℕ → DeviceReport} {s next : State} {label : Label}
    (hinv : CallsInOmx s) (hstep : Step reports s label next) :
    CallsInOmx next := by
  intro tid hcalls
  cases hstep with
  | @entered mover action calls server hentered hserver =>
      have hserverStep := (RpiUdpStream.Step.of_step hserver).2
      by_cases hmine : tid = mover
      · subst hmine
        rcases hserverStep.stream_cases with
          ⟨pc, pc', _, hpc', hmove⟩ | ⟨hfails, _⟩
        · exact ⟨pc', hpc', PcMove.inOmxCall_of_enteredCalls hmove hentered⟩
        · rcases hfails with rfl | rfl <;> contradiction
      · have hold : s.calls tid ≠ [] := by
          simpa [Function.update_of_ne hmine] using hcalls
        apply hinv.server hserverStep hold
        intro other heq
        cases heq
        exact absurd rfl hmine
  | @moved label server hmoved hserver =>
      apply hinv.server (RpiUdpStream.Step.of_step hserver).2 hcalls
      intro action heq
      rcases hmoved tid action heq with ⟨_, _, hreturned⟩
      right
      right
      by_contra hreturns
      exact hcalls (hreturned (by simpa using hreturns))
  | @called mover outcome session hsession =>
      by_cases hmine : tid = mover
      · subst hmine
        exact hinv tid (exitCode_of_call hsession).2.1
      · apply hinv tid
        simpa [Function.update_of_ne hmine] using hcalls
  | answered hsession => exact hinv tid hcalls
  | calledBack hsession => exact hinv tid hcalls

theorem step_omxError
    {s : RpiUdpStream.State} {tid : ℕ} {pc : StreamPc}
    (hrunning : s.exitCode = none) (hpc : s.pcOf tid = some pc)
    (hin : pc.inOmxCall = true) :
    s.step (.stream tid .omxError) = some { s with exitCode := some 1 } := by
  rcases Option.map_eq_some_iff.mp hpc with ⟨thread, hthread, rfl⟩
  have hstream : s.streamStep tid thread .omxError =
      some { s with exitCode := some 1 } := by
    unfold RpiUdpStream.State.streamStep
    simp [hin]
  simp only [RpiUdpStream.State.step, hrunning, hthread, hstream]
  rfl

theorem Step.server
    {reports : ℕ → DeviceReport} {s next : State} {label : Label}
    (hinv : CallsInOmx s) (hstep : Step reports s label next) :
    runFrom RpiUdpStream.State.step s.server (s.shows label next).toList =
      some next.server := by
  cases hstep with
  | entered hcalls hserver => exact (runFrom_singleton _ _).trans hserver
  | moved hmoved hserver => exact (runFrom_singleton _ _).trans hserver
  | @called tid outcome session hsession =>
      obtain ⟨hrunning, hcalls, hexit⟩ := exitCode_of_call hsession
      have hserver : s.server.exitCode = none := hrunning
      rcases hexit with hnone | hone
      · have hsame : { s.server with exitCode := session.exitCode } = s.server := by
          rw [hnone, ← hserver]
        simp only [State.shows, State.afterSession, hsame]
        simp
      · rcases hinv tid hcalls with ⟨pc, hpc, hin⟩
        simp only [State.shows, State.afterSession, hone, hserver]
        exact (runFrom_singleton _ _).trans (step_omxError hserver hpc hin)
  | answered hsession =>
      obtain ⟨hrunning, hnone, _⟩ := exitCode_of_component (by simp) hsession
      have hsame : s.server.exitCode = none := hrunning
      simp [State.shows, State.afterSession, hnone, ← hsame]
  | calledBack hsession =>
      obtain ⟨hrunning, hnone, _⟩ := exitCode_of_component (by simp) hsession
      have hsame : s.server.exitCode = none := hrunning
      simp [State.shows, State.afterSession, hnone, ← hsame]

theorem run_callsInOmx
    {reports : ℕ → DeviceReport} {nBufferSize : ℕ} {labels : List Label} {s : State}
    (hrun : (State.initial nBufferSize).run reports labels = some s) :
    CallsInOmx s := by
  apply runFrom_invariant CallsInOmx ?_ ?_ hrun
  · exact fun tid hcalls => absurd rfl hcalls
  · intro state label next hinv hstep
    exact hinv.step (Step.of_step hstep)

/-- Every run of the whole program shows a run of the server to the same state
of the server, whatever the components do. -/
theorem run_server
    {reports : ℕ → DeviceReport} {nBufferSize : ℕ} {labels : List Label} {s : State}
    (hrun : (State.initial nBufferSize).run reports labels = some s) :
    (RpiUdpStream.State.initial nBufferSize).run
      (serverLabels reports nBufferSize labels) = some s.server := by
  have hserver : ∃ server,
      runFrom RpiUdpStream.State.step (RpiUdpStream.State.initial nBufferSize)
          (serverLabels reports nBufferSize labels) = some server ∧
        s.server = server ∧ CallsInOmx s := by
    apply runFrom_simulation
      (fun state server => state.server = server ∧ CallsInOmx state) ?_ ?_
      (fun _ _ => rfl : ∀ label ∈ labels, (fun _ => true) label = true) hrun
    · exact ⟨rfl, fun tid hcalls => absurd rfl hcalls⟩
    · rintro state label next server ⟨rfl, hinv⟩ _ hstep
      have hnext := Step.of_step hstep
      exact ⟨next.server, hnext.server hinv, rfl, hinv.step hnext⟩
  rcases hserver with ⟨server, hserver, rfl, _⟩
  exact hserver

/-- The calls of the function of `h264.cpp` that a thread is in. -/
def functionCalls (report : DeviceReport) : StreamPc → List Omx.Call
  | .initializing => Omx.omxH264Init report
  | .filling => Omx.fillFrameBuffer
  | .deinitializing => Omx.omxH264Deinit
  | _ => []

theorem PcMove.entered_functionCalls
    {s : RpiUdpStream.State} {pc pc' : StreamPc} {action : StreamAction}
    {report : DeviceReport} {calls : List Omx.Call}
    (hmove : PcMove s pc action pc')
    (hcalls : enteredCalls report action = some calls) :
    calls = functionCalls report pc' := by
  cases hmove <;> first | exact (Option.some.inj hcalls).symm | contradiction

theorem functionCalls_of_not_inOmxCall
    {report : DeviceReport} {pc : StreamPc} (hout : pc.inOmxCall = false) :
    functionCalls report pc = [] := by
  cases pc <;> first | rfl | contradiction

theorem calls_suffix_of_call
    {s next : Omx.State} {outcome : CallOutcome}
    (hstep : s.step (.call outcome) = some next) : next.calls <:+ s.calls := by
  cases (Omx.Step.of_step hstep).2 with
  | failed => exact List.suffix_refl _
  | performed hcalls =>
      rw [hcalls]
      exact List.suffix_cons _ _

/-- What a thread has still to call ends the function that it is in. -/
theorem run_calls_suffix
    {reports : ℕ → DeviceReport} {nBufferSize : ℕ} {labels : List Label} {s : State}
    (hrun : (State.initial nBufferSize).run reports labels = some s) :
    ∀ tid pc, s.server.pcOf tid = some pc →
      s.calls tid <:+ functionCalls (reports tid) pc := by
  apply runFrom_traceInvariant
    (fun _ state => ∀ tid pc, state.server.pcOf tid = some pc →
      state.calls tid <:+ functionCalls (reports tid) pc) ?_ ?_ hrun
  · intro tid pc _
    exact List.nil_suffix
  · intro trace state label next htrace hinv hstep tid pc hpc
    have hcalls := run_callsInOmx htrace
    have hother : ∀ {label : RpiUdpStream.Label} {server : RpiUdpStream.State},
        RpiUdpStream.Step state.server label server →
          (∀ action, label ≠ .stream tid action) → server.pcOf tid = some pc →
            state.calls tid <:+ functionCalls (reports tid) pc := by
      intro label server hserver hmine hpc
      rcases hserver.pcOf_of_other hmine with hsame | ⟨hnone, _⟩
      · exact hinv tid pc (hsame.symm.trans hpc)
      · have hempty : state.calls tid = [] := by
          by_contra hnonempty
          obtain ⟨found, hfound, _⟩ := hcalls tid hnonempty
          rw [hnone] at hfound
          contradiction
        rw [hempty]
        exact List.nil_suffix
    cases Step.of_step hstep with
    | @entered mover action calls server hentered hserver =>
        have hserverStep := (RpiUdpStream.Step.of_step hserver).2
        change Function.update state.calls mover calls tid <:+ _
        by_cases hmine : tid = mover
        · subst hmine
          rcases hserverStep.stream_cases with
            ⟨before, after, _, hafter, hmove⟩ | ⟨hfails, _⟩
          · rw [hpc] at hafter
            cases hafter
            rw [Function.update_self, PcMove.entered_functionCalls hmove hentered]
          · rcases hfails with rfl | rfl <;> contradiction
        · rw [Function.update_of_ne hmine]
          apply hother hserverStep ?_ hpc
          intro found heq
          cases heq
          exact hmine rfl
    | @moved label server hmoved hserver =>
        have hserverStep := (RpiUdpStream.Step.of_step hserver).2
        by_cases hmine : ∃ action, label = .stream tid action
        · obtain ⟨action, heq⟩ := hmine
          subst heq
          rcases hserverStep.stream_cases with
            ⟨before, after, hbefore, hafter, hmove⟩ | ⟨_, _, hthreads, _⟩
          · have hempty : state.calls tid = [] := by
              cases hin : before.inOmxCall with
              | true =>
                  exact (hmoved tid action rfl).2.2
                    (PcMove.returns_of_inOmxCall hmove hin)
              | false =>
                  have hsuffix := hinv tid before hbefore
                  rw [functionCalls_of_not_inOmxCall hin] at hsuffix
                  exact List.suffix_nil.mp hsuffix
            change state.calls tid <:+ _
            rw [hempty]
            exact List.nil_suffix
          · apply hinv tid pc
            unfold RpiUdpStream.State.pcOf at hpc ⊢
            rw [← hthreads]
            exact hpc
        · push Not at hmine
          exact hother hserverStep hmine hpc
    | @called mover outcome session hsession =>
        change Function.update state.calls mover session.calls tid <:+ _
        by_cases hmine : tid = mover
        · subst hmine
          rw [Function.update_self]
          exact (calls_suffix_of_call hsession).trans (hinv tid pc hpc)
        · rw [Function.update_of_ne hmine]
          exact hinv tid pc hpc
    | answered => exact hinv tid pc hpc
    | calledBack => exact hinv tid pc hpc

theorem exitCode_of_step
    {reports : ℕ → DeviceReport} {s next : State} {label : Label}
    (hstep : s.step reports label = some next) : s.server.exitCode = none := by
  cases Step.of_step hstep with
  | entered _ hserver => exact (RpiUdpStream.Step.of_step hserver).1
  | moved _ hserver => exact (RpiUdpStream.Step.of_step hserver).1
  | called hsession => exact (exitCode_of_call hsession).1
  | answered hsession => exact (exitCode_of_component (by simp) hsession).1
  | calledBack hsession => exact (exitCode_of_component (by simp) hsession).1

/-! ## Prompt schedules -/

def Label.ofOmx (tid : ℕ) : Omx.Label → Label
  | .call outcome => .call tid outcome
  | .answer index => .answer index
  | .callback component notice => .callback component notice

/-- A step of the server, with the calls of the function that it enters, which
the components serve at once. -/
def served (reports : ℕ → DeviceReport) : RpiUdpStream.Label → List Label
  | .stream tid action =>
      .server (.stream tid action) ::
        (((enteredCalls (reports tid) action).getD []).flatMap
          Omx.Call.served).map (Label.ofOmx tid)
  | label => [.server label]

def onBoard : ℕ → DeviceReport := fun _ => Omx.boardReport

/-- A run of the server as a run of the whole program on the board. -/
def promptRun (labels : List RpiUdpStream.Label) : List Label :=
  labels.flatMap (served onBoard)

end Whole

end RpiUdpStream
