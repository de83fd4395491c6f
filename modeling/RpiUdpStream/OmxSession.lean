import RpiUdpStream.LabelledRun
import RpiUdpStream.OmxCalls

/-!
# The session thread and its components

The session thread makes its calls in order while the components call back.  A
request stays outstanding until its component carries it out and answers with
the matching callback; besides, a component that has a handle may call back at
any time.  Between the deletion of a flag group and its next creation there is
nothing for a callback to set.
-/

namespace RpiUdpStream

namespace Omx

open LabelledRun

/-- A handle, with the calls of `OMX_GetHandle` and `OMX_FreeHandle` that have
started and not ended. -/
inductive HandleState where
  | freed
  | acquiring
  | held
  | freeing
  deriving DecidableEq, Repr

structure ComponentSetup where
  handle : HandleState
  omxState : OmxState
  enabledPorts : Finset UInt32
  deriving DecidableEq

/-- What the calls set up and tear down.  Buffers are numbered in the order of
their allocation; `encoderOutputBuffer` is the static pointer to the latest. -/
structure Setup where
  component : PerComponent ComponentSetup
  allocatedBuffers : ℕ
  encoderOutputBuffer : Option ℕ
  freedBuffers : List ℕ
  capturing : Bool
  deriving DecidableEq

def Setup.initial : Setup where
  component := .const ⟨.freed, .loaded, ∅⟩
  allocatedBuffers := 0
  encoderOutputBuffer := none
  freedBuffers := []
  capturing := false

def Setup.handle (setup : Setup) (component : Component) : HandleState :=
  (setup.component.get component).handle

def Setup.setHandle (setup : Setup) (component : Component)
    (handle : HandleState) : Setup :=
  { setup with
    component := setup.component.set component
      { setup.component.get component with handle := handle } }

def Call.perform (setup : Setup) : Call → Setup
  | .getHandleStart component => setup.setHandle component .acquiring
  | .getHandleEnd component enabledPorts =>
      { setup with
        component := setup.component.set component
          ⟨.held, .loaded, enabledPorts⟩ }
  | .freeHandleStart component => setup.setHandle component .freeing
  | .freeHandleEnd component => setup.setHandle component .freed
  | .allocateBuffer _ _ =>
      { setup with
        allocatedBuffers := setup.allocatedBuffers + 1
        encoderOutputBuffer := some setup.allocatedBuffers }
  | .freeBuffer _ _ =>
      { setup with
        freedBuffers := setup.freedBuffers ++ setup.encoderOutputBuffer.toList }
  | .setPortCapturing _ _ enabled => { setup with capturing := enabled }
  | _ => setup

def Order.carryOut (setup : ComponentSetup) : Order → ComponentSetup
  | .stateSet state => { setup with omxState := state }
  | .portEnable port =>
      { setup with enabledPorts := insert port setup.enabledPorts }
  | .portDisable port =>
      { setup with enabledPorts := setup.enabledPorts.erase port }
  | .fillThisBuffer => setup

/-- The effect of a request, which its component carries out before it calls
back. -/
def Request.carryOut (setup : Setup) (request : Request) : Setup :=
  { setup with
    component := setup.component.set request.component
      (request.order.carryOut (setup.component.get request.component)) }

def Order.callback : Order → Callback
  | .stateSet _ => .eventHandler (.cmdComplete .stateSet)
  | .portEnable _ => .eventHandler (.cmdComplete .portEnable)
  | .portDisable _ => .eventHandler (.cmdComplete .portDisable)
  | .fillThisBuffer => .fillBufferDone

def Order.completion : Order → ComponentEvent
  | .stateSet _ => .stateSet
  | .portEnable _ => .portEnable
  | .portDisable _ => .portDisable
  | .fillThisBuffer => .fillBufferDone

theorem Order.wakes_callback (order : Order) :
    order.callback.wakes = some order.completion := by
  cases order <;> rfl

/-- `calls` are the calls that the session thread has still to make. -/
structure State where
  calls : List Call
  setup : Setup
  flags : PerComponent (Option Flags)
  outstanding : List Request
  exitCode : Option ℕ
  deriving DecidableEq

def State.initial (sessions : List Session) : State where
  calls := sessions.flatMap Session.calls
  setup := .initial
  flags := .const none
  outstanding := []
  exitCode := none

inductive Label where
  | call (outcome : CallOutcome)
  | answer (index : ℕ)
  | callback (component : Component) (callback : Callback)
  deriving DecidableEq

def State.deliver (s : State) (component : Component) (callback : Callback) :
    State :=
  { s with
    flags := s.flags.set component
      ((s.flags.get component).map callback.deliver) }

/-- A call of the session thread that reports no error.  `wait` is for a flag
group that exists. -/
def State.perform (s : State) (extra : Flags) : Call → Option State
  | .flagsCreate component =>
      some { s with flags := s.flags.set component (some 0) }
  | .flagsDelete component =>
      some { s with flags := s.flags.set component none }
  | .request request => some { s with outstanding := s.outstanding ++ [request] }
  | .wait component event =>
      (s.flags.get component).bind fun flags =>
        (wait flags event.flag (.returned extra)).map fun (result, rest) =>
          { s with
            flags := s.flags.set component (some rest)
            exitCode := result.exitCode }
  | .freeHandleEnd component =>
      some { s with
        setup := (Call.freeHandleEnd component).perform s.setup
        outstanding := s.outstanding.filter fun request =>
          decide (request.component ≠ component) }
  | call => some { s with setup := call.perform s.setup }

def State.step (s : State) (label : Label) : Option State :=
  if s.exitCode.isSome then none
  else
    match label with
    | .call outcome =>
        match s.calls, outcome with
        | [], _ => none
        | call :: _, .failed =>
            if call.checked then some { s with exitCode := some 1 } else none
        | call :: rest, .returned extra =>
            (s.perform extra call).map fun next => { next with calls := rest }
    | .answer index =>
        match s.outstanding[index]? with
        | none => none
        | some request =>
            if s.setup.handle request.component = .freed then none
            else
              some { s.deliver request.component request.order.callback with
                setup := request.carryOut s.setup
                outstanding := s.outstanding.eraseIdx index }
    | .callback component callback =>
        if s.setup.handle component = .freed then none
        else some (s.deliver component callback)

abbrev State.run (s : State) (labels : List Label) : Option State :=
  runFrom State.step s labels

/-! ## What one step can do -/

inductive Step (s : State) : Label → State → Prop where
  | failed {call : Call} {rest : List Call} (hcalls : s.calls = call :: rest)
      (hchecked : call.checked = true) :
      Step s (.call .failed) { s with exitCode := some 1 }
  | performed {call : Call} {rest : List Call} {extra : Flags} {next : State}
      (hcalls : s.calls = call :: rest)
      (hperform : s.perform extra call = some next) :
      Step s (.call (.returned extra)) { next with calls := rest }
  | answered {index : ℕ} {request : Request}
      (hrequest : s.outstanding[index]? = some request)
      (hhandle : s.setup.handle request.component ≠ .freed) :
      Step s (.answer index)
        { s.deliver request.component request.order.callback with
          setup := request.carryOut s.setup
          outstanding := s.outstanding.eraseIdx index }
  | calledBack {component : Component} {callback : Callback}
      (hhandle : s.setup.handle component ≠ .freed) :
      Step s (.callback component callback) (s.deliver component callback)

theorem Step.of_step
    {s next : State} {label : Label} (hstep : s.step label = some next) :
    s.exitCode = none ∧ Step s label next := by
  unfold State.step at hstep
  split at hstep
  · contradiction
  · rename_i hrunning
    constructor
    · simpa using hrunning
    · cases label with
      | call outcome =>
          cases hcalls : s.calls with
          | nil => simp [hcalls] at hstep
          | cons call rest =>
              simp only [hcalls] at hstep
              cases outcome with
              | failed =>
                  simp only [Option.ite_none_right_eq_some, Option.some.injEq] at hstep
                  rcases hstep with ⟨hchecked, rfl⟩
                  rw [← hcalls]
                  exact .failed hcalls hchecked
              | returned extra =>
                  obtain ⟨performed, hperform, hnext⟩ :=
                    Option.map_eq_some_iff.mp hstep
                  subst next
                  exact .performed hcalls hperform
      | answer index =>
          cases hrequest : s.outstanding[index]? with
          | none => simp [hrequest] at hstep
          | some request =>
              simp only [hrequest, Option.ite_none_left_eq_some,
                Option.some.injEq] at hstep
              rcases hstep with ⟨hhandle, rfl⟩
              exact .answered hrequest hhandle
      | callback component callback =>
          simp only [Option.ite_none_left_eq_some, Option.some.injEq] at hstep
          rcases hstep with ⟨hhandle, rfl⟩
          exact .calledBack hhandle

theorem calls_of_step
    {s next : State} {outcome : CallOutcome} {call : Call} {rest : List Call}
    (hcalls : s.calls = call :: rest) (hstep : s.step (.call outcome) = some next)
    (hrunning : next.exitCode = none) : next.calls = rest := by
  cases (Step.of_step hstep).2 with
  | failed => contradiction
  | performed hfound =>
      rw [hcalls] at hfound
      exact (List.cons.inj hfound).2.symm

/-! ## Prompt schedules -/

/-- A call of the session thread together with what its component does for it
at once. -/
def Call.served : Call → List Label
  | .request _ => [.call (.returned 0), .answer 0]
  | .wait component .paramOrConfigChanged =>
      [.callback component (.eventHandler .paramOrConfigChanged),
        .call (.returned 0)]
  | .wait component .portSettingsChanged =>
      [.callback component (.eventHandler .portSettingsChanged),
        .call (.returned 0)]
  | _ => [.call (.returned 0)]

def boardReport : DeviceReport where
  enabledPorts := ⟨{70, 71, 72, 73}, {200, 201}, {240, 241, 242}⟩
  portRange
    | .camera, .video => ⟨70, 3⟩
    | .camera, .other => ⟨73, 1⟩
    | .encoder, .image => ⟨200, 2⟩
    | .nullSink, .video => ⟨240, 1⟩
    | .nullSink, .image => ⟨241, 1⟩
    | .nullSink, .audio => ⟨242, 1⟩
    | _, _ => ⟨0, 0⟩

def boardSession (frames : ℕ) : Session := ⟨boardReport, frames⟩

end Omx

end RpiUdpStream
