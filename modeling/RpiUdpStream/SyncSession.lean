import RpiUdpStream.OmxSession

/-!
# The session as a synchronous program

The abstract meaning of the session thread's calls, without callbacks: a request
is pending from its call to the wait for its completion, and takes effect
there.  `Sync.Allows` is the discipline under which this meaning is adequate:
one request at a time, followed by the wait for its own completion, on a
component whose handle and flag group exist.  Every session keeps it, whatever
the components report.
-/

namespace RpiUdpStream

namespace Omx

open LabelledRun

/-- The set-up, the flag groups that exist, and the request that the session
thread has made and not waited for. -/
structure Sync where
  setup : Setup
  flagged : PerComponent Bool
  pending : Option Request
  deriving DecidableEq

def Sync.initial : Sync := ⟨.initial, .const false, none⟩

def Request.InOrder (setup : Setup) (request : Request) : Prop :=
  match request.order with
  | .stateSet state =>
      (setup.component.get request.component).omxState.adjacent state = true
  | _ => True

def Call.frees (component : Component) : Call → Bool
  | .freeHandleStart freed | .freeHandleEnd freed => decide (freed = component)
  | _ => false

/-- A component that may call back has a flag group. -/
def Sync.Settled (s : Sync) (component : Component) : Prop :=
  s.flagged.get component = true ∨ s.setup.handle component = .freed

/-- A wait is for the completion of the pending request or, while there is
none, for an event that completes no request. -/
def Waits (component : Component) (event : ComponentEvent) :
    Option Request → Prop
  | none => event.isCompletion = false ∧ event ≠ .error
  | some request =>
      request.component = component ∧ request.order.completion = event

def Sync.AllowsCall (s : Sync) : Call → Prop
  | .flagsCreate component =>
      s.pending = none ∧ s.flagged.get component = false ∧
        s.setup.handle component = .freed
  | .flagsDelete component =>
      s.pending = none ∧ s.flagged.get component = true ∧
        s.setup.handle component = .held
  | .getHandleStart component =>
      s.pending = none ∧ s.flagged.get component = true ∧
        s.setup.handle component = .freed
  | .getHandleEnd component _ =>
      s.pending = none ∧ s.flagged.get component = true ∧
        s.setup.handle component = .acquiring
  | .freeHandleStart component =>
      s.pending = none ∧ s.flagged.get component = false ∧
        s.setup.handle component = .held
  | .freeHandleEnd component =>
      s.pending = none ∧ s.flagged.get component = false ∧
        s.setup.handle component = .freeing
  | .request request =>
      s.pending = none ∧ s.flagged.get request.component = true ∧
        s.setup.handle request.component = .held ∧ request.InOrder s.setup
  | .wait component event =>
      s.flagged.get component = true ∧ Waits component event s.pending
  | _ => True

/-- While a component that may call back has no flag group, the next call is
that of `OMX_FreeHandle` for it. -/
def Sync.Allows (s : Sync) (call : Call) : Prop :=
  (∀ component, s.Settled component ∨ call.frees component = true) ∧
    s.AllowsCall call

section Decidable

instance decidableForallComponent (p : Component → Prop)
    [∀ component, Decidable (p component)] :
    Decidable (∀ component, p component) :=
  decidable_of_iff (p .camera ∧ p .encoder ∧ p .nullSink)
    ⟨fun hall component => by cases component <;> tauto,
      fun hall => ⟨hall _, hall _, hall _⟩⟩

instance (setup : Setup) : (request : Request) → Decidable (request.InOrder setup)
  | ⟨_, .stateSet _⟩ => inferInstanceAs (Decidable (_ = true))
  | ⟨_, .portEnable _⟩ => isTrue trivial
  | ⟨_, .portDisable _⟩ => isTrue trivial
  | ⟨_, .fillThisBuffer⟩ => isTrue trivial

instance (s : Sync) (component : Component) : Decidable (s.Settled component) :=
  inferInstanceAs (Decidable (_ ∨ _))

instance (component : Component) (event : ComponentEvent) :
    (pending : Option Request) → Decidable (Waits component event pending)
  | none => inferInstanceAs (Decidable (_ ∧ _))
  | some _ => inferInstanceAs (Decidable (_ ∧ _))

instance (s : Sync) : (call : Call) → Decidable (s.AllowsCall call)
  | .flagsCreate _ => inferInstanceAs (Decidable (_ ∧ _ ∧ _))
  | .flagsDelete _ => inferInstanceAs (Decidable (_ ∧ _ ∧ _))
  | .getHandleStart _ => inferInstanceAs (Decidable (_ ∧ _ ∧ _))
  | .getHandleEnd _ _ => inferInstanceAs (Decidable (_ ∧ _ ∧ _))
  | .freeHandleStart _ => inferInstanceAs (Decidable (_ ∧ _ ∧ _))
  | .freeHandleEnd _ => inferInstanceAs (Decidable (_ ∧ _ ∧ _))
  | .request _ => inferInstanceAs (Decidable (_ ∧ _ ∧ _ ∧ _))
  | .wait _ _ => inferInstanceAs (Decidable (_ ∧ _))
  | .bcmHostInit => isTrue trivial
  | .omxInit => isTrue trivial
  | .getPortParam _ _ => isTrue trivial
  | .configure _ _ _ => isTrue trivial
  | .setupTunnel _ _ _ _ => isTrue trivial
  | .allocateBuffer _ _ => isTrue trivial
  | .freeBuffer _ _ => isTrue trivial
  | .setPortCapturing _ _ _ => isTrue trivial
  | .omxDeinit => isTrue trivial
  | .bcmHostDeinit => isTrue trivial

instance (s : Sync) (call : Call) : Decidable (s.Allows call) :=
  inferInstanceAs (Decidable (_ ∧ _))

end Decidable

def Sync.perform (s : Sync) : Call → Sync
  | .flagsCreate component => { s with flagged := s.flagged.set component true }
  | .flagsDelete component => { s with flagged := s.flagged.set component false }
  | .request request => { s with pending := some request }
  | .wait _ _ =>
      match s.pending with
      | none => s
      | some request =>
          { s with setup := request.carryOut s.setup, pending := none }
  | call => { s with setup := call.perform s.setup }

def Sync.step (s : Sync) (call : Call) : Option Sync :=
  if s.Allows call then some (s.perform call) else none

abbrev Sync.run (s : Sync) (calls : List Call) : Option Sync :=
  runFrom Sync.step s calls

theorem Sync.step_eq_some_iff {s next : Sync} {call : Call} :
    s.step call = some next ↔ s.Allows call ∧ s.perform call = next := by
  simp [Sync.step]

/-! ## The port loops -/

structure Sync.Works (s : Sync) (component : Component) : Prop where
  pending : s.pending = none
  settled : ∀ other, s.Settled other
  flagged : s.flagged.get component = true
  handle : s.setup.handle component = .held

def Setup.disable (setup : Setup) (component : Component)
    (ports : List UInt32) : Setup :=
  { setup with
    component := setup.component.set component
      { setup.component.get component with
        enabledPorts := (setup.component.get component).enabledPorts.filter
          fun port => port ∉ ports } }

theorem Setup.disable_nil (setup : Setup) (component : Component) :
    setup.disable component [] = setup := by
  simp only [Setup.disable, List.not_mem_nil, not_false_eq_true,
    Finset.filter_true]
  exact congrArg (fun components => { setup with component := components })
    (PerComponent.set_get setup.component component)

theorem Setup.disable_disable (setup : Setup) (component : Component)
    (ports others : List UInt32) :
    (setup.disable component ports).disable component others =
      setup.disable component (ports ++ others) := by
  simp [Setup.disable, Finset.filter_filter, not_or]

theorem Request.carryOut_portDisable (setup : Setup) (component : Component)
    (port : UInt32) :
    Request.carryOut setup ⟨component, .portDisable port⟩ =
      setup.disable component [port] := by
  simp only [Request.carryOut, Order.carryOut, Setup.disable,
    List.mem_singleton, ← ne_eq, Finset.filter_ne']

theorem Setup.handle_disable (setup : Setup) (component other : Component)
    (ports : List UInt32) :
    (setup.disable component ports).handle other = setup.handle other := by
  simp only [Setup.handle, Setup.disable, PerComponent.get_set]
  split
  · rename_i heq
    rw [heq]
  · rfl

theorem Sync.Works.disable
    {s : Sync} {component : Component} (hworks : s.Works component)
    (ports : List UInt32) :
    Sync.Works { s with setup := s.setup.disable component ports } component := by
  constructor
  · exact hworks.pending
  · intro other
    unfold Sync.Settled
    rw [Setup.handle_disable]
    exact hworks.settled other
  · exact hworks.flagged
  · rw [Setup.handle_disable]
    exact hworks.handle

theorem Sync.Works.run_disablePortAndWait
    {s : Sync} {component : Component} (hworks : s.Works component)
    (port : UInt32) :
    s.run (disablePortAndWait component port) =
      some { s with setup := s.setup.disable component [port] } := by
  have hrequest : s.step (.request ⟨component, .portDisable port⟩) =
      some { s with pending := some ⟨component, .portDisable port⟩ } :=
    Sync.step_eq_some_iff.mpr
      ⟨⟨fun other => Or.inl (hworks.settled other), hworks.pending,
        hworks.flagged, hworks.handle, trivial⟩, rfl⟩
  have hwait : Sync.step { s with pending := some ⟨component, .portDisable port⟩ }
      (.wait component .portDisable) =
        some { s with setup := s.setup.disable component [port] } := by
    apply Sync.step_eq_some_iff.mpr
    constructor
    · exact ⟨fun other => Or.inl (hworks.settled other), hworks.flagged, rfl, rfl⟩
    · simp only [Sync.perform, Request.carryOut_portDisable, hworks.pending]
  apply runFrom_cons_eq_some.mpr
  exact ⟨_, hrequest, (runFrom_singleton _ _).trans hwait⟩

theorem Sync.Works.run_disablePorts
    {s : Sync} {component : Component} (hworks : s.Works component)
    (ports : List UInt32) :
    s.run (disablePorts component ports) =
      some { s with setup := s.setup.disable component ports } := by
  induction ports generalizing s with
  | nil =>
      rw [Setup.disable_nil]
      rfl
  | cons port rest ih =>
      have hfirst := hworks.run_disablePortAndWait port
      have hrest := ih (hworks.disable [port])
      rw [Setup.disable_disable] at hrest
      rw [disablePorts, List.flatMap_cons]
      exact runFrom_append_eq_some.mpr ⟨_, hfirst, hrest⟩

theorem Sync.Works.run_initComponentDomains
    {s : Sync} {component : Component} (hworks : s.Works component)
    (report : DeviceReport) (domains : List PortDomain) :
    s.run (domains.flatMap (initComponentDomain report component)) =
      some { s with
        setup := s.setup.disable component
          (domains.flatMap fun domain =>
            (report.portRange component domain).ports) } := by
  induction domains generalizing s with
  | nil =>
      simp only [List.flatMap_nil, Setup.disable_nil]
      rfl
  | cons domain rest ih =>
      have hparam : s.run [.getPortParam component domain] = some s := by
        rw [Sync.run, runFrom_singleton, Sync.step_eq_some_iff]
        exact ⟨⟨fun other => Or.inl (hworks.settled other), trivial⟩, rfl⟩
      have hports := hworks.run_disablePorts
        (report.portRange component domain).ports
      have hdomain : s.run (initComponentDomain report component domain) = _ :=
        runFrom_append_eq_some.mpr ⟨_, hparam, hports⟩
      have hrest := ih (hworks.disable (report.portRange component domain).ports)
      rw [Setup.disable_disable] at hrest
      rw [List.flatMap_cons, List.flatMap_cons]
      exact runFrom_append_eq_some.mpr ⟨_, hdomain, hrest⟩

def DeviceReport.visitedPorts (report : DeviceReport) (component : Component) :
    List UInt32 :=
  [PortDomain.audio, .video, .image, .other].flatMap fun domain =>
    (report.portRange component domain).ports

def DeviceReport.leftEnabled (report : DeviceReport) (component : Component) :
    Finset UInt32 :=
  (report.enabledPorts.get component).filter fun port =>
    port ∉ report.visitedPorts component

def DeviceReport.initialized (report : DeviceReport) (component : Component) :
    ComponentSetup :=
  ⟨.held, .loaded, report.leftEnabled component⟩

theorem Sync.run_initComponent
    (s : Sync) (component : Component) (hpending : s.pending = none)
    (hsettled : ∀ other, s.Settled other)
    (hflagged : s.flagged.get component = false)
    (hhandle : s.setup.handle component = .freed) (report : DeviceReport) :
    s.run (initComponent report component) =
      some { s with
        flagged := s.flagged.set component true
        setup := { s.setup with
          component := s.setup.component.set component
            (report.initialized component) } } := by
  have hsettledAfter : ∀ (value : ComponentSetup) (other : Component),
      Sync.Settled { s with
        flagged := s.flagged.set component true
        setup := { s.setup with
          component := s.setup.component.set component value } } other := by
    intro value other
    by_cases heq : other = component
    · left
      rw [heq, PerComponent.get_set_self]
    · simpa [Sync.Settled, Setup.handle, PerComponent.get_set, heq] using
        hsettled other
  have hcreate : s.step (.flagsCreate component) =
      some { s with flagged := s.flagged.set component true } :=
    Sync.step_eq_some_iff.mpr
      ⟨⟨fun other => Or.inl (hsettled other), hpending, hflagged, hhandle⟩, rfl⟩
  have hstart : Sync.step { s with flagged := s.flagged.set component true }
      (.getHandleStart component) =
        some { s with
          flagged := s.flagged.set component true
          setup := s.setup.setHandle component .acquiring } := by
    apply Sync.step_eq_some_iff.mpr
    refine ⟨⟨fun other => Or.inl ?_, hpending, by simp, hhandle⟩, rfl⟩
    have hsame := hsettledAfter (s.setup.component.get component) other
    rwa [PerComponent.set_get] at hsame
  have hend : Sync.step
      { s with
        flagged := s.flagged.set component true
        setup := s.setup.setHandle component .acquiring }
      (.getHandleEnd component (report.enabledPorts.get component)) =
        some { s with
          flagged := s.flagged.set component true
          setup := { s.setup with
            component := s.setup.component.set component
              ⟨.held, .loaded, report.enabledPorts.get component⟩ } } := by
    apply Sync.step_eq_some_iff.mpr
    constructor
    · exact ⟨fun other => Or.inl (hsettledAfter _ other), hpending, by simp,
        by simp [Setup.handle, Setup.setHandle]⟩
    · simp [Sync.perform, Call.perform, Setup.setHandle]
  have hworks : Sync.Works
      { s with
        flagged := s.flagged.set component true
        setup := { s.setup with
          component := s.setup.component.set component
            ⟨.held, .loaded, report.enabledPorts.get component⟩ } } component :=
    ⟨hpending, hsettledAfter _, by simp, by simp [Setup.handle]⟩
  have hports := hworks.run_initComponentDomains report
    [.audio, .video, .image, .other]
  rw [initComponent]
  apply runFrom_append_eq_some.mpr
  refine ⟨_, ?_, hports.trans ?_⟩
  · apply runFrom_cons_eq_some.mpr
    refine ⟨_, hcreate, runFrom_cons_eq_some.mpr ⟨_, hstart, ?_⟩⟩
    exact (runFrom_singleton _ _).trans hend
  · simp [Setup.disable, DeviceReport.initialized, DeviceReport.leftEnabled,
      DeviceReport.visitedPorts]

/-! ## Whole sessions -/

/-- Between two sessions no component can call back and nothing is pending. -/
structure Sync.Rests (s : Sync) : Prop where
  pending : s.pending = none
  flagged : s.flagged = .const false
  freed : ∀ component, s.setup.handle component = .freed

theorem Sync.Rests.settled {s : Sync} (hrests : s.Rests) (component : Component) :
    s.Settled component := Or.inr (hrests.freed component)

def DeviceReport.afterInit (report : DeviceReport) (setup : Setup) : Setup where
  component :=
    ⟨⟨.held, .executing, insert 70 (insert 71 (report.leftEnabled .camera))⟩,
      ⟨.held, .executing, insert 201 (insert 200 (report.leftEnabled .encoder))⟩,
      ⟨.held, .executing, insert 240 (report.leftEnabled .nullSink)⟩⟩
  allocatedBuffers := setup.allocatedBuffers + 1
  encoderOutputBuffer := some setup.allocatedBuffers
  freedBuffers := setup.freedBuffers
  capturing := true

def DeviceReport.afterDeinit (report : DeviceReport) (setup : Setup) :
    Setup where
  component :=
    ⟨⟨.freed, .loaded,
        ((insert 70 (insert 71 (report.leftEnabled .camera))).erase 71).erase 70⟩,
      ⟨.freed, .loaded,
        ((insert 201 (insert 200 (report.leftEnabled .encoder))).erase 200).erase
          201⟩,
      ⟨.freed, .loaded, (insert 240 (report.leftEnabled .nullSink)).erase 240⟩⟩
  allocatedBuffers := setup.allocatedBuffers + 1
  encoderOutputBuffer := some setup.allocatedBuffers
  freedBuffers := setup.freedBuffers ++ [setup.allocatedBuffers]
  capturing := false

theorem Sync.Rests.run_initComponents
    {s : Sync} (hrests : s.Rests) (report : DeviceReport) :
    s.run (initComponents report) =
      some ⟨{ s.setup with
        component := ⟨report.initialized .camera, report.initialized .encoder,
          report.initialized .nullSink⟩ }, .const true, none⟩ := by
  rcases s with ⟨setup, flagged, pending⟩
  rcases hrests with ⟨hpending, hflagged, hfreed⟩
  subst hpending hflagged
  have hsettled : ∀ other, Sync.Settled ⟨setup, .const false, none⟩ other :=
    fun other => Or.inr (hfreed other)
  have hinit : Sync.run ⟨setup, .const false, none⟩ [.bcmHostInit, .omxInit] =
      some ⟨setup, .const false, none⟩ := by
    have hbcm : Sync.step ⟨setup, .const false, none⟩ .bcmHostInit =
        some ⟨setup, .const false, none⟩ :=
      Sync.step_eq_some_iff.mpr ⟨⟨fun other => Or.inl (hsettled other), trivial⟩, rfl⟩
    have homx : Sync.step ⟨setup, .const false, none⟩ .omxInit =
        some ⟨setup, .const false, none⟩ :=
      Sync.step_eq_some_iff.mpr ⟨⟨fun other => Or.inl (hsettled other), trivial⟩, rfl⟩
    exact runFrom_cons_eq_some.mpr ⟨_, hbcm, (runFrom_singleton _ _).trans homx⟩
  have hcamera := Sync.run_initComponent ⟨setup, .const false, none⟩ .camera rfl
    hsettled rfl (hfreed .camera) report
  have hencoder := Sync.run_initComponent
    ⟨{ setup with
      component := setup.component.set .camera (report.initialized .camera) },
      ⟨true, false, false⟩, none⟩ .encoder rfl
    (fun other => by
      cases other
      · exact Or.inl rfl
      · exact Or.inr (hfreed .encoder)
      · exact Or.inr (hfreed .nullSink))
    rfl (hfreed .encoder) report
  have hnullSink := Sync.run_initComponent
    ⟨{ setup with
      component := (setup.component.set .camera (report.initialized .camera)).set
        .encoder (report.initialized .encoder) }, ⟨true, true, false⟩, none⟩
    .nullSink rfl
    (fun other => by
      cases other
      · exact Or.inl rfl
      · exact Or.inl rfl
      · exact Or.inr (hfreed .nullSink))
    rfl (hfreed .nullSink) report
  have hfirst := runFrom_append_eq_some.mpr ⟨_, hinit, hcamera⟩
  have hsecond := runFrom_append_eq_some.mpr ⟨_, hfirst, hencoder⟩
  exact runFrom_append_eq_some.mpr ⟨_, hsecond, hnullSink⟩

theorem run_startComponents (report : DeviceReport) (setup : Setup) :
    Sync.run ⟨{ setup with
        component := ⟨report.initialized .camera, report.initialized .encoder,
          report.initialized .nullSink⟩ }, .const true, none⟩ startComponents =
      some ⟨report.afterInit setup, .const true, none⟩ := by
  rfl

theorem run_frames (report : DeviceReport) (setup : Setup) (frames : ℕ) :
    Sync.run ⟨report.afterInit setup, .const true, none⟩
        (List.replicate frames fillFrameBuffer).flatten =
      some ⟨report.afterInit setup, .const true, none⟩ := by
  induction frames with
  | zero => rfl
  | succ frames ih =>
      have hframe : Sync.run ⟨report.afterInit setup, .const true, none⟩
          fillFrameBuffer =
            some ⟨report.afterInit setup, .const true, none⟩ := rfl
      rw [List.replicate_succ, List.flatten_cons]
      exact runFrom_append_eq_some.mpr ⟨_, hframe, ih⟩

theorem run_omxH264Deinit (report : DeviceReport) (setup : Setup) :
    Sync.run ⟨report.afterInit setup, .const true, none⟩ omxH264Deinit =
      some ⟨report.afterDeinit setup, .const false, none⟩ := by
  rfl

theorem Sync.Rests.run_omxH264Init
    {s : Sync} (hrests : s.Rests) (report : DeviceReport) :
    s.run (omxH264Init report) =
      some ⟨report.afterInit s.setup, .const true, none⟩ :=
  runFrom_append_eq_some.mpr
    ⟨_, hrests.run_initComponents report, run_startComponents report s.setup⟩

theorem Sync.Rests.run_session
    {s : Sync} (hrests : s.Rests) (session : Session) :
    s.run session.calls =
      some ⟨session.report.afterDeinit s.setup, .const false, none⟩ := by
  have hframes := run_frames session.report s.setup session.frames
  have hrest := runFrom_append_eq_some.mpr
    ⟨_, hframes, run_omxH264Deinit session.report s.setup⟩
  exact runFrom_append_eq_some.mpr
    ⟨_, hrests.run_omxH264Init session.report, hrest⟩

def setupAfter (setup : Setup) (sessions : List Session) : Setup :=
  sessions.foldl (fun before session => session.report.afterDeinit before) setup

theorem rests_afterDeinit (report : DeviceReport) (setup : Setup) :
    Sync.Rests ⟨report.afterDeinit setup, .const false, none⟩ :=
  ⟨rfl, rfl, fun component => by cases component <;> rfl⟩

theorem Sync.Rests.run_sessions
    {s : Sync} (hrests : s.Rests) (sessions : List Session) :
    s.run (sessions.flatMap Session.calls) =
      some ⟨setupAfter s.setup sessions, .const false, none⟩ := by
  induction sessions generalizing s with
  | nil =>
      rcases s with ⟨setup, flagged, pending⟩
      rcases hrests with ⟨hpending, hflagged, _⟩
      subst hpending hflagged
      rfl
  | cons session rest ih =>
      have hrest := ih (rests_afterDeinit session.report s.setup)
      rw [List.flatMap_cons]
      exact runFrom_append_eq_some.mpr ⟨_, hrests.run_session session, hrest⟩

theorem rests_setupAfter
    {s : Sync} (sessions : List Session) (hrests : s.Rests) :
    Sync.Rests ⟨setupAfter s.setup sessions, .const false, none⟩ := by
  induction sessions generalizing s with
  | nil => exact ⟨rfl, rfl, hrests.freed⟩
  | cons session rest ih =>
      exact ih (rests_afterDeinit session.report s.setup)

theorem Sync.rests_initial : Sync.initial.Rests :=
  ⟨rfl, rfl, fun component => by cases component <;> rfl⟩

end Omx

end RpiUdpStream
