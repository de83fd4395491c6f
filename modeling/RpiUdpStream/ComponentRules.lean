import RpiUdpStream.FlagLifetime
import RpiUdpStream.SessionLifecycle

/-!
# What OpenMAX asks of the calls of a session

A call needs a handle, parameters are set and tunnels made in the state Loaded,
a port is enabled or disabled once, and the buffer of port 201 is allocated while
the port is being enabled, filled while the encoder executes and freed while the
port is being disabled.  Every call of every session keeps to this, in the state
in which the components then are.
-/

namespace RpiUdpStream

namespace Omx

open LabelledRun

def Setup.omxState (setup : Setup) (component : Component) : OmxState :=
  (setup.component.get component).omxState

def Setup.enabledPorts (setup : Setup) (component : Component) : Finset UInt32 :=
  (setup.component.get component).enabledPorts

/-- The static pointer is to a buffer that was allocated and not freed. -/
def Setup.HoldsBuffer (setup : Setup) : Prop :=
  ∃ buffer, setup.encoderOutputBuffer = some buffer ∧
    buffer < setup.allocatedBuffers ∧ buffer ∉ setup.freedBuffers

def Setup.FreedBuffers (setup : Setup) : Prop :=
  setup.freedBuffers = List.range setup.allocatedBuffers

def Order.Legal (setup : Setup) (component : Component) : Order → Prop
  | .stateSet state => (setup.omxState component).adjacent state = true
  | .portEnable port => port ∉ setup.enabledPorts component
  | .portDisable _ => True
  | .fillThisBuffer =>
      setup.omxState component = .executing ∧ 201 ∈ setup.enabledPorts component

/-- What a call needs of the handles, the states and the ports. -/
def Call.Legal (setup : Setup) (outstanding : List Request) : Call → Prop
  | .bcmHostInit | .omxInit | .omxDeinit | .bcmHostDeinit =>
      ∀ component, setup.handle component = .freed
  | .flagsCreate component | .getHandleStart component =>
      setup.handle component = .freed
  | .getHandleEnd component _ => setup.handle component = .acquiring
  | .getPortParam component _ | .wait component _ =>
      setup.handle component = .held
  | .request made =>
      outstanding = [] ∧ setup.handle made.component = .held ∧
        made.order.Legal setup made.component
  | .configure .setParameter component _ =>
      setup.handle component = .held ∧ setup.omxState component = .loaded
  | .configure _ component _ => setup.handle component = .held
  | .setupTunnel output outputPort input inputPort =>
      (setup.handle output = .held ∧ setup.omxState output = .loaded ∧
        outputPort ∉ setup.enabledPorts output) ∧
      setup.handle input = .held ∧ setup.omxState input = .loaded ∧
        inputPort ∉ setup.enabledPorts input
  | .allocateBuffer component port =>
      setup.handle component = .held ∧
        (port ∈ setup.enabledPorts component ∨
          ⟨component, .portEnable port⟩ ∈ outstanding)
  | .freeBuffer component port =>
      setup.handle component = .held ∧
        (port ∉ setup.enabledPorts component ∨
          ⟨component, .portDisable port⟩ ∈ outstanding)
  | .setPortCapturing component port enabled =>
      setup.handle component = .held ∧ setup.omxState component = .executing ∧
        port ∈ setup.enabledPorts component ∧ setup.capturing = !enabled
  | .flagsDelete component | .freeHandleStart component =>
      outstanding = [] ∧ setup.handle component = .held ∧
        setup.omxState component = .loaded ∧ setup.enabledPorts component = ∅
  | .freeHandleEnd component => setup.handle component = .freeing

/-- What a call needs of the buffer. -/
def Call.OwnsBuffer (setup : Setup) : Call → Prop
  | .request ⟨_, .fillThisBuffer⟩ | .freeBuffer _ _ => setup.HoldsBuffer
  | .allocateBuffer _ _ | .freeHandleStart _ => setup.FreedBuffers
  | _ => True

section Decidable

instance (setup : Setup) (component : Component) :
    (order : Order) → Decidable (order.Legal setup component)
  | .stateSet _ => inferInstanceAs (Decidable (_ = true))
  | .portEnable _ => inferInstanceAs (Decidable (_ ∉ _))
  | .portDisable _ => isTrue trivial
  | .fillThisBuffer => inferInstanceAs (Decidable (_ ∧ _))

instance (setup : Setup) (outstanding : List Request) :
    (call : Call) → Decidable (call.Legal setup outstanding)
  | .bcmHostInit => inferInstanceAs (Decidable (∀ _ : Component, _ = _))
  | .omxInit => inferInstanceAs (Decidable (∀ _ : Component, _ = _))
  | .omxDeinit => inferInstanceAs (Decidable (∀ _ : Component, _ = _))
  | .bcmHostDeinit => inferInstanceAs (Decidable (∀ _ : Component, _ = _))
  | .flagsCreate _ => inferInstanceAs (Decidable (_ = _))
  | .getHandleStart _ => inferInstanceAs (Decidable (_ = _))
  | .getHandleEnd _ _ => inferInstanceAs (Decidable (_ = _))
  | .getPortParam _ _ => inferInstanceAs (Decidable (_ = _))
  | .wait _ _ => inferInstanceAs (Decidable (_ = _))
  | .request _ => inferInstanceAs (Decidable (_ ∧ _ ∧ _))
  | .configure .setParameter _ _ => inferInstanceAs (Decidable (_ ∧ _))
  | .configure .getParameter _ _ => inferInstanceAs (Decidable (_ = _))
  | .configure .getConfig _ _ => inferInstanceAs (Decidable (_ = _))
  | .configure .setConfig _ _ => inferInstanceAs (Decidable (_ = _))
  | .setupTunnel _ _ _ _ => inferInstanceAs (Decidable ((_ ∧ _ ∧ _) ∧ _ ∧ _ ∧ _))
  | .allocateBuffer _ _ => inferInstanceAs (Decidable (_ ∧ (_ ∨ _)))
  | .freeBuffer _ _ => inferInstanceAs (Decidable (_ ∧ (_ ∨ _)))
  | .setPortCapturing _ _ _ => inferInstanceAs (Decidable (_ ∧ _ ∧ _ ∧ _))
  | .flagsDelete _ => inferInstanceAs (Decidable (_ ∧ _ ∧ _ ∧ _))
  | .freeHandleStart _ => inferInstanceAs (Decidable (_ ∧ _ ∧ _ ∧ _))
  | .freeHandleEnd _ => inferInstanceAs (Decidable (_ = _))

end Decidable

/-- A call that the session thread may make is legal, whether the pending
request is still outstanding or already answered. -/
def Sync.KeepsRules (s : Sync) (call : Call) : Prop :=
  s.Allows call →
    match s.pending with
    | none => call.Legal s.setup []
    | some request =>
        call.Legal s.setup [request] ∧ call.Legal (request.carryOut s.setup) []

instance (s : Sync) (call : Call) : Decidable (s.KeepsRules call) :=
  match hpending : s.pending with
  | none =>
      decidable_of_iff (s.Allows call → call.Legal s.setup [])
        (by simp [Sync.KeepsRules, hpending])
  | some request =>
      decidable_of_iff
        (s.Allows call → call.Legal s.setup [request] ∧
          call.Legal (request.carryOut s.setup) [])
        (by simp [Sync.KeepsRules, hpending])

/-! ## The handles, the states and the ports -/

/-- The calls of the loops over the ports of a component. -/
def Call.visitsPorts (component : Component) : Call → Prop
  | .getPortParam visited _ => visited = component
  | .request ⟨visited, .portDisable _⟩ => visited = component
  | .wait visited event => visited = component ∧ event = .portDisable
  | _ => False

theorem visitsPorts_of_mem
    {report : DeviceReport} {component : Component} {domains : List PortDomain}
    {call : Call}
    (hcall : call ∈ domains.flatMap (initComponentDomain report component)) :
    call.visitsPorts component := by
  obtain ⟨domain, _, hdomain⟩ := List.mem_flatMap.mp hcall
  rcases List.mem_append.mp hdomain with hparam | hport
  · rw [List.mem_singleton.mp hparam]
    rfl
  · obtain ⟨port, _, hvisit⟩ := List.mem_flatMap.mp hport
    have hcases : call = .request ⟨component, .portDisable port⟩ ∨
        call = .wait component .portDisable := by
      simpa [disablePortAndWait, disablePort] using hvisit
    rcases hcases with hrequest | hwait
    · rw [hrequest]
      rfl
    · rw [hwait]
      exact ⟨rfl, rfl⟩

/-- What holds of the calls before the loops and of those of the loops holds of
every call of `initComponents`. -/
theorem forall_mem_initComponents
    {report : DeviceReport} {p : Call → Prop} (hhost : p .bcmHostInit)
    (homx : p .omxInit) (hcreate : ∀ component, p (.flagsCreate component))
    (hstart : ∀ component, p (.getHandleStart component))
    (hend : ∀ component ports, p (.getHandleEnd component ports))
    (hvisits : ∀ component call, call.visitsPorts component → p call) :
    ∀ call ∈ initComponents report, p call := by
  have hcomponent : ∀ component, ∀ call ∈ initComponent report component,
      p call := by
    intro component call hcall
    rcases List.mem_append.mp hcall with hfirst | hloop
    · have hcases : call = .flagsCreate component ∨ call = .getHandleStart component ∨
          call = .getHandleEnd component (report.enabledPorts.get component) := by
        simpa using hfirst
      rcases hcases with heq | heq | heq
      · rw [heq]
        exact hcreate component
      · rw [heq]
        exact hstart component
      · rw [heq]
        exact hend component _
    · exact hvisits component call (visitsPorts_of_mem hloop)
  intro call hcall
  simp only [initComponents, List.mem_append] at hcall
  rcases hcall with ((hfirst | hcamera) | hencoder) | hnullSink
  · have hcases : call = .bcmHostInit ∨ call = .omxInit := by simpa using hfirst
    rcases hcases with heq | heq
    · rw [heq]
      exact hhost
    · rw [heq]
      exact homx
  · exact hcomponent .camera call hcamera
  · exact hcomponent .encoder call hencoder
  · exact hcomponent .nullSink call hnullSink

theorem handle_held_step
    {s next : Sync} {component : Component} {call : Call}
    (hheld : s.setup.handle component = .held) (hvisits : call.visitsPorts component)
    (hstep : s.step call = some next) : next.setup.handle component = .held := by
  obtain ⟨_, hperform⟩ := Sync.step_eq_some_iff.mp hstep
  subst hperform
  cases call with
  | getPortParam visited domain => exact hheld
  | request made => exact hheld
  | wait visited event =>
      cases hpending : s.pending with
      | none => simpa [Sync.perform, hpending] using hheld
      | some request =>
          simpa [Sync.perform, hpending, Request.handle_carryOut] using hheld
  | _ => exact absurd hvisits (by simp [Call.visitsPorts])

theorem visitsPorts_keepsRules
    {s : Sync} {component : Component} {call : Call}
    (hheld : s.setup.handle component = .held)
    (hvisits : call.visitsPorts component) : s.KeepsRules call := by
  intro hallows
  cases call with
  | getPortParam visited domain =>
      cases hvisits
      split
      · exact hheld
      · exact ⟨hheld, (Request.handle_carryOut _ _ _).trans hheld⟩
  | wait visited event =>
      obtain ⟨hvisited, _⟩ := hvisits
      subst hvisited
      split
      · exact hheld
      · exact ⟨hheld, (Request.handle_carryOut _ _ _).trans hheld⟩
  | request made =>
      obtain ⟨_, hpending, _, hhandle, _⟩ := hallows
      rw [hpending]
      refine ⟨rfl, hhandle, ?_⟩
      rcases made with ⟨visited, order⟩
      cases order with
      | portDisable port => trivial
      | _ => exact absurd hvisits (by simp [Call.visitsPorts])
  | _ => exact absurd hvisits (by simp [Call.visitsPorts])

/-- The calls of `init_component` up to its loops need no more than what the
session thread keeps to between requests. -/
theorem initComponent_keepsRules
    (s : Sync) (report : DeviceReport) (component : Component) :
    EveryStep Sync.step Sync.KeepsRules s (initComponent report component) := by
  have hcreate : s.KeepsRules (.flagsCreate component) := by
    intro hallows
    obtain ⟨_, hpending, _, hfreed⟩ := hallows
    rw [hpending]
    exact hfreed
  have hstart : ∀ created : Sync,
      created.KeepsRules (.getHandleStart component) := by
    intro created hallows
    obtain ⟨_, hpending, _, hfreed⟩ := hallows
    rw [hpending]
    exact hfreed
  have hend : ∀ started : Sync, started.KeepsRules
      (.getHandleEnd component (report.enabledPorts.get component)) := by
    intro started hallows
    obtain ⟨_, hpending, _, hacquiring⟩ := hallows
    rw [hpending]
    exact hacquiring
  refine ⟨hcreate, fun created _ => ⟨hstart created, fun started _ =>
    ⟨hend started, ?_⟩⟩⟩
  intro acquired hacquired
  obtain ⟨_, hperform⟩ := Sync.step_eq_some_iff.mp hacquired
  subst hperform
  apply everyStep_of_invariant
    (fun state : Sync => state.setup.handle component = .held) ?_ ?_
    (fun _ hcall => visitsPorts_of_mem hcall)
  · simp [Sync.perform, Call.perform, Setup.handle]
  · intro state call hheld hvisits
    exact ⟨visitsPorts_keepsRules hheld hvisits,
      fun next hstep => handle_held_step hheld hvisits hstep⟩

theorem Sync.Rests.initComponents_keepsRules
    {s : Sync} (hrests : s.Rests) (report : DeviceReport) :
    EveryStep Sync.step Sync.KeepsRules s (initComponents report) := by
  have hfreed : ∀ call : Call, call = .bcmHostInit ∨ call = .omxInit →
      s.KeepsRules call := by
    intro call hcall _
    rw [hrests.pending]
    rcases hcall with heq | heq
    · rw [heq]
      exact hrests.freed
    · rw [heq]
      exact hrests.freed
  have hhost : EveryStep Sync.step Sync.KeepsRules s [.bcmHostInit, .omxInit] := by
    refine ⟨hfreed _ (Or.inl rfl), ?_⟩
    intro next hnext
    obtain ⟨_, hperform⟩ := Sync.step_eq_some_iff.mp hnext
    subst hperform
    exact ⟨hfreed _ (Or.inr rfl), fun _ _ => trivial⟩
  rw [initComponents, everyStep_append, everyStep_append, everyStep_append]
  exact ⟨⟨⟨hhost, fun middle _ => initComponent_keepsRules middle report .camera⟩,
    fun middle _ => initComponent_keepsRules middle report .encoder⟩,
    fun middle _ => initComponent_keepsRules middle report .nullSink⟩

set_option maxRecDepth 20000 in
theorem startComponents_keepsRules (earlier : ℕ) :
    EveryStep Sync.step Sync.KeepsRules
      ⟨{ Setup.cleanedUp earlier with
        component := .const ⟨.held, .loaded, ∅⟩ }, .const true, none⟩
      startComponents :=
  of_decide_eq_true (by rfl)

theorem fillFrameBuffer_keepsRules (earlier : ℕ) :
    EveryStep Sync.step Sync.KeepsRules
      ⟨.streaming earlier, .const true, none⟩ fillFrameBuffer :=
  of_decide_eq_true (by rfl)

set_option maxRecDepth 20000 in
theorem omxH264Deinit_keepsRules (earlier : ℕ) :
    EveryStep Sync.step Sync.KeepsRules
      ⟨.streaming earlier, .const true, none⟩ omxH264Deinit :=
  of_decide_eq_true (by rfl)

theorem frames_keepRules (earlier frames : ℕ) :
    EveryStep Sync.step Sync.KeepsRules ⟨.streaming earlier, .const true, none⟩
        (List.replicate frames fillFrameBuffer).flatten := by
  induction frames with
  | zero => trivial
  | succ frames ih =>
      have hframe : Sync.run ⟨.streaming earlier, .const true, none⟩
          fillFrameBuffer = some ⟨.streaming earlier, .const true, none⟩ := rfl
      rw [List.replicate_succ, List.flatten_cons, everyStep_append]
      refine ⟨fillFrameBuffer_keepsRules earlier, ?_⟩
      intro middle hmiddle
      rw [Sync.run, hmiddle] at hframe
      cases hframe
      exact ih

theorem rests_cleanedUp (earlier : ℕ) :
    Sync.Rests ⟨.cleanedUp earlier, .const false, none⟩ :=
  ⟨rfl, rfl, fun component => by cases component <;> rfl⟩

theorem DeviceReport.Covers.session_keepsRules
    {session : Session} (hcovers : session.report.Covers) (earlier : ℕ) :
    EveryStep Sync.step Sync.KeepsRules
      ⟨.cleanedUp earlier, .const false, none⟩ session.calls := by
  have hrests := rests_cleanedUp earlier
  rw [Session.calls, omxH264Init, Session.callsAfterInit, everyStep_append,
    everyStep_append]
  refine ⟨⟨hrests.initComponents_keepsRules session.report, ?_⟩, ?_⟩
  · intro middle hmiddle
    have hinit := hrests.run_initComponents session.report
    rw [Sync.run, hmiddle] at hinit
    cases hinit
    simp only [DeviceReport.initialized, hcovers.leftEnabled]
    exact startComponents_keepsRules earlier
  · intro started hstarted
    have hinit := hrests.run_omxH264Init session.report
    rw [hcovers.afterInit, Sync.run, omxH264Init, hstarted] at hinit
    cases hinit
    rw [everyStep_append]
    refine ⟨frames_keepRules earlier session.frames, ?_⟩
    intro filled hfilled
    have hframes := run_frames session.report (.cleanedUp earlier) session.frames
    rw [hcovers.afterInit, Sync.run, hfilled] at hframes
    cases hframes
    exact omxH264Deinit_keepsRules earlier

theorem sessions_keepRules
    {sessions : List Session}
    (hcovers : ∀ session ∈ sessions, session.report.Covers) (earlier : ℕ) :
    EveryStep Sync.step Sync.KeepsRules
      ⟨.cleanedUp earlier, .const false, none⟩
      (sessions.flatMap Session.calls) := by
  induction sessions generalizing earlier with
  | nil => trivial
  | cons session rest ih =>
      have hsession := hcovers session (by simp)
      rw [List.flatMap_cons, everyStep_append]
      refine ⟨hsession.session_keepsRules earlier, ?_⟩
      intro middle hmiddle
      have hrun := (rests_cleanedUp earlier).run_session session
      rw [hsession.afterDeinit, Sync.run, hmiddle] at hrun
      cases hrun
      exact ih (fun other hother => hcovers other (by simp [hother])) (earlier + 1)

/-! ## The buffer -/

/-- Whether there is a buffer after a call, or `none` where the call is out of
place. -/
def Call.trackBuffer : Bool → Call → Option Bool
  | allocated, .allocateBuffer _ _ => if allocated then none else some true
  | allocated, .freeBuffer _ _ => if allocated then some false else none
  | allocated, .request ⟨_, .fillThisBuffer⟩ =>
      if allocated then some true else none
  | allocated, .freeHandleStart _ => if allocated then none else some false
  | allocated, _ => some allocated

/-- The buffers of a set-up, where one is allocated or all are freed. -/
def Setup.TracksBuffer (setup : Setup) (allocated : Bool) : Prop :=
  if allocated then
    ∃ earlier, setup.encoderOutputBuffer = some earlier ∧
      setup.allocatedBuffers = earlier + 1 ∧
      setup.freedBuffers = List.range earlier
  else setup.FreedBuffers

theorem Setup.TracksBuffer.holds
    {setup : Setup} (htracks : setup.TracksBuffer true) : setup.HoldsBuffer := by
  obtain ⟨earlier, hpointer, hallocated, hfreed⟩ := htracks
  refine ⟨earlier, hpointer, by omega, ?_⟩
  rw [hfreed]
  simp

theorem trackBuffer_step
    {s : Sync} {call : Call} {allocated after : Bool}
    (htracks : s.setup.TracksBuffer allocated)
    (htrack : call.trackBuffer allocated = some after) :
    call.OwnsBuffer s.setup ∧
      ∀ next, s.step call = some next → next.setup.TracksBuffer after := by
  have hperforms : ∀ next, s.step call = some next →
      (s.perform call).setup.TracksBuffer after → next.setup.TracksBuffer after := by
    intro next hnext hafter
    obtain ⟨_, hperform⟩ := Sync.step_eq_some_iff.mp hnext
    rwa [← hperform]
  cases call with
  | allocateBuffer component port =>
      cases allocated with
      | true => contradiction
      | false =>
          cases htrack
          refine ⟨htracks, fun next hnext => hperforms next hnext ?_⟩
          exact ⟨s.setup.allocatedBuffers, rfl, rfl, htracks⟩
  | freeBuffer component port =>
      cases allocated with
      | false => contradiction
      | true =>
          cases htrack
          refine ⟨htracks.holds, fun next hnext => hperforms next hnext ?_⟩
          obtain ⟨earlier, hpointer, hallocated, hfreed⟩ := htracks
          simp [Setup.TracksBuffer, Setup.FreedBuffers, Sync.perform, Call.perform,
            hpointer, hallocated, hfreed, List.range_succ]
  | request made =>
      rcases made with ⟨component, order⟩
      cases order with
      | fillThisBuffer =>
          cases allocated with
          | false => contradiction
          | true =>
              cases htrack
              exact ⟨htracks.holds, fun next hnext => hperforms next hnext htracks⟩
      | _ =>
          cases htrack
          exact ⟨trivial, fun next hnext => hperforms next hnext htracks⟩
  | freeHandleStart component =>
      cases allocated with
      | true => contradiction
      | false =>
          cases htrack
          exact ⟨htracks, fun next hnext => hperforms next hnext htracks⟩
  | wait component event =>
      cases htrack
      refine ⟨trivial, fun next hnext => hperforms next hnext ?_⟩
      cases hpending : s.pending with
      | none => simpa [Sync.perform, hpending] using htracks
      | some request =>
          have hcarried : (request.carryOut s.setup).TracksBuffer allocated := htracks
          simpa [Sync.perform, hpending] using hcarried
  | _ =>
      cases htrack
      exact ⟨trivial, fun next hnext => hperforms next hnext htracks⟩

theorem run_trackBuffer_of_neutral
    {calls : List Call} {allocated : Bool}
    (hneutral : ∀ call ∈ calls, call.trackBuffer allocated = some allocated) :
    runFrom Call.trackBuffer allocated calls = some allocated := by
  induction calls with
  | nil => rfl
  | cons call rest ih =>
      apply runFrom_cons_eq_some.mpr
      exact ⟨allocated, hneutral call (by simp),
        ih fun other hother => hneutral other (by simp [hother])⟩

theorem trackBuffer_of_visitsPorts
    {call : Call} {component : Component} (hvisits : call.visitsPorts component)
    (allocated : Bool) : call.trackBuffer allocated = some allocated := by
  cases call with
  | getPortParam => rfl
  | wait => rfl
  | request made =>
      rcases made with ⟨visited, order⟩
      cases order with
      | portDisable port => rfl
      | _ => contradiction
  | _ => contradiction

theorem run_trackBuffer_initComponents (report : DeviceReport) :
    runFrom Call.trackBuffer false (initComponents report) = some false := by
  apply run_trackBuffer_of_neutral
  exact forall_mem_initComponents (p := fun call => call.trackBuffer false = some false)
    rfl rfl (fun _ => rfl) (fun _ => rfl) (fun _ _ => rfl)
    (fun _ _ hvisits => trackBuffer_of_visitsPorts hvisits false)

theorem run_trackBuffer_session (session : Session) :
    runFrom Call.trackBuffer false session.calls = some false := by
  have hstart : runFrom Call.trackBuffer false startComponents = some true := by
    decide
  have hframes : runFrom Call.trackBuffer true
      (List.replicate session.frames fillFrameBuffer).flatten = some true := by
    apply run_trackBuffer_of_neutral
    intro call hcall
    obtain ⟨calls, hcalls, hmem⟩ := List.mem_flatten.mp hcall
    rw [(List.mem_replicate.mp hcalls).2] at hmem
    have hcases : call = .request ⟨.encoder, .fillThisBuffer⟩ ∨
        call = .wait .encoder .fillBufferDone := by
      simpa [fillFrameBuffer] using hmem
    rcases hcases with heq | heq
    · rw [heq]
      rfl
    · rw [heq]
      rfl
  have hend : runFrom Call.trackBuffer true omxH264Deinit = some false := by
    decide
  have hinit := runFrom_append_eq_some.mpr
    ⟨_, run_trackBuffer_initComponents session.report, hstart⟩
  exact runFrom_append_eq_some.mpr
    ⟨_, hinit, runFrom_append_eq_some.mpr ⟨_, hframes, hend⟩⟩

theorem run_trackBuffer_sessions (sessions : List Session) :
    runFrom Call.trackBuffer false
      (sessions.flatMap Session.calls) = some false := by
  induction sessions with
  | nil => rfl
  | cons session rest ih =>
      exact runFrom_append_eq_some.mpr ⟨_, run_trackBuffer_session session, ih⟩

theorem sessions_ownBuffers (sessions : List Session) :
    EveryStep Sync.step (fun s call => call.OwnsBuffer s.setup) .initial
      (sessions.flatMap Session.calls) := by
  apply everyStep_of_tracked
    (fun (s : Sync) allocated => s.setup.TracksBuffer allocated) ?_ ?_
    (run_trackBuffer_sessions sessions)
  · rfl
  · intro s call allocated after htracks htrack
    exact trackBuffer_step htracks htrack

/-! ## The calls of a run -/

/-- The session thread keeps to the rules of OpenMAX in every call, for every
order of callbacks of components that only answer what was asked. -/
theorem run_legal
    {sessions : List Session} {labels : List Label} {s : State}
    (hcovers : ∀ session ∈ sessions, session.report.Covers)
    (hhonest : ∀ label ∈ labels, label.honest = true)
    (hrun : (State.initial sessions).run labels = some s)
    {call : Call} {rest : List Call} (hcalls : s.calls = call :: rest) :
    call.Legal s.setup s.outstanding ∧ call.OwnsBuffer s.setup := by
  obtain ⟨phase, _, sync, hfollows, hrefines⟩ := run_inStep hhonest hrun
  have hallows := (hfollows.advance (run_program sessions) hcalls).1
  have hrules := (sessions_keepRules hcovers 0).and (sessions_ownBuffers sessions)
  obtain ⟨executed, hsplit, hexecuted⟩ := hfollows
  rw [everyStep_iff_split] at hrules
  rw [hcalls] at hsplit
  obtain ⟨hkeeps, howns⟩ := hrules executed call rest sync hsplit hexecuted
  have hlegal := hkeeps hallows
  rw [hrefines.setup, hrefines.outstanding]
  rw [hrefines.pending] at hlegal
  cases phase with
  | idle => exact ⟨hlegal, howns⟩
  | issued request => exact ⟨hlegal.1, howns⟩
  | answered request =>
      refine ⟨hlegal.2, ?_⟩
      unfold Call.OwnsBuffer at howns ⊢
      split at howns <;> exact howns

end Omx

end RpiUdpStream
