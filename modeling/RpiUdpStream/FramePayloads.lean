import RpiUdpStream.ComponentRules
import RpiUdpStream.FrameDelivery
import RpiUdpStream.WholeSessions

/-!
# What is sent is what the encoder wrote

The encoder writes its output buffer while a request to fill it is outstanding,
and `udp_send_stream` reads the same buffer, without a copy and without a lock.
Where threads start their sessions alone, the handshake alone keeps the two
apart: between the answer of the encoder and the return of `sendto` there is no
such request, so every frame is sent once, whole and in order.
-/

namespace RpiUdpStream

open LabelledRun

namespace Omx

def fillRequest : Request := ⟨.encoder, .fillThisBuffer⟩

/-- A wait for a completion returns with no request outstanding. -/
theorem outstanding_eq_nil_of_wait
    {sessions : List Session} {labels : List Label} {s next : State}
    {component : Component} {event : ComponentEvent} {rest : List Call}
    {outcome : CallOutcome} (hhonest : ∀ label ∈ labels, label.honest = true)
    (hrun : (State.initial sessions).run labels = some s)
    (hcalls : s.calls = .wait component event :: rest)
    (hcompletion : event.isCompletion = true)
    (hstep : s.step (.call outcome) = some next) (hrunning : next.exitCode = none) :
    s.outstanding = [] := by
  obtain ⟨phase, _, sync, hfollows, hrefines⟩ := run_inStep hhonest hrun
  obtain ⟨_, _, hwaits⟩ := (hfollows.advance (run_program sessions) hcalls).1
  cases hpending : sync.pending with
  | none =>
      rw [hpending] at hwaits
      rw [hwaits.1] at hcompletion
      contradiction
  | some request =>
      rw [hpending] at hwaits
      obtain ⟨hcomponent, hevent⟩ := hwaits
      subst hcomponent hevent
      cases (Step.of_step hstep).2 with
      | failed => contradiction
      | performed hfound hperform =>
          rw [hcalls] at hfound
          cases hfound
          have hphase := (hrefines.waitCompletion hpending hperform).1
          rw [hrefines.outstanding, hphase]
          rfl

theorem outstanding_of_request
    {s next : State} {outcome : CallOutcome} {request : Request} {rest : List Call}
    (hcalls : s.calls = .request request :: rest)
    (hstep : s.step (.call outcome) = some next)
    (hrunning : next.exitCode = none) : request ∈ next.outstanding := by
  cases (Step.of_step hstep).2 with
  | failed => contradiction
  | performed hfound hperform =>
      rw [hcalls] at hfound
      cases hfound
      cases hperform
      simp

end Omx

namespace Whole

open Omx (DeviceReport Session)

/-- The only function that asks for a frame is `fill_frame_buffer`. -/
theorem filling_of_mem_functionCalls
    {report : DeviceReport} {pc : StreamPc}
    (hcall : .request Omx.fillRequest ∈ functionCalls report pc) : pc = .filling := by
  have hinit : ∀ call ∈ Omx.initComponents report,
      call ≠ .request Omx.fillRequest := by
    apply Omx.forall_mem_initComponents (p := fun call => call ≠ .request Omx.fillRequest)
    · simp
    · simp
    · simp
    · simp
    · simp
    · rintro component call hvisits heq
      subst heq
      contradiction
  have hstart : .request Omx.fillRequest ∉ Omx.startComponents := by decide
  have hend : .request Omx.fillRequest ∉ Omx.omxH264Deinit := by decide
  cases pc with
  | initializing =>
      rcases List.mem_append.mp hcall with hinitial | hstarted
      · exact absurd rfl (hinit _ hinitial)
      · exact absurd hstarted hstart
  | filling => rfl
  | deinitializing => exact absurd hcall hend
  | _ => contradiction

theorem calls_of_filling
    {reports : ℕ → DeviceReport} {nBufferSize : ℕ} {labels : List Label} {s : State}
    (hrun : (State.initial nBufferSize).run reports labels = some s) {tid : ℕ}
    (hpc : s.server.pcOf tid = some .filling) :
    s.calls tid = Omx.fillFrameBuffer ∨
      s.calls tid = [.wait .encoder .fillBufferDone] ∨ s.calls tid = [] := by
  have hsuffix := run_calls_suffix hrun tid .filling hpc
  simpa [functionCalls, Omx.fillFrameBuffer, List.suffix_cons_iff] using hsuffix

/-! ## The one session that asks for frames -/

/-- A run in which threads start their sessions alone and components keep to
the handshake. -/
structure Orderly (reports : ℕ → DeviceReport) (nBufferSize : ℕ)
    (labels : List Label) : Prop where
  guard : EveryStep (State.step reports) StartsAlone (State.initial nBufferSize) labels
  honest : ∀ label ∈ omxLabels labels, label.honest = true

theorem Orderly.of_concat
    {reports : ℕ → DeviceReport} {nBufferSize : ℕ} {labels : List Label}
    {label : Label} (horderly : Orderly reports nBufferSize (labels ++ [label])) :
    Orderly reports nBufferSize labels where
  guard := horderly.guard.of_concat.1
  honest := by
    intro shown hshown
    apply horderly.honest
    rw [omxLabels_append]
    exact List.mem_append.mpr (Or.inl hshown)

theorem Orderly.session_unique
    {reports : ℕ → DeviceReport} {nBufferSize : ℕ} {labels : List Label} {s : State}
    (horderly : Orderly reports nBufferSize labels)
    (hrun : (State.initial nBufferSize).run reports labels = some s)
    (hexit : s.server.exitCode ≠ some 1) {tid other : ℕ} {pc pc' : StreamPc}
    (hpc : s.server.pcOf tid = some pc) (hin : pc.inSession = true)
    (hpc' : s.server.pcOf other = some pc') (hin' : pc'.inSession = true) :
    other = tid := by
  obtain ⟨_, _, _, htracks⟩ := run_tracks horderly.guard hrun hexit
  obtain ⟨_, _, _, _, _, halone⟩ := htracks.stage.of_inSession hpc hin
  exact halone other pc' hpc' hin'

theorem Orderly.outstanding_le_one
    {reports : ℕ → DeviceReport} {nBufferSize : ℕ} {labels : List Label} {s : State}
    (horderly : Orderly reports nBufferSize labels)
    (hrun : (State.initial nBufferSize).run reports labels = some s)
    (hexit : s.server.exitCode ≠ some 1) : s.outstanding.length ≤ 1 := by
  obtain ⟨_, _, _, htracks⟩ := run_tracks horderly.guard hrun hexit
  obtain ⟨rest, homx, _⟩ := htracks.run_sessions
  obtain ⟨phase, _, _, _, hrefines⟩ := Omx.run_inStep horderly.honest homx
  have hsame : s.outstanding = phase.outstanding := hrefines.outstanding
  rw [hsame]
  exact phase.length_outstanding_le_one

/-- A thread's wait for its frame returns with no request outstanding. -/
theorem Orderly.outstanding_eq_nil_of_wait
    {reports : ℕ → DeviceReport} {nBufferSize : ℕ} {labels : List Label} {s : State}
    (horderly : Orderly reports nBufferSize labels)
    (hrun : (State.initial nBufferSize).run reports labels = some s) {tid : ℕ}
    (hcalls : s.calls tid = [.wait .encoder .fillBufferDone])
    {outcome : CallOutcome} {session : Omx.State}
    (hsession : (s.session (s.calls tid)).step (.call outcome) = some session)
    (hrunning : session.exitCode = none) : s.outstanding = [] := by
  have hexit : s.server.exitCode = none := (exitCode_of_call hsession).1
  obtain ⟨pc, hpc, hin⟩ := run_callsInOmx hrun tid (by rw [hcalls]; simp)
  obtain ⟨_, _, _, htracks⟩ :=
    run_tracks horderly.guard hrun (by rw [hexit]; simp)
  have homx := htracks.run_within hpc (StreamPc.inSession_of_inOmxCall hin)
  have hlonger := Omx.State.step_append hsession hrunning (callsAhead pc)
  have hsame : (s.session (s.calls tid)).append (callsAhead pc) =
      ⟨s.calls tid ++ callsAhead pc, s.setup, s.flags, s.outstanding, none⟩ := by
    simp [Omx.State.append, State.session, hexit]
  rw [hsame] at hlonger
  exact Omx.outstanding_eq_nil_of_wait horderly.honest homx (by rw [hcalls]; rfl) rfl
    hlonger hrunning

/-- A request for a frame that is outstanding is that of a thread which waits
for the frame. -/
def FillAwaited (s : State) : Prop :=
  Omx.fillRequest ∈ s.outstanding →
    ∃ tid, s.server.pcOf tid = some .filling ∧
      s.calls tid = [.wait .encoder .fillBufferDone]

/-- A thread that has calls to make stays where it is while the server moves. -/
theorem pcOf_of_calling
    {s : State} {server : RpiUdpStream.State} {label : RpiUdpStream.Label} {tid : ℕ}
    {pc : StreamPc} (hserver : RpiUdpStream.Step s.server label server)
    (hpc : s.server.pcOf tid = some pc) (hin : pc.inOmxCall = true)
    (hstays : ∀ action, label = .stream tid action → returns action = false) :
    server.pcOf tid = some pc := by
  by_cases hmine : ∃ action, label = .stream tid action
  · obtain ⟨action, heq⟩ := hmine
    subst heq
    rcases hserver.stream_cases with
      ⟨before, after, hbefore, _, hmove⟩ | ⟨_, _, hthreads, _⟩
    · rw [hpc] at hbefore
      cases hbefore
      have hreturns := PcMove.returns_of_inOmxCall hmove hin
      rw [hstays action rfl] at hreturns
      contradiction
    · unfold RpiUdpStream.State.pcOf at hpc ⊢
      rw [hthreads]
      exact hpc
  · push Not at hmine
    rcases hserver.pcOf_of_other hmine with hsame | ⟨hnone, _⟩
    · exact hsame.trans hpc
    · rw [hnone] at hpc
      contradiction

theorem mem_outstanding_of_call
    {s next : Omx.State} {outcome : CallOutcome} {request : Omx.Request}
    (hstep : s.step (.call outcome) = some next)
    (hrequest : request ∈ next.outstanding) :
    request ∈ s.outstanding ∨ ∃ rest, s.calls = .request request :: rest ∧
      next.calls = rest := by
  cases (Omx.Step.of_step hstep).2 with
  | failed => exact Or.inl hrequest
  | @performed call rest extra performed hcalls hperform =>
      cases call with
      | request made =>
          cases hperform
          rcases List.mem_append.mp hrequest with hold | hnew
          · exact Or.inl hold
          · right
            rw [List.mem_singleton.mp hnew]
            exact ⟨rest, hcalls, rfl⟩
      | wait component event =>
          obtain ⟨_, _, _, _, _, hnext⟩ := Omx.perform_wait_eq_some hperform
          subst hnext
          exact Or.inl hrequest
      | freeHandleEnd component =>
          cases hperform
          exact Or.inl (List.mem_of_mem_filter hrequest)
      | _ =>
          cases hperform
          exact Or.inl hrequest

theorem run_fillAwaited
    {reports : ℕ → DeviceReport} {nBufferSize : ℕ} {labels : List Label} {s : State}
    (horderly : Orderly reports nBufferSize labels)
    (hrun : (State.initial nBufferSize).run reports labels = some s)
    (hexit : s.server.exitCode ≠ some 1) : FillAwaited s := by
  apply runFrom_traceInvariant
    (fun trace state => Orderly reports nBufferSize trace →
      state.server.exitCode ≠ some 1 → FillAwaited state) ?_ ?_ hrun horderly hexit
  · intro _ _ hnone
    contradiction
  · intro trace state label next htrace hinv hstep horderly hexit hmem
    have hbefore := horderly.of_concat
    have hrunning := exitCode_of_step hstep
    have hawaited : FillAwaited state := hinv hbefore (by rw [hrunning]; simp)
    cases Step.of_step hstep with
    | @entered mover action calls server hentered hserver =>
        have hserverStep := (RpiUdpStream.Step.of_step hserver).2
        obtain ⟨tid, hpc, hcalls⟩ := hawaited hmem
        have hother : tid ≠ mover := by
          intro heq
          subst heq
          rw [calls_eq_nil_of_entered (run_callsInOmx htrace) hentered
            hserverStep] at hcalls
          contradiction
        refine ⟨tid, pcOf_of_calling hserverStep hpc rfl ?_, ?_⟩
        · intro found heq
          cases heq
          exact absurd rfl hother
        · exact (Function.update_of_ne hother _ _).trans hcalls
    | @moved label server hmoved hserver =>
        obtain ⟨tid, hpc, hcalls⟩ := hawaited hmem
        refine ⟨tid, pcOf_of_calling (RpiUdpStream.Step.of_step hserver).2 hpc rfl ?_,
          hcalls⟩
        intro action heq
        by_contra hreturns
        have hempty := (hmoved tid action heq).2.2 (by simpa using hreturns)
        rw [hcalls] at hempty
        contradiction
    | @called mover outcome session hsession =>
        have hcalling := (exitCode_of_call hsession).2.1
        have hgoing : session.exitCode = none := by
          rcases (exitCode_of_call hsession).2.2 with hnone | hone
          · exact hnone
          · exact absurd hone hexit
        obtain ⟨pc, hpc, hin⟩ := run_callsInOmx htrace mover hcalling
        rcases mem_outstanding_of_call hsession hmem with hold | ⟨rest, hfirst, hrest⟩
        · obtain ⟨tid, hwaits, hcalls⟩ := hawaited hold
          have hsame : mover = tid := hbefore.session_unique htrace
            (by rw [hrunning]; simp) hwaits rfl hpc
            (StreamPc.inSession_of_inOmxCall hin)
          subst hsame
          have hnone := hbefore.outstanding_eq_nil_of_wait htrace hcalls hsession hgoing
          have hstill : Omx.fillRequest ∈ state.outstanding := hold
          rw [hnone] at hstill
          contradiction
        · have hsuffix := run_calls_suffix htrace mover pc hpc
          have hcalls : state.calls mover = .request Omx.fillRequest :: rest := hfirst
          have hfilling : pc = .filling := by
            apply filling_of_mem_functionCalls
            exact hsuffix.subset (by rw [hcalls]; exact List.mem_cons_self)
          subst hfilling
          refine ⟨mover, hpc, ?_⟩
          rcases calls_of_filling htrace hpc with hall | hwait | hnone
          · rw [hcalls] at hall
            change Function.update state.calls mover session.calls mover = _
            rw [Function.update_self, hrest]
            exact (List.cons.inj hall).2
          · rw [hcalls] at hwait
            simp at hwait
          · exact absurd hnone hcalling
    | @answered index session hsession =>
        apply hawaited
        cases (Omx.Step.of_step hsession).2 with
        | answered => exact List.mem_of_mem_eraseIdx hmem
    | calledBack hsession =>
        apply hawaited
        cases (Omx.Step.of_step hsession).2 with
        | calledBack => exact hmem

/-! ## The buffer -/

/-- `content` is what the buffer that `encoder_output_buffer` points to holds,
from `pBuffer` for `nFilledLen` bytes. -/
structure BufferState where
  program : State
  content : List UInt8

def BufferState.initial (nBufferSize : ℕ) (content : List UInt8) : BufferState where
  program := .initial nBufferSize
  content := content

/-- A step of the program, or the encoder writes into the buffer. -/
inductive BufferLabel where
  | step (label : Label)
  | write (content : List UInt8)
  deriving DecidableEq

/-- The length that a thread passes to `udp_send_stream` is read from the
buffer's header. -/
def BufferState.reads (b : BufferState) : Label → Bool
  | .server (.stream _ (.fillEnd nFilledLen)) =>
      decide (nFilledLen = b.content.length)
  | _ => true

def BufferState.step (reports : ℕ → DeviceReport) (b : BufferState) :
    BufferLabel → Option BufferState
  | .step label =>
      if b.reads label then
        (b.program.step reports label).map fun program =>
          { b with program := program }
      else none
  | .write content =>
      if b.program.server.exitCode = none ∧
          Omx.fillRequest ∈ b.program.outstanding then
        some { b with content := content }
      else none

abbrev BufferState.run (reports : ℕ → DeviceReport) (b : BufferState)
    (labels : List BufferLabel) : Option BufferState :=
  runFrom (BufferState.step reports) b labels

def programLabels (labels : List BufferLabel) : List Label :=
  labels.filterMap fun label =>
    match label with
    | .step label => some label
    | .write _ => none

theorem programLabels_concat (labels : List BufferLabel) (label : BufferLabel) :
    programLabels (labels ++ [label]) =
      programLabels labels ++ programLabels [label] :=
  List.filterMap_append

/-- The encoder's answer puts the frame that the buffer then holds, and a
`sendto` takes what the buffer holds at that moment. -/
def BufferState.frameEvent (b : BufferState) (label : BufferLabel)
    (_next : BufferState) : Option (OneSlot.Event (List UInt8)) :=
  match label with
  | .step (.answer index) =>
      if b.program.outstanding[index]? = some Omx.fillRequest then
        some (.put b.content)
      else none
  | .step (.server (.stream tid (.sendto true))) =>
      (b.program.server.frameInHand tid).map fun len => .take (b.content.take len)
  | _ => none

def bufferEvents (reports : ℕ → DeviceReport) (start : BufferState)
    (labels : List BufferLabel) : List (OneSlot.Event (List UInt8)) :=
  observe (BufferState.step reports) BufferState.frameEvent start labels

/-- The frames that the encoder answered with, in order. -/
def framesEncoded (reports : ℕ → DeviceReport) (start : BufferState)
    (labels : List BufferLabel) : List (List UInt8) :=
  OneSlot.puts (bufferEvents reports start labels)

/-- The payloads of all datagrams that were sent, in order. -/
def payloadsSent (reports : ℕ → DeviceReport) (start : BufferState)
    (labels : List BufferLabel) : List (List UInt8) :=
  OneSlot.takes (bufferEvents reports start labels)

theorem run_program
    {reports : ℕ → DeviceReport} {start last : BufferState}
    {labels : List BufferLabel} (hrun : start.run reports labels = some last) :
    start.program.run reports (programLabels labels) = some last.program := by
  apply runFrom_traceInvariant
    (fun trace state =>
      start.program.run reports (programLabels trace) = some state.program)
    rfl ?_ hrun
  intro trace state label next _ hinv hnext
  rw [programLabels_concat]
  cases label with
  | step label =>
      simp only [BufferState.step, Option.ite_none_right_eq_some,
        Option.map_eq_some_iff] at hnext
      obtain ⟨_, program, hprogram, heq⟩ := hnext
      subst heq
      exact runFrom_concat_eq_some.mpr ⟨state.program, hinv, hprogram⟩
  | write content =>
      simp only [BufferState.step, Option.ite_none_right_eq_some,
        Option.some.injEq] at hnext
      obtain ⟨_, heq⟩ := hnext
      subst heq
      have hnone : programLabels [.write content] = [] := rfl
      rw [hnone, List.append_nil]
      exact hinv

/-! ## Who has the frame -/

/-- A frame is in the buffer and not yet sent: the encoder has answered, the
thread has not called `sendto`. -/
def State.HoldsFrame (s : State) (tid : ℕ) : Prop :=
  (s.server.frameInHand tid).isSome = true ∨
    (s.server.pcOf tid = some .filling ∧
      (s.calls tid = [] ∨
        (s.calls tid = [.wait .encoder .fillBufferDone] ∧
          Omx.fillRequest ∉ s.outstanding)))

inductive Custody (b : BufferState) : Option (List UInt8) → Prop where
  | encoder (hnone : ∀ tid, ¬ b.program.HoldsFrame tid) : Custody b none
  | thread {tid : ℕ} (hholds : b.program.HoldsFrame tid)
      (hlength : ∀ len, b.program.server.frameInHand tid = some len →
        len = b.content.length) : Custody b (some b.content)

theorem State.HoldsFrame.inSession
    {s : State} {tid : ℕ} (hholds : s.HoldsFrame tid) :
    ∃ pc, s.server.pcOf tid = some pc ∧ pc.inSession = true := by
  rcases hholds with hhand | ⟨hpc, _⟩
  · obtain ⟨len, hlen⟩ := Option.isSome_iff_exists.mp hhand
    obtain ⟨pc, hpc, hframe⟩ := Option.bind_eq_some_iff.mp hlen
    refine ⟨pc, hpc, ?_⟩
    cases pc <;> first | rfl | contradiction
  · exact ⟨.filling, hpc, rfl⟩

/-- A step leaves to a thread what it has of the frame. -/
def SameFrame (s next : State) (tid : ℕ) : Prop :=
  next.server.frameInHand tid = s.server.frameInHand tid ∧
    (next.HoldsFrame tid ↔ s.HoldsFrame tid)

theorem Custody.same
    {b next : BufferState} {slot : Option (List UInt8)} (hcustody : Custody b slot)
    (hcontent : next.content = b.content)
    (hsame : ∀ tid, SameFrame b.program next.program tid) : Custody next slot := by
  cases hcustody with
  | encoder hnone =>
      exact .encoder fun tid hholds => hnone tid ((hsame tid).2.mp hholds)
  | @thread tid hholds hlength =>
      rw [← hcontent]
      apply Custody.thread ((hsame tid).2.mpr hholds)
      intro len hlen
      rw [hcontent]
      exact hlength len ((hsame tid).1.symm.trans hlen)

theorem sameFrame_of_pcOf
    {s next : State} {tid : ℕ} (hpc : next.server.pcOf tid = s.server.pcOf tid)
    (hcalls : next.calls tid = s.calls tid)
    (hfill : Omx.fillRequest ∈ next.outstanding ↔ Omx.fillRequest ∈ s.outstanding) :
    SameFrame s next tid := by
  have hhand : next.server.frameInHand tid = s.server.frameInHand tid := by
    unfold RpiUdpStream.State.frameInHand
    rw [hpc]
  exact ⟨hhand, by simp only [State.HoldsFrame, hhand, hpc, hcalls, hfill]⟩

theorem holdsFrame_iff_of_pcOf
    {s : State} {tid : ℕ} {pc : StreamPc} (hpc : s.server.pcOf tid = some pc)
    (hne : pc ≠ .filling) : s.HoldsFrame tid ↔ pc.frameInHand.isSome = true := by
  simp [State.HoldsFrame, State.frameInHand_of_pcOf hpc, hpc, hne]

theorem sameFrame_of_quiet
    {s next : State} {tid : ℕ} {pc pc' : StreamPc}
    (hpc : s.server.pcOf tid = some pc) (hpc' : next.server.pcOf tid = some pc')
    (hhand : pc'.frameInHand = pc.frameInHand) (hne : pc ≠ .filling)
    (hne' : pc' ≠ .filling) : SameFrame s next tid := by
  constructor
  · rw [State.frameInHand_of_pcOf hpc, State.frameInHand_of_pcOf hpc', hhand]
  · rw [holdsFrame_iff_of_pcOf hpc hne, holdsFrame_iff_of_pcOf hpc' hne', hhand]

theorem sameFrame_of_other
    {s next : State} {label : RpiUdpStream.Label} {tid : ℕ}
    (hserver : RpiUdpStream.Step s.server label next.server)
    (hother : ∀ action, label ≠ .stream tid action)
    (hcalls : next.calls tid = s.calls tid)
    (houtstanding : next.outstanding = s.outstanding) : SameFrame s next tid := by
  rcases hserver.pcOf_of_other hother with hsame | ⟨hnone, hcreated⟩
  · exact sameFrame_of_pcOf hsame hcalls (by rw [houtstanding])
  · constructor
    · rw [State.frameInHand_of_pcOf hcreated]
      simp [RpiUdpStream.State.frameInHand, hnone, StreamPc.frameInHand]
    · rw [holdsFrame_iff_of_pcOf hcreated (by simp)]
      simp [State.HoldsFrame, RpiUdpStream.State.frameInHand, hnone,
        StreamPc.frameInHand]

theorem PcMove.keepsFrame
    {s : RpiUdpStream.State} {pc pc' : StreamPc} {action : StreamAction}
    (hmove : PcMove s pc action pc') (hstart : action ≠ .fillStart)
    (hend : ∀ len, action ≠ .fillEnd len) (hsend : action ≠ .sendto true) :
    pc'.frameInHand = pc.frameInHand ∧ pc ≠ .filling ∧ pc' ≠ .filling := by
  cases hmove with
  | isQuit => cases s.quitFlag <;> simp [StreamPc.frameInHand]
  | checked =>
      cases (isTimeout s.clock s.timer).2 <;> simp [StreamPc.frameInHand]
  | fillStart => contradiction
  | fillEnd => exact absurd rfl (hend _)
  | sent => contradiction
  | _ => simp [StreamPc.frameInHand]

/-! ## Steps -/

section Steps

variable {reports : ℕ → DeviceReport} {nBufferSize : ℕ} {labels : List Label}
variable {s next : State} {label : Label}

theorem Orderly.holder_unique
    (horderly : Orderly reports nBufferSize labels)
    (hrun : (State.initial nBufferSize).run reports labels = some s)
    (hexit : s.server.exitCode ≠ some 1) {tid other : ℕ} {pc : StreamPc}
    (hpc : s.server.pcOf tid = some pc) (hin : pc.inSession = true)
    (hholds : s.HoldsFrame other) : other = tid := by
  obtain ⟨pc', hpc', hin'⟩ := hholds.inSession
  exact horderly.session_unique hrun hexit hpc hin hpc' hin'

/-- While the encoder has a request to answer, no thread has a frame. -/
theorem Orderly.not_holdsFrame_of_outstanding
    (horderly : Orderly reports nBufferSize labels)
    (hrun : (State.initial nBufferSize).run reports labels = some s)
    (hexit : s.server.exitCode ≠ some 1)
    (hfill : Omx.fillRequest ∈ s.outstanding) (tid : ℕ) : ¬ s.HoldsFrame tid := by
  intro hholds
  obtain ⟨waiting, hpc, hcalls⟩ := run_fillAwaited horderly hrun hexit hfill
  have hsame := horderly.holder_unique hrun hexit hpc rfl hholds
  subst hsame
  rcases hholds with hhand | ⟨_, hempty | ⟨_, hanswered⟩⟩
  · rw [State.frameInHand_of_pcOf hpc] at hhand
    contradiction
  · rw [hcalls] at hempty
    contradiction
  · exact hanswered hfill

theorem sameFrame_entered
    {tid mover : ℕ} {action : StreamAction} {calls : List Omx.Call}
    {server : RpiUdpStream.State}
    (hcalls : enteredCalls (reports mover) action = some calls)
    (hserver : RpiUdpStream.Step s.server (.stream mover action) server) :
    SameFrame s
      { s with server := server, calls := Function.update s.calls mover calls }
      tid := by
  by_cases hmine : tid = mover
  · subst hmine
    rcases hserver.stream_cases with
      ⟨pc, pc', hpc, hpc', hmove⟩ | ⟨hfails, _⟩
    · cases hmove with
      | initStart => exact sameFrame_of_quiet hpc hpc' rfl (by simp) (by simp)
      | deinitStart => exact sameFrame_of_quiet hpc hpc' rfl (by simp) (by simp)
      | fillStart =>
          cases hcalls
          constructor
          · rw [State.frameInHand_of_pcOf hpc, State.frameInHand_of_pcOf hpc']
            rfl
          · rw [holdsFrame_iff_of_pcOf hpc (by simp)]
            simp [State.HoldsFrame, State.frameInHand_of_pcOf hpc',
              StreamPc.frameInHand, Omx.fillFrameBuffer]
      | _ => contradiction
    · rcases hfails with rfl | rfl <;> contradiction
  · apply sameFrame_of_other hserver
    · intro found heq
      cases heq
      exact hmine rfl
    · exact Function.update_of_ne hmine _ _
    · rfl

theorem sameFrame_called
    (horderly : Orderly reports nBufferSize labels)
    (hrun : (State.initial nBufferSize).run reports labels = some s)
    {tid mover : ℕ} {outcome : CallOutcome} {session : Omx.State}
    (hsession : (s.session (s.calls mover)).step (.call outcome) = some session)
    (hgoing : session.exitCode = none) :
    SameFrame s
      { s.afterSession session with
        calls := Function.update s.calls mover session.calls } tid := by
  have hexit : s.server.exitCode ≠ some 1 := by
    have hrunning : s.server.exitCode = none := (exitCode_of_call hsession).1
    rw [hrunning]
    simp
  have hcalling : s.calls mover ≠ [] := (exitCode_of_call hsession).2.1
  obtain ⟨pc, hpc, hin⟩ := run_callsInOmx hrun mover hcalling
  have hhand : pc.frameInHand = none := by
    cases pc <;> first | rfl | contradiction
  by_cases hmine : tid = mover
  · subst hmine
    have hcalls : Function.update s.calls tid session.calls tid = session.calls :=
      Function.update_self _ _ _
    by_cases hfilling : pc = .filling
    · subst hfilling
      constructor
      · rfl
      · have hnothing : s.server.frameInHand tid = none :=
          State.frameInHand_of_pcOf hpc
        have hbefore : s.HoldsFrame tid ↔
            s.calls tid = [.wait .encoder .fillBufferDone] ∧
              Omx.fillRequest ∉ s.outstanding := by
          simp [State.HoldsFrame, hnothing, hpc, hcalling]
        have hafter : State.HoldsFrame { s.afterSession session with
            calls := Function.update s.calls tid session.calls } tid ↔
            session.calls = [] ∨
              (session.calls = [.wait .encoder .fillBufferDone] ∧
                Omx.fillRequest ∉ session.outstanding) := by
          have hsame : RpiUdpStream.State.frameInHand
              { s.server with exitCode := session.exitCode } tid = none := hnothing
          have hstays : RpiUdpStream.State.pcOf
              { s.server with exitCode := session.exitCode } tid =
                some .filling := hpc
          simp [State.HoldsFrame, State.afterSession, hsame, hstays]
        rw [hbefore, hafter]
        rcases calls_of_filling hrun hpc with hall | hwait | hnone
        · have hrest : session.calls = [.wait .encoder .fillBufferDone] :=
            Omx.calls_of_step hall hsession hgoing
          have hasked : Omx.fillRequest ∈ session.outstanding :=
            Omx.outstanding_of_request hall hsession hgoing
          simp [hall, hrest, hasked, Omx.fillFrameBuffer]
        · have hrest : session.calls = [] := Omx.calls_of_step hwait hsession hgoing
          have hanswered :=
            horderly.outstanding_eq_nil_of_wait hrun hwait hsession hgoing
          simp [hwait, hrest, hanswered]
        · exact absurd hnone hcalling
    · exact sameFrame_of_quiet hpc hpc rfl hfilling hfilling
  · have hnone : ∀ state : State, state.server.pcOf tid = s.server.pcOf tid →
        ¬ state.HoldsFrame tid := by
      intro state hsame hholds
      obtain ⟨pc', hpc', hin'⟩ := hholds.inSession
      exact hmine (horderly.session_unique hrun hexit hpc
        (StreamPc.inSession_of_inOmxCall hin) (hsame.symm.trans hpc') hin')
    constructor
    · rfl
    · exact iff_of_false (hnone _ rfl) (hnone _ rfl)

theorem sameFrame_answered
    {tid index : ℕ} {session : Omx.State}
    (hsession : (s.session []).step (.answer index) = some session)
    (hother : s.outstanding[index]? ≠ some Omx.fillRequest) :
    SameFrame s (s.afterSession session) tid := by
  apply sameFrame_of_pcOf
  · rfl
  · rfl
  · cases (Omx.Step.of_step hsession).2 with
    | answered =>
        change Omx.fillRequest ∈ s.outstanding.eraseIdx index ↔ _
        rw [List.mem_eraseIdx_iff_getElem?, List.mem_iff_getElem?]
        constructor
        · rintro ⟨place, _, hplace⟩
          exact ⟨place, hplace⟩
        · rintro ⟨place, hplace⟩
          refine ⟨place, ?_, hplace⟩
          intro heq
          exact hother (heq ▸ hplace)

/-- The encoder's answer hands the frame to the thread that waits for it. -/
theorem holdsFrame_answered
    (horderly : Orderly reports nBufferSize labels)
    (hrun : (State.initial nBufferSize).run reports labels = some s)
    (hexit : s.server.exitCode ≠ some 1) {index : ℕ} {session : Omx.State}
    (hsession : (s.session []).step (.answer index) = some session)
    (hfill : s.outstanding[index]? = some Omx.fillRequest) :
    ∃ tid, (s.afterSession session).HoldsFrame tid ∧
      s.server.frameInHand tid = none := by
  obtain ⟨tid, hpc, hcalls⟩ :=
    run_fillAwaited horderly hrun hexit (List.mem_of_getElem? hfill)
  have hone := horderly.outstanding_le_one hrun hexit
  obtain ⟨hindex, _⟩ := List.getElem?_eq_some_iff.mp hfill
  refine ⟨tid, Or.inr ⟨hpc, Or.inr ⟨hcalls, ?_⟩⟩, State.frameInHand_of_pcOf hpc⟩
  cases (Omx.Step.of_step hsession).2 with
  | answered =>
      change Omx.fillRequest ∉ s.outstanding.eraseIdx index
      have hempty : s.outstanding.eraseIdx index = [] := by
        rw [← List.length_eq_zero_iff, List.length_eraseIdx_of_lt hindex]
        omega
      rw [hempty]
      exact List.not_mem_nil

/-! ## Moves of the server -/

theorem frameEvent_of_ne
    {b next : BufferState} {tid : ℕ} {action : StreamAction}
    (hsend : action ≠ .sendto true) :
    b.frameEvent (.step (.server (.stream tid action))) next = none := by
  cases action with
  | sendto ok =>
      cases ok with
      | true => contradiction
      | false => rfl
  | _ => rfl

theorem Custody.returned
    {b : BufferState} {slot : Option (List UInt8)} {server : RpiUdpStream.State}
    {tid len : ℕ} (hcustody : Custody b slot)
    (hpc : b.program.server.pcOf tid = some .filling)
    (hcalls : b.program.calls tid = []) (hpc' : server.pcOf tid = some (.sendCall len))
    (hlength : len = b.content.length) :
    Custody { b with program := { b.program with server := server } } slot := by
  have hhand : server.frameInHand tid = some len := State.frameInHand_of_pcOf hpc'
  cases hcustody with
  | encoder hnone => exact absurd (Or.inr ⟨hpc, Or.inl hcalls⟩) (hnone tid)
  | thread =>
      have hholds : State.HoldsFrame { b.program with server := server } tid :=
        Or.inl (by rw [hhand]; rfl)
      apply Custody.thread hholds
      intro found hfound
      rw [hhand] at hfound
      cases hfound
      exact hlength

theorem Custody.sent
    {b : BufferState} {slot : Option (List UInt8)} {server : RpiUdpStream.State}
    {tid len : ℕ} (hcustody : Custody b slot)
    (horderly : Orderly reports nBufferSize labels)
    (hrun : (State.initial nBufferSize).run reports labels = some b.program)
    (hexit : b.program.server.exitCode ≠ some 1)
    (hserver : RpiUdpStream.Step b.program.server (.stream tid (.sendto true)) server)
    (hpc : b.program.server.pcOf tid = some (.sendto len))
    (hpc' : server.pcOf tid = some .sendReturn) :
    ∃ slot',
      runFrom OneSlot.step slot
          (b.frameEvent (.step (.server (.stream tid (.sendto true))))
            { b with program := { b.program with server := server } }).toList =
        some slot' ∧
      Custody { b with program := { b.program with server := server } } slot' := by
  have hhand : b.program.server.frameInHand tid = some len :=
    State.frameInHand_of_pcOf hpc
  cases hcustody with
  | encoder hnone => exact absurd (Or.inl (by rw [hhand]; rfl)) (hnone tid)
  | @thread holder hholds hlength =>
      have hmine : holder = tid := horderly.holder_unique hrun hexit hpc rfl hholds
      subst hmine
      have hwhole : b.content.take len = b.content := by
        rw [hlength len hhand, List.take_length]
      refine ⟨none, ?_, .encoder ?_⟩
      · simp [BufferState.frameEvent, hhand, hwhole, OneSlot.step]
      · intro other hother
        by_cases hsame : other = holder
        · subst hsame
          rw [holdsFrame_iff_of_pcOf hpc' (by simp)] at hother
          contradiction
        · have hkept : SameFrame b.program
              { b.program with server := server } other := by
            apply sameFrame_of_other hserver
            · intro found heq
              cases heq
              exact hsame rfl
            · rfl
            · rfl
          exact hsame (horderly.holder_unique hrun hexit hpc rfl (hkept.2.mp hother))

theorem Custody.moved
    {b : BufferState} {slot : Option (List UInt8)} {server : RpiUdpStream.State}
    {moving : RpiUdpStream.Label}
    (horderly : Orderly reports nBufferSize labels)
    (hrun : (State.initial nBufferSize).run reports labels = some b.program)
    (hcustody : Custody b slot) (hreads : b.reads (.server moving) = true)
    (hmoved : ∀ tid action, moving = .stream tid action →
      action ≠ .omxError ∧ enteredCalls (reports tid) action = none ∧
        (returns action = true → b.program.calls tid = []))
    (hserver : b.program.server.step moving = some server) :
    ∃ slot',
      runFrom OneSlot.step slot
          (b.frameEvent (.step (.server moving))
            { b with program := { b.program with server := server } }).toList =
        some slot' ∧
      Custody { b with program := { b.program with server := server } } slot' := by
  obtain ⟨hrunning, hserverStep⟩ := RpiUdpStream.Step.of_step hserver
  have hexit : b.program.server.exitCode ≠ some 1 := by
    rw [hrunning]
    simp
  by_cases hstream : ∃ tid action, moving = .stream tid action
  · obtain ⟨tid, action, heq⟩ := hstream
    subst heq
    obtain ⟨_, hentered, hreturned⟩ := hmoved tid action rfl
    rcases hserverStep.stream_cases with
      ⟨pc, pc', hpc, hpc', hmove⟩ | ⟨hfails, _, hthreads, _⟩
    · by_cases hend : ∃ len, action = .fillEnd len
      · obtain ⟨len, heq⟩ := hend
        subst heq
        cases hmove with
        | fillEnd =>
            exact ⟨slot, rfl, hcustody.returned hpc (hreturned rfl) hpc'
              (of_decide_eq_true hreads)⟩
      · by_cases hsend : action = .sendto true
        · subst hsend
          cases hmove with
          | sent len =>
              exact hcustody.sent horderly hrun hexit hserverStep hpc hpc'
        · refine ⟨slot, ?_, hcustody.same rfl ?_⟩
          · rw [frameEvent_of_ne hsend]
            rfl
          · intro other
            by_cases hmine : other = tid
            · subst hmine
              have hstart : action ≠ .fillStart := by
                rintro rfl
                contradiction
              obtain ⟨hhand, hne, hne'⟩ := PcMove.keepsFrame hmove hstart
                (fun len heq => hend ⟨len, heq⟩) hsend
              exact sameFrame_of_quiet hpc hpc' hhand hne hne'
            · apply sameFrame_of_other hserverStep
              · intro found heq
                cases heq
                exact hmine rfl
              · rfl
              · rfl
    · refine ⟨slot, ?_, hcustody.same rfl ?_⟩
      · rcases hfails with rfl | rfl <;> rfl
      · intro other
        apply sameFrame_of_pcOf
        · unfold RpiUdpStream.State.pcOf
          rw [hthreads]
        · rfl
        · rfl
  · push Not at hstream
    have hevent : b.frameEvent (.step (.server moving))
        { b with program := { b.program with server := server } } = none := by
      cases moving with
      | stream tid action => exact absurd rfl (hstream tid action)
      | _ => rfl
    rw [hevent]
    refine ⟨slot, rfl, hcustody.same rfl ?_⟩
    intro tid
    apply sameFrame_of_other hserverStep (hstream tid)
    · rfl
    · rfl

theorem Custody.answered
    {b : BufferState} {slot : Option (List UInt8)} {index : ℕ} {session : Omx.State}
    (horderly : Orderly reports nBufferSize labels)
    (hrun : (State.initial nBufferSize).run reports labels = some b.program)
    (hexit : b.program.server.exitCode ≠ some 1) (hcustody : Custody b slot)
    (hsession : (b.program.session []).step (.answer index) = some session) :
    ∃ slot',
      runFrom OneSlot.step slot
          (b.frameEvent (.step (.answer index))
            { b with program := b.program.afterSession session }).toList =
        some slot' ∧
      Custody { b with program := b.program.afterSession session } slot' := by
  by_cases hfill : b.program.outstanding[index]? = some Omx.fillRequest
  · have hnone := horderly.not_holdsFrame_of_outstanding hrun hexit
      (List.mem_of_getElem? hfill)
    obtain ⟨tid, hholds, hhand⟩ :=
      holdsFrame_answered horderly hrun hexit hsession hfill
    cases hcustody with
    | thread hholder => exact absurd hholder (hnone _)
    | encoder =>
        refine ⟨some b.content, ?_, .thread hholds ?_⟩
        · simp [BufferState.frameEvent, hfill, OneSlot.step]
        · intro len hlen
          have hsame : b.program.server.frameInHand tid = some len := hlen
          rw [hhand] at hsame
          contradiction
  · refine ⟨slot, ?_, hcustody.same rfl fun _ => sameFrame_answered hsession hfill⟩
    simp [BufferState.frameEvent, hfill]

theorem Custody.wrote
    {b : BufferState} {slot : Option (List UInt8)} {content : List UInt8}
    (horderly : Orderly reports nBufferSize labels)
    (hrun : (State.initial nBufferSize).run reports labels = some b.program)
    (hexit : b.program.server.exitCode ≠ some 1) (hcustody : Custody b slot)
    (hfill : Omx.fillRequest ∈ b.program.outstanding) :
    Custody { b with content := content } slot := by
  have hnone := horderly.not_holdsFrame_of_outstanding hrun hexit hfill
  cases hcustody with
  | thread hholder => exact absurd hholder (hnone _)
  | encoder => exact .encoder hnone

/-- The buffer is a slot that the encoder's answers fill and the sends empty. -/
theorem Custody.step
    {b next : BufferState} {slot : Option (List UInt8)} {label : BufferLabel}
    (horderly : Orderly reports nBufferSize labels)
    (hrun : (State.initial nBufferSize).run reports labels = some b.program)
    (hcustody : Custody b slot) (hstep : b.step reports label = some next) :
    ∃ slot',
      runFrom OneSlot.step slot (b.frameEvent label next).toList = some slot' ∧
      (next.program.server.exitCode ≠ some 1 → Custody next slot') := by
  cases label with
  | write content =>
      simp only [BufferState.step, Option.ite_none_right_eq_some,
        Option.some.injEq] at hstep
      obtain ⟨⟨hrunning, hfill⟩, heq⟩ := hstep
      subst heq
      exact ⟨slot, rfl, fun hexit => hcustody.wrote horderly hrun hexit hfill⟩
  | step label =>
      simp only [BufferState.step, Option.ite_none_right_eq_some,
        Option.map_eq_some_iff] at hstep
      obtain ⟨hreads, program, hprogram, heq⟩ := hstep
      subst heq
      have hexit : b.program.server.exitCode ≠ some 1 := by
        rw [exitCode_of_step hprogram]
        simp
      cases Step.of_step hprogram with
      | @entered tid action calls server hentered hserver =>
          have hserverStep := (RpiUdpStream.Step.of_step hserver).2
          have hsend : action ≠ .sendto true := by
            rintro rfl
            contradiction
          refine ⟨slot, ?_, fun _ => hcustody.same rfl fun _ =>
            sameFrame_entered hentered hserverStep⟩
          rw [frameEvent_of_ne hsend]
          rfl
      | moved hmoved hserver =>
          obtain ⟨slot', hevent, hnext⟩ :=
            hcustody.moved horderly hrun hreads hmoved hserver
          exact ⟨slot', hevent, fun _ => hnext⟩
      | @called tid outcome session hsession =>
          refine ⟨slot, rfl, fun hafter => hcustody.same rfl fun _ =>
            sameFrame_called horderly hrun hsession ?_⟩
          rcases (exitCode_of_call hsession).2.2 with hnone | hone
          · exact hnone
          · exact absurd hone hafter
      | answered hsession =>
          obtain ⟨slot', hevent, hnext⟩ :=
            hcustody.answered horderly hrun hexit hsession
          exact ⟨slot', hevent, fun _ => hnext⟩
      | calledBack hsession =>
          refine ⟨slot, rfl, fun _ => hcustody.same rfl fun _ => ?_⟩
          cases (Omx.Step.of_step hsession).2 with
          | calledBack =>
              apply sameFrame_of_pcOf
              · rfl
              · rfl
              · rfl

end Steps

theorem Orderly.of_programLabels_concat
    {reports : ℕ → DeviceReport} {nBufferSize : ℕ} {labels : List BufferLabel}
    {label : BufferLabel}
    (horderly : Orderly reports nBufferSize (programLabels (labels ++ [label]))) :
    Orderly reports nBufferSize (programLabels labels) := by
  rw [programLabels_concat] at horderly
  cases label with
  | step label => exact horderly.of_concat
  | write content => simpa [programLabels] using horderly

theorem run_custody
    {reports : ℕ → DeviceReport} {nBufferSize : ℕ} {content : List UInt8}
    {labels : List BufferLabel} {b : BufferState}
    (hrun : (BufferState.initial nBufferSize content).run reports labels = some b)
    (horderly : Orderly reports nBufferSize (programLabels labels)) :
    ∃ slot,
      runFrom OneSlot.step none
          (bufferEvents reports (.initial nBufferSize content) labels) = some slot ∧
      (b.program.server.exitCode ≠ some 1 → Custody b slot) := by
  apply runFrom_traceInvariant
    (fun trace state => Orderly reports nBufferSize (programLabels trace) →
      ∃ slot,
        runFrom OneSlot.step none
            (bufferEvents reports (.initial nBufferSize content) trace) = some slot ∧
        (state.program.server.exitCode ≠ some 1 → Custody state slot))
    ?_ ?_ hrun horderly
  · intro _
    refine ⟨none, rfl, fun _ => .encoder ?_⟩
    intro tid hholds
    obtain ⟨pc, hpc, _⟩ := hholds.inSession
    contradiction
  · intro trace state label next htrace hinv hstep horderly
    have hbefore := horderly.of_programLabels_concat
    obtain ⟨slot, hevents, hcustody⟩ := hinv hbefore
    have hexit : state.program.server.exitCode ≠ some 1 := by
      cases label with
      | step label =>
          simp only [BufferState.step, Option.ite_none_right_eq_some,
            Option.map_eq_some_iff] at hstep
          obtain ⟨_, program, hprogram, _⟩ := hstep
          rw [exitCode_of_step hprogram]
          simp
      | write content =>
          simp only [BufferState.step, Option.ite_none_right_eq_some] at hstep
          rw [hstep.1.1]
          simp
    obtain ⟨slot', hnext, hcustody'⟩ :=
      (hcustody hexit).step hbefore (run_program htrace) hstep
    refine ⟨slot', ?_, hcustody'⟩
    unfold bufferEvents
    rw [observe_concat htrace hstep]
    exact runFrom_append_eq_some.mpr ⟨slot, hevents, hnext⟩

/-- Whatever the encoder writes in an orderly run, the payloads sent are the
frames it answered with, each once, whole and in their order.  One frame may be
left to send. -/
theorem payloads_are_frames
    {reports : ℕ → DeviceReport} {nBufferSize : ℕ} {content : List UInt8}
    {labels : List BufferLabel} {b : BufferState}
    (hrun : (BufferState.initial nBufferSize content).run reports labels = some b)
    (horderly : Orderly reports nBufferSize (programLabels labels)) :
    ∃ unsent : Option (List UInt8),
      framesEncoded reports (.initial nBufferSize content) labels =
        payloadsSent reports (.initial nBufferSize content) labels ++
          unsent.toList := by
  obtain ⟨slot, hevents, _⟩ := run_custody hrun horderly
  exact ⟨slot, OneSlot.puts_eq_takes_append hevents⟩

def writtenFrame (tid : ℕ) (content : List UInt8) : List BufferLabel :=
  [.step (.server (.stream tid .fillStart)), .step (.call tid (.returned 0)),
    .write content, .step (.answer 0), .step (.call tid (.returned 0)),
    .step (.server (.stream tid (.fillEnd content.length)))]

/-- The encoder writes its second frame over the first, which has been sent. -/
def twoFramesWritten : List BufferLabel :=
  (promptRun ([.main (.setup true)] ++ serveVideoRequest ⟨1, 40000⟩ ++
      initSession 0 ++ [.stream 0 .isQuit])).map .step ++
    writtenFrame 0 [0, 0, 0, 1, 101] ++
    (promptRun [.stream 0 .sendStart, .stream 0 .writePort, .stream 0 (.sendto true),
      .stream 0 .sendEnd, .stream 0 .timeoutStart, .stream 0 .isTimeout,
      .stream 0 .isQuit]).map .step ++
    writtenFrame 0 [0, 0, 1]

theorem twoFramesWritten_content :
    ((BufferState.initial 65536 []).run onBoard twoFramesWritten).map (·.content) =
      some [0, 0, 1] := by
  decide +kernel

theorem twoFramesWritten_orderly :
    Orderly onBoard 65536 (programLabels twoFramesWritten) where
  guard := by decide +kernel
  honest := by decide +kernel

theorem twoFramesWritten_sent :
    ∃ unsent : Option (List UInt8),
      framesEncoded onBoard (.initial 65536 []) twoFramesWritten =
        payloadsSent onBoard (.initial 65536 []) twoFramesWritten ++
          unsent.toList := by
  obtain ⟨b, hrun, _⟩ := Option.map_eq_some_iff.mp twoFramesWritten_content
  exact payloads_are_frames hrun twoFramesWritten_orderly

example :
    framesEncoded onBoard (.initial 65536 []) twoFramesWritten =
        [[0, 0, 0, 1, 101], [0, 0, 1]] ∧
      payloadsSent onBoard (.initial 65536 []) twoFramesWritten =
        [[0, 0, 0, 1, 101]] := by
  decide +kernel

end Whole

end RpiUdpStream
