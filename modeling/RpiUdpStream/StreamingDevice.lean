import RpiUdpStream.ComponentRules
import RpiUdpStream.ThreadReaping
import RpiUdpStream.WholeSessions

/-!
# The components while frames are sent and after the server has quit

What the server does and what the components are in at that time.  While a
thread sends a frame the pipeline executes and no request is outstanding, so
that the encoder does not write the buffer that is being sent; between sessions
nothing is held; and a server that quits with one thread leaves nothing behind.
-/

namespace RpiUdpStream

namespace Whole

open LabelledRun
open Omx (DeviceReport Session)

/-- The pipeline runs, and the static pointer is to a buffer that is not
freed. -/
structure Streaming (setup : Omx.Setup) : Prop where
  executing : ∀ component, setup.handle component = .held ∧
    (setup.component.get component).omxState = .executing
  camera : 70 ∈ setup.component.camera.enabledPorts ∧
    71 ∈ setup.component.camera.enabledPorts
  encoder : 200 ∈ setup.component.encoder.enabledPorts ∧
    201 ∈ setup.component.encoder.enabledPorts
  nullSink : 240 ∈ setup.component.nullSink.enabledPorts
  buffer : ∃ buffer, setup.encoderOutputBuffer = some buffer ∧
    buffer < setup.allocatedBuffers ∧ buffer ∉ setup.freedBuffers
  capturing : setup.capturing = true

theorem streaming_afterInit
    (report : DeviceReport) {setup : Omx.Setup}
    (hfreed : setup.freedBuffers = List.range setup.allocatedBuffers) :
    Streaming (report.afterInit setup) := by
  constructor
  · intro component
    cases component <;> exact ⟨rfl, rfl⟩
  · simp [DeviceReport.afterInit]
  · simp [DeviceReport.afterInit]
  · simp [DeviceReport.afterInit]
  · refine ⟨setup.allocatedBuffers, rfl, Nat.lt_succ_self _, ?_⟩
    simp [DeviceReport.afterInit, hfreed]
  · rfl

theorem freedBuffers_setupAfter
    {setup : Omx.Setup} (sessions : List Session)
    (hfreed : setup.freedBuffers = List.range setup.allocatedBuffers) :
    (Omx.setupAfter setup sessions).freedBuffers =
      List.range (Omx.setupAfter setup sessions).allocatedBuffers := by
  induction sessions generalizing setup with
  | nil => exact hfreed
  | cons session rest ih =>
      apply ih
      simp [DeviceReport.afterDeinit, hfreed, List.range_succ]

theorem run_to_frame
    (earlier : List Session) (report : DeviceReport) (frames : ℕ) :
    Omx.Sync.initial.run (earlier.flatMap Session.calls ++
        Omx.omxH264Init report ++
          (List.replicate frames Omx.fillFrameBuffer).flatten) =
      some ⟨report.afterInit (Omx.setupAfter .initial earlier), .const true,
        none⟩ := by
  have hrests := Omx.rests_setupAfter earlier Omx.Sync.rests_initial
  have hinit := runFrom_append_eq_some.mpr
    ⟨_, Omx.run_program earlier, hrests.run_omxH264Init report⟩
  exact runFrom_append_eq_some.mpr
    ⟨_, hinit, Omx.run_frames report (Omx.setupAfter .initial earlier) frames⟩

theorem callsAhead_of_not_inOmxCall
    {pc : StreamPc} (hout : pc.inOmxCall = false) :
    callsAhead pc = Omx.omxH264Deinit := by
  cases pc <;> first | rfl | contradiction

theorem calls_eq_nil
    {s : State} {tid : ℕ} {pc : StreamPc} (hinv : CallsInOmx s)
    (hpc : s.server.pcOf tid = some pc) (hout : pc.inOmxCall = false) :
    s.calls tid = [] := by
  by_contra hcalls
  obtain ⟨found, hfound, hin⟩ := hinv tid hcalls
  rw [hpc] at hfound
  cases hfound
  rw [hout] at hin
  contradiction

/-- While a thread is in its session and in no function of `h264.cpp`, as it is
from the return of `fill_frame_buffer` to the return of `udp_send_stream`, the
pipeline runs and no component has a request to answer: nothing writes the
buffer that is sent, nor is it freed.  Threads start their sessions alone, and
the components only answer what was asked. -/
theorem buffer_quiet_while_sending
    {reports : ℕ → DeviceReport} {nBufferSize : ℕ} {labels : List Label} {s : State}
    (hguard : EveryStep (State.step reports) StartsAlone
      (State.initial nBufferSize) labels)
    (hhonest : ∀ label ∈ omxLabels labels, label.honest = true)
    (hrun : (State.initial nBufferSize).run reports labels = some s)
    (hexit : s.server.exitCode ≠ some 1) {tid : ℕ} {pc : StreamPc}
    (hpc : s.server.pcOf tid = some pc) (hin : pc.inSession = true)
    (hout : pc.inOmxCall = false) :
    Streaming s.setup ∧ s.outstanding = [] ∧
      ∀ component, (s.flags.get component).isSome = true := by
  obtain ⟨sessions, program, calls, htracks⟩ := run_tracks hguard hrun hexit
  obtain ⟨_, earlier, frames, hsessions, _⟩ :=
    htracks.stage.of_inSession hpc hin
  have homx := htracks.run_within hpc hin
  rw [calls_eq_nil (run_callsInOmx hrun) hpc hout,
    callsAhead_of_not_inOmxCall hout] at homx
  obtain ⟨phase, _, sync, hfollows, hrefines⟩ := Omx.run_inStep hhonest homx
  have hsync : sync = ⟨(reports tid).afterInit (Omx.setupAfter .initial earlier),
      .const true, none⟩ := by
    apply hfollows.eq_of_split _ ?_ (run_to_frame earlier (reports tid) frames)
    rw [hsessions, flatMap_calls_concat]
    rfl
  subst hsync
  obtain ⟨hquiet, houtstanding, hgroups⟩ := hrefines.quiet rfl
  have hsetup : s.setup =
      (reports tid).afterInit (Omx.setupAfter .initial earlier) := hquiet
  have hfreed : (Omx.setupAfter .initial earlier).freedBuffers =
      List.range (Omx.setupAfter .initial earlier).allocatedBuffers :=
    freedBuffers_setupAfter earlier rfl
  constructor
  · rw [hsetup]
    exact streaming_afterInit (reports tid) hfreed
  · refine ⟨houtstanding, ?_⟩
    intro component
    have hgroup := hgroups component
    rw [PerComponent.get_const] at hgroup
    exact hgroup

def sendingOnBoard : List Label :=
  promptRun ([.main (.setup true)] ++ serveVideoRequest ⟨1, 40000⟩ ++
    initSession 0 ++
      [.stream 0 .isQuit, .stream 0 .fillStart, .stream 0 (.fillEnd 1000),
        .stream 0 .sendStart, .stream 0 .writePort])

theorem sendingOnBoard_sendto :
    ((State.initial 65536).run onBoard sendingOnBoard).map
        (fun s => (s.server.exitCode, s.server.pcOf 0)) =
      some (none, some (.sendto 1000)) := by
  decide +kernel

theorem sendingOnBoard_quiet :
    ∃ s, (State.initial 65536).run onBoard sendingOnBoard = some s ∧
      Streaming s.setup ∧ s.outstanding = [] := by
  rcases Option.map_eq_some_iff.mp sendingOnBoard_sendto with ⟨s, hrun, hstate⟩
  obtain ⟨hexit, hpc⟩ := Prod.mk.inj hstate
  obtain ⟨hstreaming, houtstanding, _⟩ := buffer_quiet_while_sending
    (by decide +kernel) (by decide +kernel) hrun (by rw [hexit]; simp) hpc rfl rfl
  exact ⟨s, hrun, hstreaming, houtstanding⟩

/-- Between sessions the components are as they were before the first one, but
for the buffers that were allocated and freed. -/
theorem noneInSession_clean
    {reports : ℕ → DeviceReport} {nBufferSize : ℕ} {labels : List Label} {s : State}
    (hcovers : ∀ tid, (reports tid).Covers)
    (hguard : EveryStep (State.step reports) StartsAlone
      (State.initial nBufferSize) labels)
    (hhonest : ∀ label ∈ omxLabels labels, label.honest = true)
    (hrun : (State.initial nBufferSize).run reports labels = some s)
    (hexit : s.server.exitCode ≠ some 1) (hnone : NoneInSession s.server) :
    s.setup = .cleanedUp (labels.countP StartsSession) ∧ s.outstanding = [] ∧
      ∀ component, s.flags.get component = none := by
  obtain ⟨sessions, program, calls, htracks⟩ := run_tracks hguard hrun hexit
  have hbetween : program = sessions.flatMap Session.calls ∧ calls = [] := by
    cases htracks.stage with
    | between => exact ⟨rfl, rfl⟩
    | within hpc hin =>
        rw [hnone _ _ hpc] at hin
        contradiction
  obtain ⟨hprogram, hcalls⟩ := hbetween
  subst hprogram hcalls
  obtain ⟨phase, _, sync, hfollows, hrefines⟩ :=
    Omx.run_inStep hhonest htracks.runs
  have hsync : sync = ⟨.cleanedUp sessions.length, .const false, none⟩ :=
    hfollows.eq_of_split _ (List.append_nil _).symm
      (Omx.run_before sessions (htracks.covers hcovers))
  subst hsync
  obtain ⟨hquiet, houtstanding, hgroups⟩ := hrefines.quiet rfl
  have hsetup : s.setup = .cleanedUp sessions.length := hquiet
  refine ⟨hsetup.trans (by rw [htracks.count]), houtstanding, ?_⟩
  intro component
  have hmissing : (s.flags.get component).isSome = false := by
    have hgroup := hgroups component
    rw [PerComponent.get_const] at hgroup
    exact hgroup
  simpa using hmissing

end Whole

end RpiUdpStream
