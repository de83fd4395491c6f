import RpiUdpStream.Handshake

/-!
# What a session sets up and leaves behind

The set-up at the return of `omx_h264_init` and of `omx_h264_deinit`, in every
session and for every order of callbacks, for components whose reported port
ranges fit in 32 bits and cover the ports that `OMX_GetHandle` leaves enabled.
-/

namespace RpiUdpStream

namespace Omx

open LabelledRun

def DeviceReport.Covers (report : DeviceReport) : Prop :=
  ∀ component,
    (∀ domain, (report.portRange component domain).Fits) ∧
      ∀ port ∈ report.enabledPorts.get component,
        ∃ domain, (report.portRange component domain).Covers port

theorem DeviceReport.Covers.leftEnabled
    {report : DeviceReport} (hcovers : report.Covers) (component : Component) :
    report.leftEnabled component = ∅ := by
  apply Finset.filter_eq_empty_iff.mpr
  intro port hport hleft
  rcases hcovers component with ⟨hfits, hranges⟩
  rcases hranges port hport with ⟨domain, hdomain⟩
  apply hleft
  apply List.mem_flatMap.mpr
  exact ⟨domain, by cases domain <;> simp,
    (PortRange.mem_ports (hfits domain) port).mpr hdomain⟩

def Setup.streaming (earlier : ℕ) : Setup where
  component :=
    ⟨⟨.held, .executing, {70, 71}⟩, ⟨.held, .executing, {200, 201}⟩,
      ⟨.held, .executing, {240}⟩⟩
  allocatedBuffers := earlier + 1
  encoderOutputBuffer := some earlier
  freedBuffers := List.range earlier
  capturing := true

/-- The set-up after a number of sessions: every handle is freed, every port
disabled, and each buffer was freed once. -/
def Setup.cleanedUp (completed : ℕ) : Setup where
  component := .const ⟨.freed, .loaded, ∅⟩
  allocatedBuffers := completed
  encoderOutputBuffer := if completed = 0 then none else some (completed - 1)
  freedBuffers := List.range completed
  capturing := false

theorem DeviceReport.Covers.afterInit
    {report : DeviceReport} (hcovers : report.Covers) (earlier : ℕ) :
    report.afterInit (.cleanedUp earlier) = .streaming earlier := by
  have hcamera : insert 70 (insert 71 (∅ : Finset UInt32)) = {70, 71} := by decide
  have hencoder : insert 201 (insert 200 (∅ : Finset UInt32)) = {200, 201} := by
    decide
  have hnullSink : insert 240 (∅ : Finset UInt32) = {240} := by decide
  simp only [DeviceReport.afterInit, hcovers.leftEnabled, hcamera, hencoder,
    hnullSink]
  rfl

theorem DeviceReport.Covers.afterDeinit
    {report : DeviceReport} (hcovers : report.Covers) (earlier : ℕ) :
    report.afterDeinit (.cleanedUp earlier) = .cleanedUp (earlier + 1) := by
  have hcamera : ((insert 70 (insert 71 (∅ : Finset UInt32))).erase 71).erase 70 =
      ∅ := by
    decide
  have hencoder :
      ((insert 201 (insert 200 (∅ : Finset UInt32))).erase 200).erase 201 = ∅ := by
    decide
  have hnullSink : (insert 240 (∅ : Finset UInt32)).erase 240 = ∅ := by decide
  simp only [DeviceReport.afterDeinit, hcovers.leftEnabled, hcamera, hencoder,
    hnullSink, Setup.cleanedUp, List.range_succ]
  rfl

theorem setupAfter_cleanedUp
    {sessions : List Session}
    (hcovers : ∀ session ∈ sessions, session.report.Covers) (earlier : ℕ) :
    setupAfter (.cleanedUp earlier) sessions =
      .cleanedUp (earlier + sessions.length) := by
  induction sessions generalizing earlier with
  | nil => rfl
  | cons session rest ih =>
      have hsession := (hcovers session (by simp)).afterDeinit earlier
      have hrest := ih (fun other hother => hcovers other (by simp [hother]))
        (earlier + 1)
      rw [setupAfter, List.foldl_cons, hsession]
      rw [setupAfter] at hrest
      rw [hrest, List.length_cons]
      congr 1
      omega

/-! ## The state at a position of the program -/

theorem Follows.eq_of_split
    {program : List Call} {s : State} {sync reached : Sync}
    (hfollows : Follows program s sync) (executed : List Call)
    (hsplit : program = executed ++ s.calls)
    (hexecuted : Sync.initial.run executed = some reached) : sync = reached := by
  rcases hfollows with ⟨found, hfound, hrun⟩
  have hsame : found = executed :=
    List.append_cancel_right (hfound.symm.trans hsplit)
  rw [hsame, hexecuted] at hrun
  exact (Option.some.inj hrun).symm

theorem Refines.quiet
    {s : State} {sync : Sync} {phase : Handshake} (hrefines : Refines s sync phase)
    (hpending : sync.pending = none) :
    s.setup = sync.setup ∧ s.outstanding = [] ∧
      ∀ component, (s.flags.get component).isSome = sync.flagged.get component := by
  have hidle : phase = .idle := Handshake.eq_idle (hrefines.pending ▸ hpending)
  subst hidle
  refine ⟨hrefines.setup, hrefines.outstanding, ?_⟩
  intro component
  have hflags := congrArg Option.isSome (hrefines.flags component)
  rw [Option.isSome_map] at hflags
  rw [hflags]
  cases sync.flagged.get component <;> rfl

theorem run_before
    (before : List Session)
    (hcovers : ∀ session ∈ before, session.report.Covers) :
    Sync.initial.run (before.flatMap Session.calls) =
      some ⟨.cleanedUp before.length, .const false, none⟩ := by
  have hsetup := setupAfter_cleanedUp hcovers 0
  rw [Nat.zero_add] at hsetup
  rw [run_program, ← hsetup]
  rfl

theorem boardReport_covers : boardReport.Covers := by
  intro component
  constructor
  · intro domain
    cases component <;> cases domain <;> decide
  · intro port hport
    cases component with
    | camera =>
        have hports : port = 70 ∨ port = 71 ∨ port = 72 ∨ port = 73 := by
          simpa [boardReport, PerComponent.get] using hport
        rcases hports with rfl | rfl | rfl | rfl
        · exact ⟨.video, by decide⟩
        · exact ⟨.video, by decide⟩
        · exact ⟨.video, by decide⟩
        · exact ⟨.other, by decide⟩
    | encoder =>
        have hports : port = 200 ∨ port = 201 := by
          simpa [boardReport, PerComponent.get] using hport
        rcases hports with rfl | rfl
        · exact ⟨.image, by decide⟩
        · exact ⟨.image, by decide⟩
    | nullSink =>
        have hports : port = 240 ∨ port = 241 ∨ port = 242 := by
          simpa [boardReport, PerComponent.get] using hport
        rcases hports with rfl | rfl | rfl
        · exact ⟨.video, by decide⟩
        · exact ⟨.image, by decide⟩
        · exact ⟨.audio, by decide⟩

end Omx

end RpiUdpStream
