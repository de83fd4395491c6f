import RpiUdpStream.SessionLifecycle
import RpiUdpStream.SessionOverlap
import RpiUdpStream.WholeProgram

/-!
# Sessions that do not overlap are sessions one after the other

Where no thread enters `omx_h264_init` while another one is in its session, the
components see a run of the session machine: the sessions of the threads in the
order in which they start, each with the frames that its thread asks for.  The
number of frames is known only when a thread leaves its loop, so the program of
the session machine grows with the run.
-/

namespace RpiUdpStream

namespace Omx

open LabelledRun

/-- The session machine with a program that need not consist of whole
sessions. -/
def State.start (program : List Call) : State where
  calls := program
  setup := .initial
  flags := .const none
  outstanding := []
  exitCode := none

def State.append (s : State) (calls : List Call) : State :=
  { s with calls := s.calls ++ calls }

/-- What a session does depends on its next call only. -/
theorem State.step_append
    {s next : State} {label : Label} (hstep : s.step label = some next)
    (hrunning : next.exitCode = none) (calls : List Call) :
    (s.append calls).step label = some (next.append calls) := by
  rcases Step.of_step hstep with ⟨hstill, hinversion⟩
  have hexit : (s.append calls).exitCode = none := hstill
  cases hinversion with
  | failed => contradiction
  | @performed call rest extra performed hcalls hperform =>
      have hfirst : (s.append calls).calls = call :: (rest ++ calls) := by
        simp [State.append, hcalls]
      have hsame : (s.append calls).perform extra call =
          some { performed with calls := s.calls ++ calls } := by
        cases call with
        | wait component event =>
            simp only [State.perform, Option.bind_eq_some_iff,
              Option.map_eq_some_iff] at hperform
            rcases hperform with ⟨flags, hflags, result, hwait, rfl⟩
            have hget : (s.append calls).flags.get component = some flags := hflags
            simp only [State.perform, hget, Option.bind_some, hwait,
              Option.map_some]
            rfl
        | _ =>
            cases hperform
            rfl
      simp only [State.step, hexit, hfirst, hsame]
      rfl
  | @answered index request hrequest hhandle =>
      have hfound : (s.append calls).outstanding[index]? = some request := hrequest
      have hheld : (s.append calls).setup.handle request.component ≠ .freed :=
        hhandle
      simp only [State.step, hexit, hfound, if_neg hheld]
      rfl
  | @calledBack component callback hhandle =>
      have hheld : (s.append calls).setup.handle component ≠ .freed := hhandle
      simp only [State.step, hexit, if_neg hheld]
      rfl

theorem State.exitCode_of_step
    {s next : State} {label : Label} (hstep : s.step label = some next) :
    s.exitCode = none :=
  (Step.of_step hstep).1

theorem State.run_append
    {s last : State} {labels : List Label} (hrun : s.run labels = some last)
    (hrunning : last.exitCode = none) (calls : List Call) :
    (s.append calls).run labels = some (last.append calls) := by
  apply runFrom_traceInvariant
    (fun trace state => state.exitCode = none →
      (s.append calls).run trace = some (state.append calls)) ?_ ?_ hrun hrunning
  · intro _
    rfl
  · intro trace middle label next _ hinv hnext hgoing
    exact runFrom_concat_eq_some.mpr
      ⟨middle.append calls, hinv (State.exitCode_of_step hnext),
        State.step_append hnext hgoing calls⟩

theorem State.step_of_append
    {s next : State} {label : Label} {calls : List Call}
    (hstep : (s.append calls).step label = some next)
    (hfirst : s.calls = [] → ∀ outcome, label ≠ .call outcome)
    (hrunning : next.exitCode = none) :
    ∃ found, s.step label = some found ∧ next = found.append calls := by
  have hdefined : ∀ found, s.step label = some found → found.exitCode = none →
      ∃ found, s.step label = some found ∧ next = found.append calls := by
    intro found hfound hexit
    have hsame := State.step_append hfound hexit calls
    rw [hstep] at hsame
    exact ⟨found, hfound, Option.some.inj hsame⟩
  obtain ⟨hstill, hinversion⟩ := Step.of_step hstep
  have hexit : s.exitCode = none := hstill
  cases hinversion with
  | failed => contradiction
  | @performed call rest extra performed hcalls hperform =>
      cases hmine : s.calls with
      | nil => exact absurd rfl (hfirst hmine _)
      | cons first others =>
          have hsame : call = first := by
            have happended : first :: others ++ calls = call :: rest := by
              rw [← hmine]
              exact hcalls
            exact (List.cons.inj happended).1.symm
          subst hsame
          have hown : ∃ own, s.perform extra call = some own ∧
              own.exitCode = performed.exitCode := by
            cases call with
            | wait component event =>
                simp only [State.perform, Option.bind_eq_some_iff,
                  Option.map_eq_some_iff] at hperform ⊢
                rcases hperform with ⟨flags, hflags, result, hwait, rfl⟩
                exact ⟨_, ⟨flags, hflags, result, hwait, rfl⟩, rfl⟩
            | _ =>
                cases hperform
                exact ⟨_, rfl, rfl⟩
          obtain ⟨own, hown, hcode⟩ := hown
          apply hdefined { own with calls := others }
          · simp only [State.step, hexit, hmine, hown]
            rfl
          · exact hcode.trans hrunning
  | @answered index request hrequest hhandle =>
      have hfound : s.outstanding[index]? = some request := hrequest
      have hheld : s.setup.handle request.component ≠ .freed := hhandle
      apply hdefined { s.deliver request.component request.order.callback with
        setup := request.carryOut s.setup
        outstanding := s.outstanding.eraseIdx index }
      · simp only [State.step, hexit, hfound, if_neg hheld]
        rfl
      · exact hexit
  | @calledBack component callback hhandle =>
      have hheld : s.setup.handle component ≠ .freed := hhandle
      apply hdefined (s.deliver component callback)
      · simp only [State.step, hexit, if_neg hheld]
        rfl
      · exact hexit

theorem State.length_calls_of_step
    {s next : State} {label : Label} (hstep : s.step label = some next)
    (hrunning : next.exitCode = none) :
    next.calls.length ≤ s.calls.length ∧
      ∀ outcome, label = .call outcome → next.calls.length < s.calls.length := by
  cases (Step.of_step hstep).2 with
  | failed => contradiction
  | performed hcalls hperform => simp [hcalls]
  | answered => exact ⟨le_refl _, by simp⟩
  | calledBack => exact ⟨le_refl _, by simp⟩

/-- A run that leaves the appended calls alone is a run without them. -/
theorem State.run_of_append
    {s last : State} {labels : List Label} {calls : List Call}
    (hrun : (s.append calls).run labels = some last)
    (hrunning : last.exitCode = none) (hlength : calls.length ≤ last.calls.length) :
    ∃ found, s.run labels = some found ∧ last = found.append calls := by
  apply runFrom_traceInvariant
    (fun trace state => state.exitCode = none → calls.length ≤ state.calls.length →
      ∃ found, s.run trace = some found ∧ state = found.append calls)
    ?_ ?_ hrun hrunning hlength
  · intro _ _
    exact ⟨s, rfl, rfl⟩
  · intro trace middle label next _ hinv hnext hgoing hleft
    obtain ⟨hle, hless⟩ := State.length_calls_of_step hnext hgoing
    obtain ⟨found, hfound, hsplit⟩ :=
      hinv (State.exitCode_of_step hnext) (by omega)
    subst hsplit
    have hfirst : found.calls = [] → ∀ outcome, label ≠ .call outcome := by
      intro hnone outcome hcall
      have hown : (found.append calls).calls.length = calls.length := by
        simp [State.append, hnone]
      have hshorter := hless outcome hcall
      omega
    obtain ⟨after, hafter, hsame⟩ := State.step_of_append hnext hfirst hgoing
    exact ⟨after, runFrom_concat_eq_some.mpr ⟨found, hfound, hafter⟩, hsame⟩

end Omx

namespace Whole

open LabelledRun
open Omx (DeviceReport Session)

def Label.omx : Label → Option Omx.Label
  | .server _ => none
  | .call _ outcome => some (.call outcome)
  | .answer index => some (.answer index)
  | .callback component notice => some (.callback component notice)

/-- What the components see of a run. -/
def omxLabels (labels : List Label) : List Omx.Label := labels.filterMap Label.omx

def StartsSession (label : Label) : Bool :=
  match label with
  | .server (.stream _ .initStart) => true
  | _ => false

/-- The guard that the server does not have: a thread enters `omx_h264_init`
only while no thread is in its session. -/
def StartsAlone (s : State) (label : Label) : Prop :=
  StartsSession label = true →
    ∀ thread ∈ s.server.threads, thread.pc.inSession = false

instance (s : State) (label : Label) : Decidable (StartsAlone s label) :=
  inferInstanceAs (Decidable (_ → _))

/-- The calls of the functions that a thread in its session has still to enter
before its session is over. -/
def callsAhead : StreamPc → List Omx.Call
  | .deinitializing => []
  | _ => Omx.omxH264Deinit

def NoneInSession (s : RpiUdpStream.State) : Prop :=
  ∀ tid pc, s.pcOf tid = some pc → pc.inSession = false

/-- The sessions that have started, the calls of the functions that they have
entered so far, and those of these calls that are still to be made. -/
inductive Stage (reports : ℕ → DeviceReport) (s : State) :
    List Session → List Omx.Call → List Omx.Call → Prop where
  | between {sessions : List Session} (hnone : NoneInSession s.server) :
      Stage reports s sessions (sessions.flatMap Session.calls) []
  | within {earlier : List Session} {program : List Omx.Call} {tid frames : ℕ}
      {pc : StreamPc} (hpc : s.server.pcOf tid = some pc)
      (hin : pc.inSession = true)
      (halone : ∀ other pc', s.server.pcOf other = some pc' →
        pc'.inSession = true → other = tid)
      (hprogram : program ++ callsAhead pc =
        (earlier ++ [Session.mk (reports tid) frames]).flatMap Session.calls) :
      Stage reports s (earlier ++ [Session.mk (reports tid) frames]) program
        (s.calls tid)

structure Tracks (reports : ℕ → DeviceReport) (labels : List Label) (s : State)
    (sessions : List Session) (program calls : List Omx.Call) : Prop where
  stage : Stage reports s sessions program calls
  runs : (Omx.State.start program).run (omxLabels labels) =
    some ⟨calls, s.setup, s.flags, s.outstanding, none⟩
  count : sessions.length = labels.countP StartsSession
  reported : ∀ session ∈ sessions, ∃ tid, session.report = reports tid

/-! ## Moves into and out of a session -/

theorem StreamPc.inSession_of_inOmxCall
    {pc : StreamPc} (hin : pc.inOmxCall = true) : pc.inSession = true := by
  cases pc <;> first | rfl | contradiction

theorem PcMove.inSession_before
    {s : RpiUdpStream.State} {pc pc' : StreamPc} {action : StreamAction}
    (hmove : PcMove s pc action pc') (hne : action ≠ .initStart)
    (hin : pc'.inSession = true) : pc.inSession = true := by
  cases hmove <;> first | rfl | contradiction

/-- A move within a session that enters no function of `h264.cpp`. -/
theorem PcMove.callsAhead
    {s : RpiUdpStream.State} {pc pc' : StreamPc} {action : StreamAction}
    {report : DeviceReport} (hmove : PcMove s pc action pc')
    (hentered : enteredCalls report action = none) (hin : pc'.inSession = true) :
    callsAhead pc' = callsAhead pc := by
  cases hmove with
  | isQuit => split <;> rfl
  | checked => split <;> rfl
  | _ => first | rfl | contradiction

theorem PcMove.leaves_session
    {s : RpiUdpStream.State} {pc pc' : StreamPc} {action : StreamAction}
    (hmove : PcMove s pc action pc') (hin : pc.inSession = true)
    (hout : pc'.inSession = false) : pc = .deinitializing ∧ action = .deinitEnd := by
  cases hmove with
  | isQuit => split at hout <;> contradiction
  | checked => split at hout <;> contradiction
  | deinitEnd => exact ⟨rfl, rfl⟩
  | _ => contradiction

theorem inSession_origin
    {s server : RpiUdpStream.State} {label : RpiUdpStream.Label} {tid : ℕ}
    {pc' : StreamPc} (hserver : RpiUdpStream.Step s label server)
    (hlabel : label ≠ .stream tid .initStart)
    (hpc' : server.pcOf tid = some pc') (hin : pc'.inSession = true) :
    ∃ pc, s.pcOf tid = some pc ∧ pc.inSession = true := by
  by_cases hmine : ∃ action, label = .stream tid action
  · rcases hmine with ⟨action, rfl⟩
    have hne : action ≠ .initStart := fun heq => hlabel (by rw [heq])
    rcases hserver.stream_cases with
      ⟨before, after, hbefore, hafter, hmove⟩ | ⟨_, _, hthreads, _⟩
    · rw [hpc'] at hafter
      cases hafter
      exact ⟨before, hbefore, PcMove.inSession_before hmove hne hin⟩
    · refine ⟨pc', ?_, hin⟩
      rw [← hpc']
      unfold RpiUdpStream.State.pcOf
      rw [hthreads]
  · push Not at hmine
    rcases hserver.pcOf_of_other hmine with hsame | ⟨_, hcreated⟩
    · exact ⟨pc', hsame.symm.trans hpc', hin⟩
    · rw [hpc'] at hcreated
      cases hcreated
      contradiction

theorem Stage.of_inSession
    {reports : ℕ → DeviceReport} {s : State} {sessions : List Session}
    {program calls : List Omx.Call} {tid : ℕ} {pc : StreamPc}
    (hstage : Stage reports s sessions program calls)
    (hpc : s.server.pcOf tid = some pc) (hin : pc.inSession = true) :
    calls = s.calls tid ∧
      ∃ earlier frames, sessions = earlier ++ [Session.mk (reports tid) frames] ∧
        program ++ callsAhead pc = sessions.flatMap Session.calls ∧
        ∀ other pc', s.server.pcOf other = some pc' → pc'.inSession = true →
          other = tid := by
  cases hstage with
  | between hnone =>
      rw [hnone tid pc hpc] at hin
      contradiction
  | @within earlier program current frames pc' hpc' hin' halone hprogram =>
      have hsame : tid = current := halone tid pc hpc hin
      subst hsame
      rw [hpc] at hpc'
      cases hpc'
      exact ⟨rfl, earlier, frames, rfl, hprogram, halone⟩

/-! ## Steps -/

theorem Stage.moved
    {reports : ℕ → DeviceReport} {s : State} {sessions : List Session}
    {program calls : List Omx.Call} {label : RpiUdpStream.Label}
    {server : RpiUdpStream.State} (hstage : Stage reports s sessions program calls)
    (hmoved : ∀ tid action, label = .stream tid action →
      action ≠ .omxError ∧ enteredCalls (reports tid) action = none ∧
        (returns action = true → s.calls tid = []))
    (hserver : RpiUdpStream.Step s.server label server) :
    Stage reports { s with server := server } sessions program calls := by
  have horigin : ∀ tid pc', server.pcOf tid = some pc' → pc'.inSession = true →
      ∃ pc, s.server.pcOf tid = some pc ∧ pc.inSession = true := by
    intro tid pc' hpc' hin
    apply inSession_origin hserver ?_ hpc' hin
    intro heq
    exact absurd (hmoved tid .initStart heq).2.1 (by simp [enteredCalls])
  cases hstage with
  | between hnone =>
      apply Stage.between
      intro tid pc' hpc'
      by_contra hin
      rcases horigin tid pc' hpc' (by simpa using hin) with ⟨pc, hpc, hbefore⟩
      rw [hnone tid pc hpc] at hbefore
      contradiction
  | @within earlier program tid frames pc hpc hin halone hprogram =>
      have hstill : ∀ other pc', server.pcOf other = some pc' →
          pc'.inSession = true → other = tid := by
        intro other pc' hpc' hin'
        rcases horigin other pc' hpc' hin' with ⟨before, hbefore, hbeforeIn⟩
        exact halone other before hbefore hbeforeIn
      have hkept : server.pcOf tid = some pc →
          Stage reports { s with server := server }
            (earlier ++ [Session.mk (reports tid) frames]) program (s.calls tid) :=
        fun hsame => .within hsame hin hstill hprogram
      by_cases hmine : ∃ action, label = .stream tid action
      · rcases hmine with ⟨action, rfl⟩
        rcases hmoved tid action rfl with ⟨_, hentered, hreturns⟩
        rcases hserver.stream_cases with
          ⟨before, pc', hbefore, hpc', hmove⟩ | ⟨_, _, hthreads, _⟩
        · rw [hpc] at hbefore
          cases hbefore
          cases hin' : pc'.inSession with
          | true =>
              apply Stage.within hpc' hin' hstill
              rw [PcMove.callsAhead hmove hentered hin']
              exact hprogram
          | false =>
              rcases PcMove.leaves_session hmove hin hin' with ⟨rfl, rfl⟩
              have hover : program =
                  (earlier ++ [Session.mk (reports tid) frames]).flatMap
                    Session.calls := by
                simpa [callsAhead] using hprogram
              rw [hreturns rfl, hover]
              apply Stage.between
              intro other after hafter
              by_contra hopen
              have heq := hstill other after hafter (by simpa using hopen)
              subst heq
              rw [hpc'] at hafter
              cases hafter
              exact hopen hin'
        · apply hkept
          unfold RpiUdpStream.State.pcOf
          rw [hthreads]
          exact hpc
      · push Not at hmine
        rcases hserver.pcOf_of_other hmine with hsame | ⟨hnone, _⟩
        · exact hkept (hsame.trans hpc)
        · rw [hnone] at hpc
          contradiction

theorem Stage.of_pc
    {reports : ℕ → DeviceReport} {s : State} {earlier : List Session}
    {program calls : List Omx.Call} {tid frames : ℕ} {pc : StreamPc}
    (hpc : s.server.pcOf tid = some pc) (hin : pc.inSession = true)
    (halone : ∀ other pc', s.server.pcOf other = some pc' →
      pc'.inSession = true → other = tid)
    (hprogram : program ++ callsAhead pc =
      (earlier ++ [Session.mk (reports tid) frames]).flatMap Session.calls)
    (hcalls : s.calls tid = calls) :
    Stage reports s (earlier ++ [Session.mk (reports tid) frames]) program calls := by
  rw [← hcalls]
  exact .within hpc hin halone hprogram

theorem omxLabels_append (before after : List Label) :
    omxLabels (before ++ after) = omxLabels before ++ omxLabels after :=
  List.filterMap_append ..

theorem omxLabels_concat_server (labels : List Label)
    (label : RpiUdpStream.Label) :
    omxLabels (labels ++ [.server label]) = omxLabels labels :=
  (omxLabels_append labels _).trans (List.append_nil _)

theorem omxLabels_concat_omx
    {label : Label} {omxLabel : Omx.Label} (hlabel : label.omx = some omxLabel)
    (labels : List Label) :
    omxLabels (labels ++ [label]) = omxLabels labels ++ [omxLabel] := by
  rw [omxLabels_append]
  simp [omxLabels, hlabel]

theorem Tracks.moved
    {reports : ℕ → DeviceReport} {labels : List Label} {s : State}
    {sessions : List Session} {program calls : List Omx.Call}
    {label : RpiUdpStream.Label} {server : RpiUdpStream.State}
    (htracks : Tracks reports labels s sessions program calls)
    (hmoved : ∀ tid action, label = .stream tid action →
      action ≠ .omxError ∧ enteredCalls (reports tid) action = none ∧
        (returns action = true → s.calls tid = []))
    (hserver : RpiUdpStream.Step s.server label server) :
    Tracks reports (labels ++ [.server label]) { s with server := server } sessions
      program calls := by
  constructor
  · exact htracks.stage.moved hmoved hserver
  · rw [omxLabels_concat_server]
    exact htracks.runs
  · have hother : StartsSession (.server label) = false := by
      cases label with
      | stream tid action =>
          cases action with
          | initStart =>
              exact absurd (hmoved tid .initStart rfl).2.1 (by simp [enteredCalls])
          | _ => rfl
      | _ => rfl
    rw [List.countP_append, htracks.count]
    simp [hother]
  · exact htracks.reported

theorem alone_after
    {s server : RpiUdpStream.State} {tid : ℕ} {action : StreamAction}
    (hserver : RpiUdpStream.Step s (.stream tid action) server)
    (halone : ∀ other pc, s.pcOf other = some pc → pc.inSession = true →
      other = tid) :
    ∀ other pc', server.pcOf other = some pc' → pc'.inSession = true →
      other = tid := by
  intro other pc' hpc' hin
  by_contra hne
  have hlabel : RpiUdpStream.Label.stream tid action ≠ .stream other .initStart := by
    intro heq
    cases heq
    exact hne rfl
  rcases inSession_origin hserver hlabel hpc' hin with ⟨pc, hpc, hbefore⟩
  exact hne (halone other pc hpc hbefore)

theorem pcOf_after
    {s server : RpiUdpStream.State} {tid : ℕ} {action : StreamAction}
    {report : DeviceReport} {calls : List Omx.Call}
    (hserver : RpiUdpStream.Step s (.stream tid action) server)
    (hcalls : enteredCalls report action = some calls) :
    ∃ pc pc', s.pcOf tid = some pc ∧ server.pcOf tid = some pc' ∧
      PcMove s pc action pc' := by
  rcases hserver.stream_cases with hmoved | ⟨hfails, _⟩
  · exact hmoved
  · rcases hfails with rfl | rfl <;> contradiction

theorem flatMap_calls_concat (earlier : List Session) (report : DeviceReport)
    (frames : ℕ) :
    (earlier ++ [Session.mk report frames]).flatMap Session.calls =
      earlier.flatMap Session.calls ++ Omx.omxH264Init report ++
        (List.replicate frames Omx.fillFrameBuffer).flatten ++ Omx.omxH264Deinit := by
  simp [Session.calls, Session.callsAfterInit]

/-- A thread that enters a function of `h264.cpp` starts a session, asks for one
more frame, or ends its session. -/
theorem Stage.entered
    {reports : ℕ → DeviceReport} {s : State} {sessions : List Session}
    {program calls entered : List Omx.Call} {tid : ℕ} {action : StreamAction}
    {server : RpiUdpStream.State} (hstage : Stage reports s sessions program calls)
    (hcalls : enteredCalls (reports tid) action = some entered)
    (hempty : s.calls tid = [])
    (halone : action = .initStart → NoneInSession s.server)
    (hserver : RpiUdpStream.Step s.server (.stream tid action) server) :
    calls = [] ∧ ∃ sessions',
      Stage reports
        { s with server := server, calls := Function.update s.calls tid entered }
        sessions' (program ++ entered) entered ∧
      sessions'.length = sessions.length + (if action = .initStart then 1 else 0) ∧
      ∀ session ∈ sessions',
        session ∈ sessions ∨ session.report = reports tid := by
  have hentered : Function.update s.calls tid entered tid = entered :=
    Function.update_self ..
  obtain ⟨pc, pc', hpc, hpc', hmove⟩ := pcOf_after hserver hcalls
  by_cases hinit : action = .initStart
  · subst hinit
    have hnone := halone rfl
    cases hcalls
    cases hmove
    cases hstage with
    | within hother hin => rw [hnone _ _ hother] at hin; contradiction
    | between _ =>
        refine ⟨rfl, sessions ++ [Session.mk (reports tid) 0], ?_, by simp, ?_⟩
        · apply Stage.of_pc hpc' rfl ?_ ?_ hentered
          · apply alone_after hserver
            intro other pc hother hin
            rw [hnone other pc hother] at hin
            contradiction
          · rw [flatMap_calls_concat]
            simp [callsAhead]
        · intro session hsession
          rcases List.mem_append.mp hsession with hold | hnew
          · exact Or.inl hold
          · rw [List.mem_singleton.mp hnew]
            exact Or.inr rfl
  · have hin : pc.inSession = true := by
      cases hmove <;> first | rfl | contradiction
    obtain ⟨hown, earlier, frames, hsessions, hprogram, honly⟩ :=
      hstage.of_inSession hpc hin
    subst hsessions
    have hstill := alone_after hserver honly
    refine ⟨hown.trans hempty, ?_⟩
    cases hmove with
    | fillStart =>
        cases hcalls
        refine ⟨earlier ++ [Session.mk (reports tid) (frames + 1)], ?_, by simp, ?_⟩
        · apply Stage.of_pc hpc' rfl hstill ?_ hentered
          rw [flatMap_calls_concat] at hprogram ⊢
          rw [List.append_cancel_right hprogram, List.replicate_succ']
          simp [callsAhead]
        · intro session hsession
          rcases List.mem_append.mp hsession with hold | hnew
          · exact Or.inl (List.mem_append_left _ hold)
          · rw [List.mem_singleton.mp hnew]
            exact Or.inr rfl
    | deinitStart =>
        cases hcalls
        refine ⟨earlier ++ [Session.mk (reports tid) frames], ?_, by simp,
          fun session hsession => Or.inl hsession⟩
        apply Stage.of_pc hpc' rfl hstill ?_ hentered
        rw [← hprogram]
        simp [callsAhead]
    | _ => contradiction

theorem Tracks.entered
    {reports : ℕ → DeviceReport} {labels : List Label} {s : State}
    {sessions : List Session} {program calls entered : List Omx.Call} {tid : ℕ}
    {action : StreamAction} {server : RpiUdpStream.State}
    (htracks : Tracks reports labels s sessions program calls)
    (hcalls : enteredCalls (reports tid) action = some entered)
    (hempty : s.calls tid = [])
    (halone : action = .initStart → NoneInSession s.server)
    (hserver : RpiUdpStream.Step s.server (.stream tid action) server) :
    ∃ sessions', Tracks reports (labels ++ [.server (.stream tid action)])
      { s with server := server, calls := Function.update s.calls tid entered }
      sessions' (program ++ entered) entered := by
  obtain ⟨hnone, sessions', hstage, hlength, hmem⟩ :=
    htracks.stage.entered hcalls hempty halone hserver
  refine ⟨sessions', hstage, ?_, ?_, ?_⟩
  · have hruns := htracks.runs
    rw [hnone] at hruns
    rw [omxLabels_concat_server]
    exact Omx.State.run_append hruns rfl entered
  · rw [hlength, htracks.count, List.countP_append]
    cases action <;> first | contradiction | simp [StartsSession]
  · intro session hsession
    rcases hmem session hsession with hold | hnew
    · exact htracks.reported session hold
    · exact ⟨tid, hnew⟩

theorem Tracks.called
    {reports : ℕ → DeviceReport} {labels : List Label} {s : State}
    {sessions : List Session} {program calls : List Omx.Call} {tid : ℕ}
    {outcome : CallOutcome} {session : Omx.State}
    (htracks : Tracks reports labels s sessions program calls)
    (hinv : CallsInOmx s)
    (hsession : (s.session (s.calls tid)).step (.call outcome) = some session)
    (hrunning : session.exitCode = none) :
    Tracks reports (labels ++ [.call tid outcome])
      { s.afterSession session with
        calls := Function.update s.calls tid session.calls }
      sessions program session.calls := by
  obtain ⟨hstill, hnonempty, _⟩ := exitCode_of_call hsession
  rcases hinv tid hnonempty with ⟨pc, hpc, hcall⟩
  have hin := StreamPc.inSession_of_inOmxCall hcall
  obtain ⟨hown, earlier, frames, hsessions, hprogram, honly⟩ :=
    htracks.stage.of_inSession hpc hin
  subst hown
  have hserver : s.server.exitCode = none := hstill
  have hsame : { s.server with exitCode := session.exitCode } = s.server := by
    rw [hrunning, ← hserver]
  constructor
  · subst hsessions
    apply Stage.of_pc ?_ hin ?_ hprogram ?_
    · simpa [State.afterSession, hsame] using hpc
    · simpa [State.afterSession, hsame] using honly
    · simp
  · rw [omxLabels_concat_omx rfl]
    apply runFrom_concat_eq_some.mpr
    refine ⟨_, htracks.runs, ?_⟩
    have hbefore : s.session (s.calls tid) =
        ⟨s.calls tid, s.setup, s.flags, s.outstanding, none⟩ := by
      simp [State.session, hserver]
    rw [← hbefore, hsession, State.afterSession, ← hrunning]
  · rw [List.countP_append, htracks.count]
    simp [StartsSession]
  · exact htracks.reported

theorem Tracks.component
    {reports : ℕ → DeviceReport} {labels : List Label} {s : State}
    {sessions : List Session} {program calls : List Omx.Call} {label : Label}
    {omxLabel : Omx.Label} {session : Omx.State}
    (htracks : Tracks reports labels s sessions program calls)
    (hlabel : label.omx = some omxLabel) (hstarts : StartsSession label = false)
    (hcomponent : ∀ outcome, omxLabel ≠ .call outcome)
    (hsession : (s.session []).step omxLabel = some session) :
    Tracks reports (labels ++ [label]) (s.afterSession session) sessions program
      calls := by
  obtain ⟨hstill, hrunning, hnone⟩ := exitCode_of_component hcomponent hsession
  have hserver : s.server.exitCode = none := hstill
  have hsame : { s.server with exitCode := session.exitCode } = s.server := by
    rw [hrunning, ← hserver]
  constructor
  · have hkept : (s.afterSession session).server = s.server := hsame
    cases htracks.stage with
    | between hquiet =>
        apply Stage.between
        rw [hkept]
        exact hquiet
    | within hpc hin halone hprogram =>
        apply Stage.of_pc ?_ hin ?_ hprogram rfl
        · rw [hkept]
          exact hpc
        · rw [hkept]
          exact halone
  · rw [omxLabels_concat_omx hlabel]
    apply runFrom_concat_eq_some.mpr
    refine ⟨_, htracks.runs, ?_⟩
    have hstep := Omx.State.step_append hsession hrunning calls
    simpa [Omx.State.append, State.session, State.afterSession, hserver, hnone,
      hrunning] using hstep
  · rw [List.countP_append, htracks.count]
    simp [hstarts]
  · exact htracks.reported

theorem calls_eq_nil_of_entered
    {reports : ℕ → DeviceReport} {s : State} {tid : ℕ} {action : StreamAction}
    {entered : List Omx.Call} {server : RpiUdpStream.State} (hinv : CallsInOmx s)
    (hcalls : enteredCalls (reports tid) action = some entered)
    (hserver : RpiUdpStream.Step s.server (.stream tid action) server) :
    s.calls tid = [] := by
  by_contra hnonempty
  rcases hinv tid hnonempty with ⟨pc, hpc, hcall⟩
  obtain ⟨before, _, hbefore, _, hmove⟩ := pcOf_after hserver hcalls
  rw [hpc] at hbefore
  cases hbefore
  have hreturns := PcMove.returns_of_inOmxCall hmove hcall
  cases action <;> contradiction

theorem StartsAlone.noneInSession
    {s : State} {tid : ℕ}
    (hguard : StartsAlone s (.server (.stream tid .initStart))) :
    NoneInSession s.server := by
  intro other pc hpc
  rcases Option.map_eq_some_iff.mp hpc with ⟨thread, hthread, rfl⟩
  exact hguard rfl thread (List.mem_of_getElem? hthread)

theorem Tracks.step
    {reports : ℕ → DeviceReport} {labels : List Label} {s next : State}
    {label : Label} {sessions : List Session} {program calls : List Omx.Call}
    (htracks : Tracks reports labels s sessions program calls)
    (hinv : CallsInOmx s) (hguard : StartsAlone s label)
    (hstep : Step reports s label next) (hexit : next.server.exitCode ≠ some 1) :
    ∃ sessions' program' calls',
      Tracks reports (labels ++ [label]) next sessions' program' calls' := by
  cases hstep with
  | @entered tid action entered server hcalls hserver =>
      have hserverStep := (RpiUdpStream.Step.of_step hserver).2
      have hempty := calls_eq_nil_of_entered hinv hcalls hserverStep
      have halone : action = .initStart → NoneInSession s.server := by
        rintro rfl
        exact hguard.noneInSession
      obtain ⟨sessions', hnext⟩ :=
        htracks.entered hcalls hempty halone hserverStep
      exact ⟨sessions', _, _, hnext⟩
  | moved hmoved hserver =>
      exact ⟨_, _, _, htracks.moved hmoved (RpiUdpStream.Step.of_step hserver).2⟩
  | called hsession =>
      rcases (exitCode_of_call hsession).2.2 with hrunning | hone
      · exact ⟨_, _, _, htracks.called hinv hsession hrunning⟩
      · exact absurd hone hexit
  | answered hsession =>
      exact ⟨_, _, _, htracks.component rfl rfl (by simp) hsession⟩
  | calledBack hsession =>
      exact ⟨_, _, _, htracks.component rfl rfl (by simp) hsession⟩

theorem run_tracks
    {reports : ℕ → DeviceReport} {nBufferSize : ℕ} {labels : List Label} {s : State}
    (hguard : EveryStep (State.step reports) StartsAlone
      (State.initial nBufferSize) labels)
    (hrun : (State.initial nBufferSize).run reports labels = some s)
    (hexit : s.server.exitCode ≠ some 1) :
    ∃ sessions program calls, Tracks reports labels s sessions program calls := by
  apply runFrom_guardedTraceInvariant
    (fun trace state => state.server.exitCode ≠ some 1 →
      ∃ sessions program calls, Tracks reports trace state sessions program calls)
    ?_ ?_ hguard hrun hexit
  · intro _
    have hnone : NoneInSession (State.initial nBufferSize).server := by
      intro tid pc hpc
      simp [State.initial, RpiUdpStream.State.initial,
        RpiUdpStream.State.pcOf] at hpc
    exact ⟨[], [], [], .between hnone, rfl, rfl, by simp⟩
  · intro trace state label next htrace hinv hlabel hstep hnext
    have hrunning : state.server.exitCode ≠ some 1 := by
      rw [exitCode_of_step hstep]
      simp
    obtain ⟨sessions, program, calls, htracks⟩ := hinv hrunning
    exact htracks.step (run_callsInOmx htrace) hlabel (Step.of_step hstep) hnext

/-- The calls of its session that a state of the whole program leaves to be
made. -/
inductive Remaining (s : State) : List Omx.Call → Prop where
  | between (hnone : NoneInSession s.server) : Remaining s []
  | within {tid : ℕ} {pc : StreamPc} (hpc : s.server.pcOf tid = some pc)
      (hin : pc.inSession = true) : Remaining s (s.calls tid ++ callsAhead pc)

/-- While a thread is in its session, the components see a run of the sessions
to the calls that the session leaves. -/
theorem Tracks.run_within
    {reports : ℕ → DeviceReport} {labels : List Label} {s : State}
    {sessions : List Session} {program calls : List Omx.Call}
    (htracks : Tracks reports labels s sessions program calls) {tid : ℕ}
    {pc : StreamPc} (hpc : s.server.pcOf tid = some pc)
    (hin : pc.inSession = true) :
    (Omx.State.initial sessions).run (omxLabels labels) =
      some ⟨s.calls tid ++ callsAhead pc, s.setup, s.flags, s.outstanding, none⟩ := by
  obtain ⟨hown, earlier, frames, hsessions, hprogram, _⟩ :=
    htracks.stage.of_inSession hpc hin
  have hrun := Omx.State.run_append htracks.runs rfl (callsAhead pc)
  have hstart : (Omx.State.start program).append (callsAhead pc) =
      Omx.State.initial sessions := by
    simp only [Omx.State.append, Omx.State.start, hprogram, hsessions]
    rfl
  rw [hstart, hown] at hrun
  exact hrun

theorem Tracks.covers
    {reports : ℕ → DeviceReport} {labels : List Label} {s : State}
    {sessions : List Session} {program calls : List Omx.Call}
    (htracks : Tracks reports labels s sessions program calls)
    (hcovers : ∀ tid, (reports tid).Covers) :
    ∀ session ∈ sessions, session.report.Covers := by
  intro session hsession
  obtain ⟨tid, htid⟩ := htracks.reported session hsession
  exact htid ▸ hcovers tid

theorem Tracks.run_sessions
    {reports : ℕ → DeviceReport} {labels : List Label} {s : State}
    {sessions : List Session} {program calls : List Omx.Call}
    (htracks : Tracks reports labels s sessions program calls) :
    ∃ rest, (Omx.State.initial sessions).run (omxLabels labels) =
        some ⟨rest, s.setup, s.flags, s.outstanding, none⟩ ∧ Remaining s rest := by
  cases htracks.stage with
  | between hnone => exact ⟨[], htracks.runs, .between hnone⟩
  | within hpc hin => exact ⟨_, htracks.run_within hpc hin, .within hpc hin⟩

/-- The whole program is the server together with sessions.  Every run shows a
run of the server to the same state; and where threads start their sessions
alone, the components see, until the process ends with `exit(1)`, a run of the
session machine over the sessions that have started, to the same state of the
components. -/
theorem whole_program_refines_server_and_sessions
    {reports : ℕ → DeviceReport} {nBufferSize : ℕ} {labels : List Label} {s : State}
    (hrun : (State.initial nBufferSize).run reports labels = some s) :
    (RpiUdpStream.State.initial nBufferSize).run
        (serverLabels reports nBufferSize labels) = some s.server ∧
      (EveryStep (State.step reports) StartsAlone (State.initial nBufferSize)
          labels → s.server.exitCode ≠ some 1 →
        ∃ sessions rest,
          (Omx.State.initial sessions).run (omxLabels labels) =
              some ⟨rest, s.setup, s.flags, s.outstanding, none⟩ ∧
            Remaining s rest ∧ sessions.length = labels.countP StartsSession ∧
            ∀ session ∈ sessions, ∃ tid, session.report = reports tid) := by
  constructor
  · exact run_server hrun
  · intro hguard hexit
    obtain ⟨sessions, program, calls, htracks⟩ := run_tracks hguard hrun hexit
    rcases htracks.run_sessions with ⟨rest, hsessions, hrest⟩
    exact ⟨sessions, rest, hsessions, hrest, htracks.count, htracks.reported⟩

/-- One client is served from its request to its second frame. -/
def twoFramesRun : List Label :=
  promptRun ([.main (.setup true)] ++ serveVideoRequest ⟨1, 40000⟩ ++
    initSession 0 ++ streamRound 0 1000 ++ [.stream 0 .isQuit, .stream 0 .fillStart])

theorem twoFramesRun_exitCode :
    ((State.initial 65536).run onBoard twoFramesRun).map (·.server.exitCode) =
      some none := by
  decide +kernel

theorem twoFramesRun_sessions :
    ∃ s sessions rest,
      (State.initial 65536).run onBoard twoFramesRun = some s ∧
        (Omx.State.initial sessions).run (omxLabels twoFramesRun) =
          some ⟨rest, s.setup, s.flags, s.outstanding, none⟩ ∧
        Remaining s rest ∧ sessions.length = 1 := by
  rcases Option.map_eq_some_iff.mp twoFramesRun_exitCode with ⟨s, hrun, hexit⟩
  obtain ⟨sessions, rest, hsessions, hrest, hcount, _⟩ :=
    (whole_program_refines_server_and_sessions hrun).2 (by decide +kernel)
      (by rw [hexit]; simp)
  exact ⟨s, sessions, rest, hrun, hsessions, hrest, hcount⟩

end Whole

end RpiUdpStream
