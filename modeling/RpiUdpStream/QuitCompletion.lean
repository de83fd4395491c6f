import RpiUdpStream.CleanShutdown
import RpiUdpStream.FrameDelivery
import RpiUdpStream.SessionProgress
import RpiUdpStream.Shutdown

/-!
# A quit can always be served

Once `main` waits for its one thread, the whole program can be carried on to its
end, wherever the thread is in its session, under components that have only
answered what was asked: the calls under way return, the thread leaves its loop,
tears down its session and is joined.
-/

namespace RpiUdpStream

open LabelledRun

/-- The sockets are open from the set-up to the call of `udp_server_close`. -/
def SocketsOpen (s : State) : Prop :=
  s.main ≠ .setup → s.main ≠ .returning → s.socketsOpen = true

theorem run_socketsOpen
    {nBufferSize : ℕ} {labels : List Label} {s : State}
    (hrun : (State.initial nBufferSize).run labels = some s) : SocketsOpen s := by
  apply runFrom_invariant SocketsOpen ?_ ?_ hrun
  · intro hsetup
    contradiction
  · intro state label next hinv hstep
    have hnext := (Step.of_step hstep).2
    cases hnext <;> simp_all [SocketsOpen, State.setPc]

theorem run_quitFlag
    {nBufferSize : ℕ} {labels : List Label} {s : State}
    (hrun : (State.initial nBufferSize).run labels = some s) :
    s.main.beforeJoin = false → s.quitFlag = true := by
  apply runFrom_invariant
    (fun state => state.main.beforeJoin = false → state.quitFlag = true) ?_ ?_ hrun
  · intro hquit
    contradiction
  · intro state label next hinv hstep
    have hnext := (Step.of_step hstep).2
    cases hnext <;> simp_all [MainPc.beforeJoin, State.setPc]

theorem PcMove.frameInHand
    {s : State} {pc pc' : StreamPc} {action : StreamAction} {len : ℕ}
    (hmove : PcMove s pc action pc') (hframe : pc'.frameInHand = some len) :
    pc.frameInHand = some len ∨ action = .fillEnd len := by
  cases hmove with
  | isQuit => split at hframe <;> contradiction
  | checked => split at hframe <;> contradiction
  | fillEnd hlen =>
      right
      rw [Option.some.inj hframe]
  | sendStart found => exact Or.inl hframe
  | writePort found => exact Or.inl hframe
  | _ => contradiction

namespace Whole

open Omx (DeviceReport Session)

/-! ## The calls of a thread on the components -/

/-- A step in which no call fails and the components keep to the handshake. -/
def Label.goesWell : Label → Bool
  | .server (.stream _ (.sendto ok)) => ok
  | .server _ => true
  | .call _ outcome => (Omx.Label.call outcome).goesWell
  | .answer index => (Omx.Label.answer index).goesWell
  | .callback component notice => (Omx.Label.callback component notice).goesWell

theorem goesWell_ofOmx (tid : ℕ) (label : Omx.Label) :
    (Label.ofOmx tid label).goesWell = label.goesWell := by
  cases label <;> rfl

theorem step_ofOmx
    {reports : ℕ → DeviceReport} {s : State} {tid : ℕ} {label : Omx.Label}
    {middle last : Omx.State} (hstep : middle.step label = some last)
    (hrunning : last.exitCode = none) :
    State.step reports
        { s.afterSession middle with
          calls := Function.update s.calls tid middle.calls }
        (Label.ofOmx tid label) =
      some { s.afterSession last with
        calls := Function.update s.calls tid last.calls } := by
  have hown : ∀ calls, State.session
      { s.afterSession middle with
        calls := Function.update s.calls tid middle.calls } calls =
      { middle with calls := calls } := fun _ => rfl
  have hcomponent : (∀ outcome, label ≠ .call outcome) → ∃ found : Omx.State,
      ({ middle with calls := [] } : Omx.State).step label = some found ∧
        last = { found with calls := middle.calls } := by
    intro hcalls
    obtain ⟨found, hfound, hsplit⟩ :=
      Omx.State.step_of_append (s := { middle with calls := [] }) hstep
        (fun _ => hcalls) hrunning
    obtain ⟨_, _, hnone⟩ := exitCode_of_component hcalls hfound
    refine ⟨found, hfound, ?_⟩
    rw [hsplit, Omx.State.append, hnone, List.nil_append]
  cases label with
  | call outcome =>
      have hcalled : middle.step (.call outcome) = some last := hstep
      simp only [Label.ofOmx, State.step, hown, Function.update_self]
      rw [hcalled]
      simp [State.afterSession, Function.update_idem]
  | answer index =>
      obtain ⟨found, hfound, hsplit⟩ := hcomponent (by simp)
      subst hsplit
      simp only [Label.ofOmx, State.step, hown, hfound]
      rfl
  | callback component notice =>
      obtain ⟨found, hfound, hsplit⟩ := hcomponent (by simp)
      subst hsplit
      simp only [Label.ofOmx, State.step, hown, hfound]
      rfl

/-- What the session machine does from the calls of a thread, the thread and the
components do. -/
theorem run_ofOmx
    {reports : ℕ → DeviceReport} {s : State} {tid : ℕ} {labels : List Omx.Label}
    {last : Omx.State}
    (hrun : (s.session (s.calls tid)).run labels = some last)
    (hrunning : last.exitCode = none) :
    s.run reports (labels.map (Label.ofOmx tid)) =
      some { s.afterSession last with
        calls := Function.update s.calls tid last.calls } := by
  apply runFrom_traceInvariant
    (fun trace state => state.exitCode = none →
      s.run reports (trace.map (Label.ofOmx tid)) =
        some { s.afterSession state with
          calls := Function.update s.calls tid state.calls }) ?_ ?_ hrun hrunning
  · intro _
    simp [State.afterSession, State.session]
  · intro trace middle label next _ hinv hnext hgoing
    rw [List.map_append]
    exact runFrom_concat_eq_some.mpr
      ⟨_, hinv (Omx.State.exitCode_of_step hnext), step_ofOmx hnext hgoing⟩

/-- A thread can make the calls of the function that it is in, with no step of
the server. -/
theorem exists_return
    {reports : ℕ → DeviceReport} {nBufferSize : ℕ} {labels : List Label} {s : State}
    (hcovers : ∀ tid, (reports tid).Covers)
    (hguard : EveryStep (State.step reports) StartsAlone
      (State.initial nBufferSize) labels)
    (hhonest : ∀ label ∈ omxLabels labels, label.honest = true)
    (hrun : (State.initial nBufferSize).run reports labels = some s)
    (hrunning : s.server.exitCode = none) {tid : ℕ} {pc : StreamPc}
    (hpc : s.server.pcOf tid = some pc) :
    ∃ more last, (∀ label ∈ more, label.goesWell = true) ∧
      s.run reports more = some last ∧ last.server = s.server ∧
        last.calls tid = [] := by
  by_cases hcall : pc.inOmxCall = true
  · obtain ⟨sessions, program, calls, htracks⟩ :=
      run_tracks hguard hrun (by simp [hrunning])
    have homx := htracks.run_within hpc (StreamPc.inSession_of_inOmxCall hcall)
    obtain ⟨more, last, hwell, hmore, hstill, hcalls⟩ :=
      Omx.exists_run_to (htracks.covers hcovers) hhonest homx rfl rfl
    have happend : (⟨s.calls tid ++ callsAhead pc, s.setup, s.flags, s.outstanding,
        none⟩ : Omx.State) = (s.session (s.calls tid)).append (callsAhead pc) := by
      simp [Omx.State.append, State.session, hrunning]
    rw [happend] at hmore
    obtain ⟨found, hfound, hsplit⟩ :=
      Omx.State.run_of_append hmore hstill (by simp [hcalls])
    subst hsplit
    have hnone : found.calls = [] := by
      have hsame : found.calls ++ callsAhead pc = [] ++ callsAhead pc := hcalls
      exact List.append_cancel_right hsame
    have hexit : found.exitCode = none := hstill
    refine ⟨more.map (Label.ofOmx tid), _, ?_, run_ofOmx hfound hexit, ?_, ?_⟩
    · intro label hlabel
      obtain ⟨omxLabel, homxLabel, heq⟩ := List.mem_map.mp hlabel
      rw [← heq, goesWell_ofOmx]
      exact hwell omxLabel homxLabel
    · simp only [State.afterSession, hexit, ← hrunning]
    · simp [hnone]
  · have hnone := calls_eq_nil (run_callsInOmx hrun) hpc (by simpa using hcall)
    exact ⟨[], s, by simp, rfl, rfl, hnone⟩

/-! ## The way out -/

theorem honest_omxLabels
    {labels : List Label} (hwell : ∀ label ∈ labels, label.goesWell = true) :
    ∀ label ∈ omxLabels labels, label.honest = true := by
  intro omxLabel homxLabel
  obtain ⟨label, hlabel, hshown⟩ := List.mem_filterMap.mp homxLabel
  have hlabelWell := hwell label hlabel
  cases label with
  | server move => contradiction
  | call tid outcome =>
      cases hshown
      rfl
  | answer index =>
      cases hshown
      rfl
  | callback component notice =>
      cases hshown
      exact hlabelWell

theorem step_server
    {reports : ℕ → DeviceReport} {s : State} {label : RpiUdpStream.Label}
    {server : RpiUdpStream.State} (hserver : s.server.step label = some server)
    (hallowed : ∀ tid action, label = .stream tid action →
      action ≠ .omxError ∧ s.calls tid = []) :
    ∃ calls, s.step reports (.server label) =
      some { s with server := server, calls := calls } := by
  cases label with
  | tick now => exact ⟨s.calls, by simp [State.step, State.serverStep, hserver]⟩
  | main action => exact ⟨s.calls, by simp [State.step, State.serverStep, hserver]⟩
  | stream tid action =>
      obtain ⟨hne, hnone⟩ := hallowed tid action rfl
      refine ⟨Function.update s.calls tid
        ((enteredCalls (reports tid) action).getD (s.calls tid)), ?_⟩
      simp [State.step, State.serverStep, hnone, hne, hserver]

theorem PcMove.goesWell
    {s : RpiUdpStream.State} {pc pc' : StreamPc} {action : StreamAction}
    (hmove : PcMove s pc action pc') (tid : ℕ) :
    (Label.server (.stream tid action)).goesWell = true := by
  cases hmove <;> rfl

/-- The whole program while `main` waits for its one thread, and from its join
of that thread on. -/
structure Leaving (reports : ℕ → DeviceReport) (nBufferSize : ℕ) (s : State) :
    Prop where
  reached : ∃ labels, (∀ label ∈ omxLabels labels, label.honest = true) ∧
    (State.initial nBufferSize).run reports labels = some s
  running : s.server.exitCode = none
  one : OneThreadToJoin s.server
  main : s.server.main = .joining ∨
    (s.server.main = .closing ∨ s.server.main = .returning) ∧
      s.server.pcOf 0 = some .exited
  fits : ∀ len, s.server.frameInHand 0 = some len → len ≤ maxUdpPayload

def State.workToLeave (s : State) : ℕ :=
  ((s.server.pcOf 0).map StreamPc.workAfterQuit).getD 0 + s.server.main.workAfterQuit

theorem Leaving.beforeJoin
    {reports : ℕ → DeviceReport} {nBufferSize : ℕ} {s : State}
    (hleaving : Leaving reports nBufferSize s) :
    s.server.main.beforeJoin = false := by
  rcases hleaving.main with hmain | ⟨hmain | hmain, _⟩
  · rw [hmain]
    rfl
  · rw [hmain]
    rfl
  · rw [hmain]
    rfl

theorem Leaving.thread
    {reports : ℕ → DeviceReport} {nBufferSize : ℕ} {s : State}
    (hleaving : Leaving reports nBufferSize s) :
    ∃ thread, s.server.threads[0]? = some thread ∧
      s.server.pcOf 0 = some thread.pc := by
  have hbound : 0 < s.server.threads.length := by
    rw [hleaving.one.1]
    exact Nat.one_pos
  refine ⟨s.server.threads[0], List.getElem?_eq_getElem hbound, ?_⟩
  simp [RpiUdpStream.State.pcOf, hbound]

theorem Leaving.reached_after
    {reports : ℕ → DeviceReport} {nBufferSize : ℕ} {s next : State}
    {more : List Label} (hleaving : Leaving reports nBufferSize s)
    (hwell : ∀ label ∈ more, label.goesWell = true)
    (hmore : s.run reports more = some next) :
    ∃ labels, (∀ label ∈ omxLabels labels, label.honest = true) ∧
      (State.initial nBufferSize).run reports labels = some next := by
  obtain ⟨labels, hhonest, hrun⟩ := hleaving.reached
  refine ⟨labels ++ more, ?_, runFrom_append_eq_some.mpr ⟨s, hrun, hmore⟩⟩
  intro label hlabel
  rw [omxLabels_append] at hlabel
  rcases List.mem_append.mp hlabel with hold | hnew
  · exact hhonest label hold
  · exact honest_omxLabels hwell label hnew

/-- The thread that `main` waits for takes its next step, after the calls that it
is in have returned. -/
theorem Leaving.threadMoves
    {reports : ℕ → DeviceReport} {nBufferSize : ℕ} {s : State}
    (hcovers : ∀ tid, (reports tid).Covers)
    (hleaving : Leaving reports nBufferSize s) (hmain : s.server.main = .joining)
    (hpc : s.server.pcOf 0 ≠ some .exited) :
    ∃ more next, (∀ label ∈ more, label.goesWell = true) ∧
      s.run reports more = some next ∧ Leaving reports nBufferSize next ∧
        next.workToLeave < s.workToLeave := by
  obtain ⟨labels, hhonest, hrun⟩ := hleaving.reached
  obtain ⟨thread, hthread, hthreadPc⟩ := hleaving.thread
  obtain ⟨first, middle, hfirst, hmiddle, hserver, hnone⟩ := exists_return hcovers
    (startsAlone_of_oneThread hrun hleaving.one.1) hhonest hrun hleaving.running
    hthreadPc
  have hsend : ∀ len, thread.pc = .sendto len →
      s.server.socketsOpen = true ∧ len ≤ maxUdpPayload := by
    intro len hlen
    constructor
    · exact run_socketsOpen (run_server hrun) (by simp [hmain]) (by simp [hmain])
    · apply hleaving.fits
      rw [State.frameInHand_of_pcOf hthreadPc, hlen]
      rfl
  have hne : thread.pc ≠ .exited := by
    intro hexited
    exact hpc (hexited ▸ hthreadPc)
  obtain ⟨action, pc, server, hmove, hstep, hnextPc, hempty⟩ :=
    exists_thread_move hleaving.running hthread rfl hne hsend
  have hquit := run_quitFlag (run_server hrun) hleaving.beforeJoin
  have hless := hmove.workAfterQuit_lt hquit
  have hstepMiddle : middle.server.step (.stream 0 action) = some server :=
    hserver ▸ hstep
  have hallowed : ∀ tid moved,
      RpiUdpStream.Label.stream 0 action = .stream tid moved →
        moved ≠ .omxError ∧ middle.calls tid = [] := by
    intro tid moved hlabel
    cases hlabel
    exact ⟨hmove.ne_omxError, hnone⟩
  obtain ⟨calls, hnext⟩ := step_server hstepMiddle hallowed
  have hmore : s.run reports (first ++ [.server (.stream 0 action)]) =
      some { middle with server := server, calls := calls } :=
    runFrom_concat_eq_some.mpr ⟨middle, hmiddle, hnext⟩
  have hwell : ∀ label ∈ first ++ [.server (.stream 0 action)],
      label.goesWell = true := by
    intro label hlabel
    rcases List.mem_append.mp hlabel with hold | hnew
    · exact hfirst label hold
    · rw [List.mem_singleton.mp hnew]
      exact PcMove.goesWell hmove 0
  have hserverStep := (RpiUdpStream.Step.of_step hstep).2
  obtain ⟨hsameMain, hsameTid⟩ := hserverStep.main_of_stream
  have hlength := hserverStep.length_threads
  refine ⟨first ++ [.server (.stream 0 action)], _, hwell, hmore, ?_, ?_⟩
  · constructor
    · exact hleaving.reached_after hwell hmore
    · rw [← hleaving.running]
      apply hserverStep.exitCode_of_pcOf_ne
      rw [hnextPc, hthreadPc]
      intro hsame
      rw [Option.some.inj hsame] at hless
      omega
    · refine ⟨?_, hsameTid.trans hleaving.one.2⟩
      simpa [hleaving.one.1] using hlength
    · exact Or.inl (hsameMain.trans hmain)
    · intro len hlen
      rw [State.frameInHand_of_pcOf hnextPc] at hlen
      rcases hmove.frameInHand hlen with hframe | hfilled
      · apply hleaving.fits
        rw [State.frameInHand_of_pcOf hthreadPc, hframe]
      · rw [hempty len hfilled]
        exact Nat.zero_le _
  · simp only [State.workToLeave, hnextPc, hthreadPc, hsameMain, Option.map_some,
      Option.getD_some]
    omega

theorem step_main
    (reports : ℕ → DeviceReport) {s : State} {action : MainAction}
    {server : RpiUdpStream.State}
    (hserver : s.server.step (.main action) = some server) :
    s.run reports [.server (.main action)] = some { s with server := server } := by
  have hstep : s.step reports (.server (.main action)) =
      some { s with server := server } := by
    simp [State.step, State.serverStep, hserver]
  exact (runFrom_singleton _ _).trans hstep

/-- `main` takes its next step, once the thread has ended. -/
theorem Leaving.mainMoves
    {reports : ℕ → DeviceReport} {nBufferSize : ℕ} {s : State}
    (hleaving : Leaving reports nBufferSize s)
    (hpc : s.server.pcOf 0 = some .exited) (hmain : s.server.main ≠ .returning) :
    ∃ more next, (∀ label ∈ more, label.goesWell = true) ∧
      s.run reports more = some next ∧ Leaving reports nBufferSize next ∧
        next.workToLeave < s.workToLeave := by
  have hrunning := hleaving.running
  obtain ⟨thread, hthread, hthreadPc⟩ := hleaving.thread
  have hexited : thread.pc = .exited :=
    Option.some.inj (hthreadPc.symm.trans hpc)
  obtain ⟨hlength, hnamed⟩ := hleaving.one
  rcases hleaving.main with hjoining | ⟨hclosing | hreturning, _⟩
  · have hjoin : s.server.step (.main .join) = some { s.server with
        main := .closing
        threads := s.server.threads.set 0
          { thread with joins := thread.joins + 1 } } := by
      simp [RpiUdpStream.State.step, hrunning, RpiUdpStream.State.mainStep, hjoining,
        RpiUdpStream.State.join, hnamed, hthread, hexited]
    have hmore := step_main reports hjoin
    have hnextPc : RpiUdpStream.State.pcOf { s.server with
        main := .closing
        threads := s.server.threads.set 0
          { thread with joins := thread.joins + 1 } } 0 = some .exited := by
      have hbound := (List.getElem?_eq_some_iff.mp hthread).1
      simp [RpiUdpStream.State.pcOf, hbound, hexited]
    refine ⟨_, _, by simp [Label.goesWell], hmore, ?_, ?_⟩
    · constructor
      · exact hleaving.reached_after (by simp [Label.goesWell]) hmore
      · exact hrunning
      · exact ⟨by simpa using hlength, hnamed⟩
      · exact Or.inr ⟨Or.inl rfl, hnextPc⟩
      · intro len hlen
        rw [State.frameInHand_of_pcOf hnextPc] at hlen
        contradiction
    · simp [State.workToLeave, hnextPc, hpc, hjoining, StreamPc.workAfterQuit,
        MainPc.workAfterQuit]
  · have hclose : s.server.step (.main .close) =
        some { s.server with socketsOpen := false, main := .returning } := by
      simp [RpiUdpStream.State.step, hrunning, RpiUdpStream.State.mainStep, hclosing]
    have hmore := step_main reports hclose
    refine ⟨_, _, by simp [Label.goesWell], hmore, ?_, ?_⟩
    · constructor
      · exact hleaving.reached_after (by simp [Label.goesWell]) hmore
      · exact hrunning
      · exact hleaving.one
      · exact Or.inr ⟨Or.inr rfl, hpc⟩
      · exact hleaving.fits
    · have hsame : RpiUdpStream.State.pcOf
          { s.server with socketsOpen := false, main := .returning } 0 =
            s.server.pcOf 0 := rfl
      simp [State.workToLeave, hsame, hclosing, MainPc.workAfterQuit]
  · contradiction

theorem Leaving.advance
    {reports : ℕ → DeviceReport} {nBufferSize : ℕ} {s : State}
    (hcovers : ∀ tid, (reports tid).Covers)
    (hleaving : Leaving reports nBufferSize s) (hmain : s.server.main ≠ .returning) :
    ∃ more next, (∀ label ∈ more, label.goesWell = true) ∧
      s.run reports more = some next ∧ Leaving reports nBufferSize next ∧
        next.workToLeave < s.workToLeave := by
  by_cases hpc : s.server.pcOf 0 = some .exited
  · exact hleaving.mainMoves hpc hmain
  · have hjoining : s.server.main = .joining := by
      rcases hleaving.main with hjoining | ⟨_, hexited⟩
      · exact hjoining
      · contradiction
    exact hleaving.threadMoves hcovers hjoining hpc

/-- A quit can always be served.  Where the reports cover the enabled ports, and
the components have answered each request once and reported neither errors nor
completions besides, the program can be carried on from every state in which
`main` waits for its one thread to its end with code 0 and nothing left behind,
unless the frame in the thread's hand is too long for a datagram. -/
theorem quit_can_complete
    {reports : ℕ → DeviceReport} {nBufferSize : ℕ} {labels : List Label} {s : State}
    (hcovers : ∀ tid, (reports tid).Covers)
    (hhonest : ∀ label ∈ omxLabels labels, label.honest = true)
    (hrun : (State.initial nBufferSize).run reports labels = some s)
    (hrunning : s.server.exitCode = none) (hmain : s.server.main = .joining)
    (hone : OneThreadToJoin s.server)
    (hfits : ∀ len, s.server.frameInHand 0 = some len → len ≤ maxUdpPayload) :
    ∃ more last, (∀ label ∈ more, label.goesWell = true) ∧
      s.run reports more = some last ∧ last.server.exitCode = some 0 ∧
        last.setup = .cleanedUp 1 ∧ last.outstanding = [] ∧
          ∀ component, last.flags.get component = none := by
  have hleaving : Leaving reports nBufferSize s :=
    ⟨⟨labels, hhonest, hrun⟩, hrunning, hone, Or.inl hmain, hfits⟩
  obtain ⟨more, returning, hwell, hmore, hleft, hreturning⟩ :=
    exists_run_to_goal (fun state : State => state.server.main = .returning)
      State.workToLeave (fun _ hstate hgoal => hstate.advance hcovers hgoal) hleaving
  have hret : returning.server.step (.main .ret) =
      some { returning.server with exitCode := some 0 } := by
    simp [RpiUdpStream.State.step, hleft.running, RpiUdpStream.State.mainStep,
      hreturning]
  have hend := step_main reports hret
  obtain ⟨trace, htrace, hreached⟩ := hleft.reached_after (by simp [Label.goesWell]) hend
  have hexited : ∀ thread ∈ returning.server.threads, thread.pc = .exited := by
    have hpc : returning.server.pcOf 0 = some .exited := by
      rcases hleft.main with hjoining | ⟨_, hpc⟩
      · rw [hreturning] at hjoining
        contradiction
      · exact hpc
    intro thread hthread
    obtain ⟨tid, hlookup⟩ := List.mem_iff_getElem?.mp hthread
    have hbound := (List.getElem?_eq_some_iff.mp hlookup).1
    have hlength := hleft.one.1
    have hzero : tid = 0 := by omega
    subst hzero
    rw [RpiUdpStream.State.pcOf, hlookup] at hpc
    exact Option.some.inj hpc
  obtain ⟨hsetup, houtstanding, hflags, _⟩ :=
    left_clean_of_exited hcovers htrace hreached hleft.one.1 hexited
  refine ⟨more ++ [.server (.main .ret)], _, ?_,
    runFrom_append_eq_some.mpr ⟨returning, hmore, hend⟩, rfl, hsetup, houtstanding,
    hflags⟩
  intro label hlabel
  rcases List.mem_append.mp hlabel with hold | hnew
  · exact hwell label hold
  · rw [List.mem_singleton.mp hnew]
    rfl

/-- A quit while the encoder has been asked for a frame and has not answered. -/
def quitWhileFillingOnBoard : List Label :=
  promptRun ([.main (.setup true)] ++ serveVideoRequest ⟨1, 40000⟩ ++
    initSession 0 ++ [.stream 0 .isQuit]) ++
    [.server (.stream 0 .fillStart), .call 0 (.returned 0)] ++
    promptRun (serveQuitServer ⟨1, 40000⟩)

theorem quitWhileFillingOnBoard_joining :
    ((State.initial 65536).run onBoard quitWhileFillingOnBoard).map
        (fun s => (s.server.exitCode, s.server.main, s.server.threads.length,
          s.server.streamTid, s.server.pcOf 0)) =
      some (none, .joining, 1, some 0, some .filling) := by
  decide +kernel

theorem quitWhileFillingOnBoard_completes :
    ∃ s more last, (State.initial 65536).run onBoard quitWhileFillingOnBoard = some s ∧
      s.run onBoard more = some last ∧ last.server.exitCode = some 0 ∧
        last.setup = .cleanedUp 1 := by
  rcases Option.map_eq_some_iff.mp quitWhileFillingOnBoard_joining with
    ⟨s, hrun, hstate⟩
  simp only [Prod.mk.injEq] at hstate
  obtain ⟨hrunning, hmain, hlength, hnamed, hpc⟩ := hstate
  have hnone : s.server.frameInHand 0 = none :=
    (State.frameInHand_of_pcOf hpc).trans rfl
  obtain ⟨more, last, _, hmore, hexit, hsetup, _⟩ := quit_can_complete
    (fun _ => Omx.boardReport_covers) (by decide +kernel) hrun hrunning hmain
    ⟨hlength, hnamed⟩ (by simp [hnone])
  exact ⟨s, more, last, hrun, hmore, hexit, hsetup⟩

end Whole

end RpiUdpStream
