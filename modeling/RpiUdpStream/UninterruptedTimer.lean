import RpiUdpStream.RacyServer
import RpiUdpStream.ServerTime

/-!
# Timer calls that nothing interrupts

Where all steps of a timer call are taken on end, the call is a single step.
-/

namespace RpiUdpStream

open LabelledRun

namespace Racy

def callActions : List TimerRace.Action :=
  [.clockGettime, .readSec, .readNsec, .accessEnd, .ret]

/-- A step of the server, with the steps of its timer call on end. -/
def uninterrupted : RpiUdpStream.Label → List Label
  | .tick now => [.tick now]
  | .main .setTimeout => .callSetTimeout :: callActions.map .setTimeout
  | .stream tid .isTimeout => callActions.map (.isTimeout tid)
  | label => [.server label]

structure Follows (t : RpiUdpStream.State) (s : State) : Prop where
  agrees : t = s.server.withTime s.clock s.timer
  setting : s.setting = none
  checking : ∀ tid, s.server.pcOf tid = some .timeoutCheck →
    ∃ clock, s.checking tid = some (.begin .isTimeout clock)

theorem run_setTimeout
    {s : State} {server : RpiUdpStream.State} (hrunning : s.server.exitCode = none)
    (hnone : s.setting = none) (hserver : s.server.mainStep .setTimeout = some server) :
    ∃ next, s.run (uninterrupted (.main .setTimeout)) = some next ∧
      next.clock = s.clock ∧ next.timer = RpiUdpStream.setTimeout s.clock s.timer ∧
      next.server = server ∧ next.setting = none ∧ next.checking = s.checking := by
  have hcalls : s.server.main.callsSetTimeout = true := by
    unfold RpiUdpStream.State.mainStep at hserver
    cases hmain : s.server.main <;> simp_all [MainPc.callsSetTimeout]
  refine ⟨{ s with
    timer := RpiUdpStream.setTimeout s.clock s.timer
    server := server
    deadline := some ⟨s.clock, s.clock⟩ }, ?_, rfl, rfl, rfl, hnone, rfl⟩
  simp [uninterrupted, callActions, runFrom_cons, State.step, State.settingStep,
    TimerRace.Call.perform, TimerRace.Call.begin, TimerRace.Call.time, TimerRace.mix,
    hrunning, hnone, hcalls, hserver, RpiUdpStream.setTimeout]

theorem run_isTimeout
    {s : State} {tid : ℕ} {thread : StreamThread} {clock : Timespec}
    (hrunning : s.server.exitCode = none)
    (hchecking : s.checking tid = some (.begin .isTimeout clock))
    (hthread : s.server.threads[tid]? = some thread)
    (hpc : thread.pc = .timeoutCheck) :
    s.run (uninterrupted (.stream tid .isTimeout)) =
      some { s with
        timer := (RpiUdpStream.isTimeout s.clock s.timer).1
        server := s.server.setPc tid thread
          (if (RpiUdpStream.isTimeout s.clock s.timer).2 then .deinitCall
            else .quitTest)
        checking := Function.update s.checking tid none } := by
  simp [uninterrupted, callActions, runFrom_cons, State.step, State.checkingStep,
    TimerRace.Call.perform, TimerRace.Call.begin, TimerRace.Call.time, TimerRace.mix,
    hrunning, hchecking, hthread, hpc, RpiUdpStream.State.checked,
    RpiUdpStream.isTimeout]

theorem serverStep_of_step
    {s : State} {label : RpiUdpStream.Label} {server : RpiUdpStream.State}
    (hapart : takenApart label = false) (hserver : s.server.step label = some server) :
    ∃ next, s.step (.server label) = some next ∧ next.clock = s.clock ∧
      next.timer = s.timer ∧ next.server = server ∧ next.setting = s.setting ∧
      ∀ tid, next.checking tid =
        if label = .stream tid .timeoutStart then some (.begin .isTimeout s.clock)
        else s.checking tid := by
  have hrunning := (RpiUdpStream.Step.of_step hserver).1
  by_cases hstarts : ∃ mover, label = .stream mover .timeoutStart
  · obtain ⟨mover, heq⟩ := hstarts
    subst heq
    refine ⟨{ s with
      server := server
      checking := Function.update s.checking mover
        (some (.begin .isTimeout s.clock)) }, ?_, rfl, rfl, rfl, rfl, ?_⟩
    · simp [State.step, State.serverStep, hrunning, hapart, hserver]
    · intro tid
      by_cases heq : tid = mover
      · simp [heq]
      · simp [heq, Ne.symm heq]
  · push Not at hstarts
    refine ⟨{ s with server := server }, ?_, rfl, rfl, rfl, rfl, ?_⟩
    · have hmoved : s.serverStep label = some { s with server := server } := by
        unfold State.serverStep
        rw [hapart, hserver]
        simp only [Bool.false_eq_true, if_false, Option.map_some]
      simpa [State.step, hrunning] using hmoved
    · intro tid
      rw [if_neg (hstarts tid)]

theorem PcMove.timeoutStart_of_check
    {s : RpiUdpStream.State} {pc pc' : StreamPc} {action : StreamAction}
    (hmove : PcMove s pc action pc') (hcheck : pc' = .timeoutCheck) :
    action = .timeoutStart := by
  cases hmove with
  | timeoutStart => rfl
  | isQuit => cases hquit : s.quitFlag <;> simp [hquit] at hcheck
  | checked => cases hexpired : (isTimeout s.clock s.timer).2 <;> simp [hexpired] at hcheck
  | _ => contradiction

theorem Follows.moved
    {t t' : RpiUdpStream.State} {s : State} {label : RpiUdpStream.Label}
    (hfollows : Follows t s) (hapart : takenApart label = false)
    (hstep : t.step label = some t') :
    ∃ s', s.run [.server label] = some s' ∧ Follows t' s' := by
  have hmapped : (s.server.step label).map
      (fun next => next.withTime s.clock s.timer) = some t' := by
    rw [← RpiUdpStream.State.step_withTime, ← hfollows.agrees]
    · exact hstep
    · rintro now rfl
      contradiction
    · rintro rfl
      contradiction
    · rintro tid rfl
      contradiction
  obtain ⟨server, hserver, hagrees⟩ := Option.map_eq_some_iff.mp hmapped
  obtain ⟨s', hs', hclock, htimer, hsame, hsetting, hchecking⟩ :=
    serverStep_of_step hapart hserver
  refine ⟨s', (runFrom_singleton _ _).trans hs', ?_, hsetting.trans hfollows.setting, ?_⟩
  · rw [hclock, htimer, hsame]
    exact hagrees.symm
  · intro tid hpc
    rw [hchecking tid]
    split
    · exact ⟨s.clock, rfl⟩
    · rename_i hother
      apply hfollows.checking tid
      rw [hsame] at hpc
      rcases (RpiUdpStream.Step.of_step hserver).2.pcOf_cases tid with
        ⟨hkept, _⟩ | ⟨_, _, hcreated⟩ | ⟨_, action, _, hlabel, _, hpc', hmove⟩
      · exact hkept.symm.trans hpc
      · rw [hcreated] at hpc
        contradiction
      · rw [hpc] at hpc'
        rw [PcMove.timeoutStart_of_check hmove (Option.some.inj hpc').symm] at hlabel
        exact absurd hlabel hother

theorem Follows.set
    {t server : RpiUdpStream.State} {s : State} (hfollows : Follows t s)
    (hrunning : s.server.exitCode = none)
    (hserver : s.server.mainStep .setTimeout = some server) :
    ∃ s', s.run (uninterrupted (.main .setTimeout)) = some s' ∧
      Follows (server.withTime s.clock (RpiUdpStream.setTimeout s.clock s.timer)) s' := by
  obtain ⟨s', hs', hclock, htimer, hsame, hsetting, hchecking⟩ :=
    run_setTimeout hrunning hfollows.setting hserver
  refine ⟨s', hs', ?_, hsetting, ?_⟩
  · rw [hclock, htimer, hsame]
  · intro tid hpc
    rw [hchecking]
    apply hfollows.checking tid
    have hstep : s.server.step (.main .setTimeout) = some server := by
      simpa [RpiUdpStream.State.step, hrunning] using hserver
    rw [hsame] at hpc
    exact (pcOf_of_setTimeout hstep tid).symm.trans hpc

theorem Follows.checked
    {t : RpiUdpStream.State} {s : State} {tid : ℕ} {thread : StreamThread}
    (hfollows : Follows t s) (hrunning : s.server.exitCode = none)
    (hthread : s.server.threads[tid]? = some thread) (hpc : thread.pc = .timeoutCheck) :
    ∃ s', s.run (uninterrupted (.stream tid .isTimeout)) = some s' ∧
      Follows ((s.server.setPc tid thread
        (if (isTimeout s.clock s.timer).2 then .deinitCall else .quitTest)).withTime
          s.clock (isTimeout s.clock s.timer).1) s' := by
  have hcheck : s.server.pcOf tid = some .timeoutCheck := by
    simp [RpiUdpStream.State.pcOf, hthread, hpc]
  obtain ⟨clock, hchecking⟩ := hfollows.checking tid hcheck
  refine ⟨_, run_isTimeout hrunning hchecking hthread hpc, rfl, hfollows.setting, ?_⟩
  intro other hother
  have hmoved := (RpiUdpStream.State.pcOf_setPc hthread other).symm.trans hother
  by_cases heq : other = tid
  · rw [if_pos heq] at hmoved
    cases hexpired : (isTimeout s.clock s.timer).2 <;> simp [hexpired] at hmoved
  · rw [if_neg heq] at hmoved
    simpa [Function.update_of_ne heq] using hfollows.checking other hmoved

theorem Follows.step
    {t t' : RpiUdpStream.State} {s : State} {label : RpiUdpStream.Label}
    (hfollows : Follows t s) (hstep : t.step label = some t') :
    ∃ s', s.run (uninterrupted label) = some s' ∧ Follows t' s' := by
  obtain ⟨hrunning, hcases⟩ := RpiUdpStream.Step.of_step hstep
  have hgoing : s.server.exitCode = none := by
    rw [hfollows.agrees] at hrunning
    exact hrunning
  have hagrees := hfollows.agrees
  have hset : t.mainStep .setTimeout = some t' → ∃ s',
      s.run (uninterrupted (.main .setTimeout)) = some s' ∧ Follows t' s' := by
    intro hmain
    rw [hagrees, RpiUdpStream.State.mainStep_setTimeout] at hmain
    obtain ⟨server, hserver, hnext⟩ := Option.map_eq_some_iff.mp hmain
    subst hnext
    exact hfollows.set hgoing hserver
  cases hcases with
  | @tick now hclock =>
      subst hagrees
      refine ⟨{ s with clock := now }, ?_, rfl, hfollows.setting, hfollows.checking⟩
      have hlater : s.clock.ms ≤ now.ms := hclock
      simp [uninterrupted, State.step, hgoing, hlater]
  | requested => exact hset (by simpa [RpiUdpStream.State.step, hrunning] using hstep)
  | refreshed => exact hset (by simpa [RpiUdpStream.State.step, hrunning] using hstep)
  | @checked tid thread hthread hpc =>
      subst hagrees
      exact hfollows.checked hgoing hthread hpc
  | @move tid thread action pc hthread hadvance =>
      have hchecks : action ≠ .isTimeout := by
        rintro rfl
        cases hpc : thread.pc <;> simp [hpc, StreamPc.advance] at hadvance
      have hlabel : uninterrupted (.stream tid action) =
          [.server (.stream tid action)] := by
        cases action <;> first | rfl | contradiction
      rw [hlabel]
      apply hfollows.moved ?_ hstep
      cases action <;> first | rfl | contradiction
  | _ => exact hfollows.moved rfl hstep

/-- Where nothing interrupts a call of the timer, the server is the one whose
timer calls are single steps. -/
theorem uninterrupted_run
    {nBufferSize : ℕ} {labels : List RpiUdpStream.Label} {t : RpiUdpStream.State}
    (hrun : (RpiUdpStream.State.initial nBufferSize).run labels = some t) :
    ∃ s, (State.initial nBufferSize).run (labels.flatMap uninterrupted) = some s ∧
      t = s.server.withTime s.clock s.timer := by
  obtain ⟨s, hs, hfollows⟩ := runFrom_expand Follows
    (⟨rfl, rfl, fun _ hpc => by contradiction⟩ :
      Follows (RpiUdpStream.State.initial nBufferSize) (State.initial nBufferSize))
    (fun state label next t hfollows hstep => hfollows.step hstep) hrun
  exact ⟨s, hs, hfollows.agrees⟩

end Racy

end RpiUdpStream
