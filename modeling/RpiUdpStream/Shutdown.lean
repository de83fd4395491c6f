import RpiUdpStream.KeepAlive
import RpiUdpStream.ThreadReaping

/-!
# How sessions and the server come to an end

A quit, or a deadline that is not refreshed, bounds the work that is left: each
stream thread has a number of steps to take that no other party raises, and
`main` has its join, its close and its return.  Until the process has ended some
step of `main` or of a stream thread can be taken, so that shutdown is never
stuck, as long as the join is for a thread of the program.
-/

namespace RpiUdpStream

open LabelledRun

/-- The steps that a thread still takes once `set_quit` has happened. -/
def StreamPc.workAfterQuit : StreamPc → ℕ
  | .fillCall => 12
  | .filling => 11
  | .sendCall _ => 10
  | .portWrite _ => 9
  | .sendto _ => 8
  | .sendReturn => 7
  | .created | .timeoutCall => 6
  | .initializing | .timeoutCheck => 5
  | .quitTest => 4
  | .deinitCall => 3
  | .deinitializing => 2
  | .exitCall => 1
  | .exited => 0

/-- The steps that a thread still takes once its deadline has passed. -/
def StreamPc.workAfterDeadline : StreamPc → ℕ
  | .created => 14
  | .initializing => 13
  | .quitTest => 12
  | .fillCall => 11
  | .filling => 10
  | .sendCall _ => 9
  | .portWrite _ => 8
  | .sendto _ => 7
  | .sendReturn => 6
  | .timeoutCall => 5
  | .timeoutCheck => 4
  | .deinitCall => 3
  | .deinitializing => 2
  | .exitCall => 1
  | .exited => 0

def MainPc.workAfterQuit : MainPc → ℕ
  | .joining => 3
  | .closing => 2
  | .returning => 1
  | _ => 0

def Label.byThread (tid : ℕ) : Label → Bool
  | .stream mover _ => decide (mover = tid)
  | _ => false

def Label.byMain : Label → Bool
  | .main _ => true
  | _ => false

/-- A step of the program, other than one into a failing OpenMAX call. -/
def Label.byProgram : Label → Bool
  | .tick _ | .stream _ .omxError => false
  | _ => true

/-! ## The work that is left -/

theorem PcMove.workAfterQuit_lt
    {s : State} {pc pc' : StreamPc} {action : StreamAction}
    (hmove : PcMove s pc action pc') (hquit : s.quitFlag = true) :
    pc'.workAfterQuit + 1 ≤ pc.workAfterQuit := by
  cases hmove with
  | isQuit => simp [hquit, StreamPc.workAfterQuit]
  | checked => split <;> simp [StreamPc.workAfterQuit]
  | _ => simp [StreamPc.workAfterQuit]

theorem PcMove.workAfterDeadline_lt
    {s : State} {pc pc' : StreamPc} {action : StreamAction}
    (hmove : PcMove s pc action pc')
    (hexpired : (isTimeout s.clock s.timer).2 = true) :
    pc'.workAfterDeadline + 1 ≤ pc.workAfterDeadline := by
  cases hmove with
  | isQuit => split <;> simp [StreamPc.workAfterDeadline]
  | checked => simp [hexpired, StreamPc.workAfterDeadline]
  | _ => simp [StreamPc.workAfterDeadline]

def State.workLeft (s : State) (cost : StreamPc → ℕ) (tid : ℕ) : ℕ :=
  if s.exitCode.isSome = true then 0 else s.framesLeft cost (cost .created) tid

theorem State.workLeft_le
    {cost : StreamPc → ℕ} {bound : ℕ} (hcost : ∀ pc, cost pc ≤ bound)
    (s : State) (tid : ℕ) : s.workLeft cost tid ≤ bound := by
  unfold State.workLeft State.framesLeft
  split
  · exact Nat.zero_le _
  · split
    · exact hcost _
    · exact hcost _

theorem Step.workLeft_le
    {s next : State} {label : Label} (hstep : Step s label next)
    (hrunning : s.exitCode = none) {cost : StreamPc → ℕ}
    (hmove : ∀ pc action pc', PcMove s pc action pc' → cost pc' + 1 ≤ cost pc)
    (hlast : ∀ pc, pc ≠ .exited → 1 ≤ cost pc) (tid : ℕ) :
    next.workLeft cost tid + (if label.byThread tid then 1 else 0) ≤
      s.workLeft cost tid := by
  have hbefore : s.workLeft cost tid = s.framesLeft cost (cost .created) tid := by
    simp [State.workLeft, hrunning]
  have hafter : next.workLeft cost tid ≤
      next.framesLeft cost (cost .created) tid := by
    unfold State.workLeft
    split
    · exact Nat.zero_le _
    · exact le_refl _
  rw [hbefore]
  by_cases hmover : label.byThread tid = true
  · rw [if_pos hmover]
    cases label with
    | tick now => contradiction
    | main action => contradiction
    | stream mover action =>
        have hmine : mover = tid := by simpa [Label.byThread] using hmover
        subst hmine
        rcases hstep.stream_cases with
          ⟨pc, pc', hpc, hpc', hmoved⟩ | ⟨_, hexit, _, pc, hpc, hne⟩
        · have hless := hmove pc action pc' hmoved
          simp only [State.framesLeft, hpc, hpc'] at hafter ⊢
          omega
        · have hleft := hlast pc hne
          simp only [State.workLeft, hexit, if_true, State.framesLeft, hpc]
          omega
  · rw [if_neg hmover]
    have hsame : next.framesLeft cost (cost .created) tid ≤
        s.framesLeft cost (cost .created) tid := by
      have hother : ∀ action, label ≠ .stream tid action := by
        rintro action rfl
        simp [Label.byThread] at hmover
      unfold State.framesLeft
      rcases hstep.pcOf_of_other hother with hsame | ⟨hnone, hcreated⟩
      · rw [hsame]
      · rw [hnone, hcreated]
    omega

theorem StreamPc.workAfterQuit_le (pc : StreamPc) : pc.workAfterQuit ≤ 12 := by
  cases pc <;> simp [StreamPc.workAfterQuit]

theorem StreamPc.workAfterQuit_pos {pc : StreamPc} (hne : pc ≠ .exited) :
    1 ≤ pc.workAfterQuit := by
  cases pc <;> simp [StreamPc.workAfterQuit] at hne ⊢

theorem StreamPc.workAfterDeadline_le (pc : StreamPc) :
    pc.workAfterDeadline ≤ 14 := by
  cases pc <;> simp [StreamPc.workAfterDeadline]

theorem StreamPc.workAfterDeadline_pos {pc : StreamPc} (hne : pc ≠ .exited) :
    1 ≤ pc.workAfterDeadline := by
  cases pc <;> simp [StreamPc.workAfterDeadline] at hne ⊢

theorem thread_steps_after_quit_le
    {s last : State} {more : List Label} (hquit : s.quitFlag = true)
    (hrun : s.run more = some last) (tid : ℕ) :
    more.countP (Label.byThread tid) ≤ 12 := by
  have hbudget : more.countP (Label.byThread tid) ≤
      s.workLeft StreamPc.workAfterQuit tid := by
    apply countP_le_budget (fun state : State => state.quitFlag = true)
      (fun state => state.workLeft StreamPc.workAfterQuit tid)
      hquit ?_ (fun _ _ => rfl : ∀ label ∈ more, (fun _ => true) label = true) hrun
    intro state label next hset _ hstep
    rcases Step.of_step hstep with ⟨hrunning, hnext⟩
    constructor
    · rw [hnext.quitFlag, hset]
      rfl
    · exact hnext.workLeft_le hrunning
        (fun pc action pc' hmove => hmove.workAfterQuit_lt hset)
        (fun pc hne => StreamPc.workAfterQuit_pos hne) tid
  exact hbudget.trans (State.workLeft_le StreamPc.workAfterQuit_le s tid)

theorem thread_steps_after_deadline_le
    {s last : State} {more : List Label} (hexpired : Expired s)
    (hmore : .main .setTimeout ∉ more) (hrun : s.run more = some last)
    (tid : ℕ) : more.countP (Label.byThread tid) ≤ 14 := by
  have hallowed : ∀ label ∈ more, decide (label ≠ .main .setTimeout) = true := by
    intro label hmem
    simp only [decide_eq_true_eq]
    rintro rfl
    exact hmore hmem
  have hbudget : more.countP (Label.byThread tid) ≤
      s.workLeft StreamPc.workAfterDeadline tid := by
    apply countP_le_budget Expired
      (fun state => state.workLeft StreamPc.workAfterDeadline tid)
      hexpired ?_ hallowed hrun
    intro state label next hstill hlabel hstep
    rcases Step.of_step hstep with ⟨hrunning, hnext⟩
    constructor
    · exact hstill.step hnext (by simpa using hlabel)
    · exact hnext.workLeft_le hrunning
        (fun pc action pc' hmove => hmove.workAfterDeadline_lt hstill)
        (fun pc hne => StreamPc.workAfterDeadline_pos hne) tid
  exact hbudget.trans (State.workLeft_le StreamPc.workAfterDeadline_le s tid)

/-! ## main after the quit -/

def QuitLeadsToJoin (s : State) : Prop :=
  s.quitFlag = true → s.main.beforeJoin = false

theorem QuitLeadsToJoin.step
    {s next : State} {label : Label} (hinv : QuitLeadsToJoin s)
    (hstep : Step s label next) : QuitLeadsToJoin next := by
  intro hquit
  rw [hstep.quitFlag] at hquit
  by_cases hset : label = .main .setQuit
  · subst hset
    cases hstep
    rfl
  · have hbefore : s.main.beforeJoin = false := hinv (by simpa [hset] using hquit)
    cases hstep <;> simp_all [MainPc.beforeJoin, State.setPc]

theorem run_quitLeadsToJoin
    {nBufferSize : ℕ} {labels : List Label} {s : State}
    (hrun : (State.initial nBufferSize).run labels = some s) :
    QuitLeadsToJoin s := by
  apply runFrom_invariant QuitLeadsToJoin ?_ ?_ hrun
  · simp [QuitLeadsToJoin, State.initial]
  · intro state label next hinv hstep
    exact hinv.step (Step.of_step hstep).2

def State.mainWorkLeft (s : State) : ℕ :=
  if s.exitCode.isSome = true then 0 else s.main.workAfterQuit

theorem Step.mainWorkLeft_le
    {s next : State} {label : Label} (hstep : Step s label next)
    (hrunning : s.exitCode = none) (hmain : s.main.beforeJoin = false) :
    next.main.beforeJoin = false ∧
      next.mainWorkLeft + (if label.byMain then 1 else 0) ≤ s.mainWorkLeft := by
  cases hstep <;>
    simp_all [MainPc.beforeJoin, State.mainWorkLeft, MainPc.workAfterQuit,
      Label.byMain, State.setPc]

theorem main_steps_after_quit_le
    {s last : State} {more : List Label} (hmain : s.main.beforeJoin = false)
    (hrun : s.run more = some last) : more.countP Label.byMain ≤ 3 := by
  have hbudget : more.countP Label.byMain ≤ s.mainWorkLeft := by
    apply countP_le_budget (fun state : State => state.main.beforeJoin = false)
      State.mainWorkLeft hmain ?_
      (fun _ _ => rfl : ∀ label ∈ more, (fun _ => true) label = true) hrun
    intro state label next hlate _ hstep
    rcases Step.of_step hstep with ⟨hrunning, hnext⟩
    exact hnext.mainWorkLeft_le hrunning hlate
  have hthree : s.mainWorkLeft ≤ 3 := by
    unfold State.mainWorkLeft
    split
    · exact Nat.zero_le _
    · cases s.main <;> simp [MainPc.workAfterQuit]
  exact hbudget.trans hthree

theorem threads_after_quit
    {s last : State} {more : List Label} (hmain : s.main.beforeJoin = false)
    (hrun : s.run more = some last) :
    last.threads.length = s.threads.length := by
  have hboth : last.main.beforeJoin = false ∧
      last.threads.length = s.threads.length := by
    apply runFrom_invariant
      (fun state : State => state.main.beforeJoin = false ∧
        state.threads.length = s.threads.length) ⟨hmain, rfl⟩ ?_ hrun
    rintro state label next ⟨hlate, hlength⟩ hstep
    rcases Step.of_step hstep with ⟨hrunning, hnext⟩
    constructor
    · exact (hnext.mainWorkLeft_le hrunning hlate).1
    · rw [hnext.length_threads, if_neg ?_, hlength, Nat.add_zero]
      rintro rfl
      cases hnext with
      | created hcreating => simp [hcreating, MainPc.beforeJoin] at hlate
  exact hboth.2

/-! ## Nothing is stuck -/

theorem PcMove.ne_omxError
    {s : State} {pc pc' : StreamPc} {action : StreamAction}
    (hmove : PcMove s pc action pc') : action ≠ .omxError := by
  cases hmove <;> simp

theorem streamStep_of_advance
    {s : State} {tid : ℕ} {thread : StreamThread} {action : StreamAction}
    {pc : StreamPc}
    (hadvance : thread.pc.advance s.quitFlag s.nBufferSize action = some pc) :
    s.streamStep tid thread action = some (s.setPc tid thread pc) := by
  unfold State.streamStep
  split
  case h_6 =>
    rw [hadvance]
    rfl
  all_goals simp_all [StreamPc.advance]

/-- A thread that has not ended can move on, unless its frame cannot be sent. -/
theorem exists_thread_move
    {s : State} {tid : ℕ} {thread : StreamThread} {before : StreamPc}
    (hrunning : s.exitCode = none) (hthread : s.threads[tid]? = some thread)
    (hbefore : thread.pc = before) (hpc : before ≠ .exited)
    (hsend : ∀ len, before = .sendto len →
      s.socketsOpen = true ∧ len ≤ maxUdpPayload) :
    ∃ action pc next, PcMove s before action pc ∧
      s.step (.stream tid action) = some next ∧
      next.pcOf tid = some pc ∧ ∀ len, action = .fillEnd len → len = 0 := by
  have hmoved : ∀ (action : StreamAction) (pc : StreamPc) (next : State),
      PcMove s before action pc → s.streamStep tid thread action = some next →
      next.threads = (s.setPc tid thread pc).threads →
      (∀ len, action = .fillEnd len → len = 0) →
        ∃ action pc next, PcMove s before action pc ∧
          s.step (.stream tid action) = some next ∧
          next.pcOf tid = some pc ∧ ∀ len, action = .fillEnd len → len = 0 := by
    intro action pc next hmove hnext hthreads hempty
    have hstep : s.step (.stream tid action) = some next := by
      simpa [State.step, hrunning, hthread] using hnext
    have hset : (s.setPc tid thread pc).pcOf tid = some pc :=
      (State.pcOf_setPc hthread tid).trans (if_pos rfl)
    refine ⟨action, pc, next, hmove, hstep, ?_, hempty⟩
    unfold State.pcOf at hset ⊢
    rw [hthreads]
    exact hset
  have hadvance : ∀ (action : StreamAction) (pc : StreamPc),
      PcMove s before action pc →
      before.advance s.quitFlag s.nBufferSize action = some pc →
      (∀ len, action = .fillEnd len → len = 0) →
        ∃ action pc next, PcMove s before action pc ∧
          s.step (.stream tid action) = some next ∧
          next.pcOf tid = some pc ∧ ∀ len, action = .fillEnd len → len = 0 := by
    intro action pc hmove hpcs hempty
    apply hmoved action pc (s.setPc tid thread pc) hmove ?_ rfl hempty
    rw [streamStep_of_advance (hbefore ▸ hpcs)]
  cases before with
  | created => exact hadvance .initStart _ .initStart rfl (by simp)
  | initializing => exact hadvance .initEnd _ .initEnd rfl (by simp)
  | quitTest => exact hadvance .isQuit _ .isQuit rfl (by simp)
  | fillCall => exact hadvance .fillStart _ .fillStart rfl (by simp)
  | filling =>
      exact hadvance (.fillEnd 0) (.sendCall 0) (.fillEnd (Nat.zero_le _))
        (by simp [StreamPc.advance]) (by simp)
  | sendCall len => exact hadvance .sendStart _ (.sendStart len) rfl (by simp)
  | portWrite len =>
      have hwritten : s.streamStep tid thread .writePort =
          some { s.setPc tid thread (.sendto len) with
            udp := writeStreamPort s.udp } := by
        simp only [State.streamStep, hbefore]
      exact hmoved .writePort _ _ (.writePort len) hwritten rfl (by simp)
  | sendto len =>
      have hsent : s.streamStep tid thread (.sendto true) =
          some (s.setPc tid thread .sendReturn) := by
        simp only [State.streamStep, hbefore, if_pos (hsend len rfl)]
      exact hmoved (.sendto true) _ _ (.sent len) hsent rfl (by simp)
  | sendReturn => exact hadvance .sendEnd _ .sendEnd rfl (by simp)
  | timeoutCall => exact hadvance .timeoutStart _ .timeoutStart rfl (by simp)
  | timeoutCheck =>
      have hchecked : s.streamStep tid thread .isTimeout =
          some { s.setPc tid thread
              (if (isTimeout s.clock s.timer).2 then .deinitCall else .quitTest) with
            timer := (isTimeout s.clock s.timer).1 } := by
        simp only [State.streamStep, hbefore]
      exact hmoved .isTimeout _ _ .checked hchecked rfl (by simp)
  | deinitCall => exact hadvance .deinitStart _ .deinitStart rfl (by simp)
  | deinitializing => exact hadvance .deinitEnd _ .deinitEnd rfl (by simp)
  | exitCall => exact hadvance .pthreadExit _ .pthreadExit rfl (by simp)
  | exited => contradiction

/-- A thread that has not ended can take a step, whatever the others do. -/
theorem exists_thread_step
    {s : State} {tid : ℕ} {thread : StreamThread} (hrunning : s.exitCode = none)
    (hthread : s.threads[tid]? = some thread) (hpc : thread.pc ≠ .exited) :
    ∃ action next, action ≠ .omxError ∧
      s.step (.stream tid action) = some next := by
  by_cases hsend : ∀ len, thread.pc = .sendto len →
      s.socketsOpen = true ∧ len ≤ maxUdpPayload
  · obtain ⟨action, pc, next, hmove, hnext, _⟩ :=
      exists_thread_move hrunning hthread rfl hpc hsend
    exact ⟨action, next, hmove.ne_omxError, hnext⟩
  · push Not at hsend
    obtain ⟨len, hlen, _⟩ := hsend
    have hfailed : s.step (.stream tid (.sendto false)) =
        some { s with exitCode := some 0 } := by
      simp only [State.step, hrunning, hthread, State.streamStep, hlen]
      rfl
    exact ⟨.sendto false, _, by simp, hfailed⟩

theorem exists_step_after_quit
    {s : State} (hrunning : s.exitCode = none)
    (hmain : s.main.beforeJoin = false) (hown : JoinsOwnThread s) :
    ∃ label next, label.byProgram = true ∧ s.step label = some next := by
  cases hpc : s.main with
  | joining =>
      rcases hown hpc with ⟨tid, thread, htid, hthread, hjoins⟩
      by_cases hexited : thread.pc = .exited
      · have hjoin : s.step (.main .join) = some { s with
            main := .closing
            threads := s.threads.set tid
              { thread with joins := thread.joins + 1 } } := by
          simp [State.step, hrunning, State.mainStep, hpc, State.join, htid,
            hthread, hexited]
        exact ⟨.main .join, _, rfl, hjoin⟩
      · obtain ⟨action, next, hne, hstep⟩ :=
          exists_thread_step hrunning hthread hexited
        refine ⟨.stream tid action, next, ?_, hstep⟩
        cases action <;> first | rfl | contradiction
  | closing =>
      have hclose : s.step (.main .close) =
          some { s with socketsOpen := false, main := .returning } := by
        simp [State.step, hrunning, State.mainStep, hpc]
      exact ⟨.main .close, _, rfl, hclose⟩
  | returning =>
      have hret : s.step (.main .ret) = some { s with exitCode := some 0 } := by
        simp [State.step, hrunning, State.mainStep, hpc]
      exact ⟨.main .ret, _, rfl, hret⟩
  | _ => simp [hpc, MainPc.beforeJoin] at hmain

/-! ## The end -/

/-- Shutdown comes to an end.  After a quit no thread is created, each thread
has at most 12 steps to take and `main` has three; and as long as the process
runs, and the join is for a thread of the program, some step can be taken, the
functions of `h264.cpp` returning once they are called. -/
theorem shutdown_comes_to_an_end
    {nBufferSize : ℕ} {labels : List Label} {s : State}
    (hrun : (State.initial nBufferSize).run labels = some s)
    (hquit : s.quitFlag = true) :
    (∀ more last, s.run more = some last →
      more.countP Label.byMain ≤ 3 ∧
        (∀ tid, more.countP (Label.byThread tid) ≤ 12) ∧
        last.threads.length = s.threads.length) ∧
      (s.exitCode = none → JoinsOwnThread s →
        ∃ label next, label.byProgram = true ∧ s.step label = some next) := by
  have hmain := run_quitLeadsToJoin hrun hquit
  constructor
  · intro more last hmore
    exact ⟨main_steps_after_quit_le hmain hmore,
      thread_steps_after_quit_le hquit hmore, threads_after_quit hmain hmore⟩
  · intro hrunning hown
    exact exists_step_after_quit hrunning hmain hown

/-- A stream that is quit while its thread waits for a frame. -/
def quitWhileFillingRun : List Label :=
  [.main (.setup true)] ++ serveVideoRequest ⟨1, 40000⟩ ++ initSession 0 ++
    [.stream 0 .isQuit, .stream 0 .fillStart] ++ serveQuitServer ⟨1, 40000⟩

theorem quitWhileFillingRun_ends :
    ∃ s, (State.initial 65536).run quitWhileFillingRun = some s ∧
      ∀ more last, s.run more = some last →
        more.countP (Label.byThread 0) ≤ 12 := by
  refine ⟨((State.initial 65536).run quitWhileFillingRun).get (by decide +kernel),
    (Option.some_get _).symm, ?_⟩
  intro more last hmore
  exact ((shutdown_comes_to_an_end (Option.some_get _).symm
    (by decide +kernel)).1 more last hmore).2.1 0

/-- A session comes to an end once its deadline has passed.  With no further
`set_timeout` each stream thread has at most 14 steps to take, and until it has
ended it can take one, the functions of `h264.cpp` returning once they are
called. -/
theorem sessions_end_after_deadline
    {nBufferSize : ℕ} {labels : List Label} {s : State} {start : Timespec}
    (hrun : (State.initial nBufferSize).run labels = some s)
    (hstart : latestSetTimeout labels = some start)
    (hlate : 2000 ≤ s.clock.ms - start.ms)
    {more : List Label} {last : State} (hmore : s.run more = some last)
    (hnone : .main .setTimeout ∉ more) (tid : ℕ) :
    more.countP (Label.byThread tid) ≤ 14 ∧
      (last.exitCode = none → ∀ thread, last.threads[tid]? = some thread →
        thread.pc ≠ .exited →
          ∃ action next, action ≠ .omxError ∧
            last.step (.stream tid action) = some next) := by
  have hexpired : Expired s :=
    isTimeout_of_le ((run_timerInvariant hrun).endMs start hstart) hlate
  constructor
  · exact thread_steps_after_deadline_le hexpired hnone hmore tid
  · intro hrunning thread hthread hpc
    exact exists_thread_step hrunning hthread hpc

theorem expiredRun_ends :
    (lastFrame ++ endSession 0).countP (Label.byThread 0) ≤ 14 :=
  have hrun : (State.initial 65536).run expiredRun =
      some (((State.initial 65536).run expiredRun).get (by decide +kernel)) :=
    (Option.some_get _).symm
  have hmore : (((State.initial 65536).run expiredRun).get
      (by decide +kernel)).run (lastFrame ++ endSession 0) =
        some (((((State.initial 65536).run expiredRun).get
          (by decide +kernel)).run (lastFrame ++ endSession 0)).get
            (by decide +kernel)) :=
    (Option.some_get _).symm
  have hstart : latestSetTimeout expiredRun = some .zero := by decide +kernel
  (sessions_end_after_deadline hrun hstart (by decide +kernel) hmore
    (by decide) 0).1

end RpiUdpStream
