import RpiUdpStream.ServerSteps

/-!
# How long a stream lives

A stream thread leaves its loop only after a quit, or on a check that is made
more than 1999 ms after the latest `set_timeout`; once the quit or 2000 ms have
come, it sends at most one more frame; and a thread that has left its loop goes
on to `omx_h264_deinit` and sends nothing after it.
-/

namespace RpiUdpStream

open LabelledRun

/-- The time of the clock and the time of the latest `set_timeout` after a
list of labels. -/
def timesOf (labels : List Label) : Timespec × Option Timespec :=
  labels.foldl
    (fun times label =>
      match label with
      | .tick now => (now, times.2)
      | .main .setTimeout => (times.1, some times.1)
      | _ => times) (.zero, none)

def latestSetTimeout (labels : List Label) : Option Timespec :=
  (timesOf labels).2

def frames (tid : ℕ) (labels : List Label) : ℕ :=
  labels.countP fun label => decide (label = .stream tid (.sendto true))

def StreamPc.inLoop : StreamPc → Bool
  | .created | .initializing | .deinitCall | .deinitializing | .exitCall
  | .exited => false
  | _ => true

def StreamPc.leftLoop : StreamPc → Bool
  | .deinitCall | .deinitializing | .exitCall | .exited => true
  | _ => false

/-- The frame that a thread may still send after `set_quit`. -/
def StreamPc.framesAfterQuit : StreamPc → ℕ
  | .fillCall | .filling | .sendCall _ | .portWrite _ | .sendto _ => 1
  | _ => 0

def StreamPc.framesAfterDeadline : StreamPc → ℕ
  | .sendReturn | .timeoutCall | .timeoutCheck | .deinitCall | .deinitializing
  | .exitCall | .exited => 0
  | _ => 1

theorem timesOf_concat (labels : List Label) (label : Label) :
    timesOf (labels ++ [label]) =
      match label with
      | .tick now => (now, (timesOf labels).2)
      | .main .setTimeout => ((timesOf labels).1, some (timesOf labels).1)
      | _ => timesOf labels := by
  simp [timesOf]

structure TimerInvariant (labels : List Label) (s : State) : Prop where
  clock : (timesOf labels).1 = s.clock
  endMs : ∀ start, latestSetTimeout labels = some start →
    s.timer.endMs = ⌊start.ms⌋ + timeoutMs
  quit : s.quitFlag = true ↔ .main .setQuit ∈ labels
  setBefore : s.threads ≠ [] ∨ (∃ datagram, s.main = .creating datagram) →
    (latestSetTimeout labels).isSome = true

theorem TimerInvariant.setTimeout
    {labels : List Label} {s next : State} (hinv : TimerInvariant labels s)
    (hstep : Step s (.main .setTimeout) next) :
    TimerInvariant (labels ++ [.main .setTimeout]) next := by
  rcases hstep.timer_of_setTimeout with ⟨htimer, hclock⟩
  have htimes : timesOf (labels ++ [.main .setTimeout]) =
      (s.clock, some s.clock) := by
    rw [timesOf_concat, hinv.clock]
  constructor
  · rw [htimes, hclock]
  · intro start hstart
    have heq : s.clock = start := by
      rw [latestSetTimeout, htimes] at hstart
      exact Option.some.inj hstart
    rw [htimer, setTimeout_endMs, heq]
  · rw [hstep.quitFlag]
    simpa using hinv.quit
  · intro _
    rw [latestSetTimeout, htimes]
    rfl

theorem TimerInvariant.other
    {labels : List Label} {s next : State} {label : Label}
    (hinv : TimerInvariant labels s) (hstep : Step s label next)
    (hlabel : label ≠ .main .setTimeout) :
    TimerInvariant (labels ++ [label]) next := by
  have hlatest : latestSetTimeout (labels ++ [label]) =
      latestSetTimeout labels := by
    unfold latestSetTimeout
    rw [timesOf_concat]
    split
    · rfl
    · contradiction
    · rfl
  constructor
  · rw [timesOf_concat]
    cases hstep with
    | requested => contradiction
    | refreshed => contradiction
    | tick => rfl
    | _ => exact hinv.clock
  · intro start hstart
    rw [hlatest] at hstart
    rw [hstep.endMs hlabel]
    exact hinv.endMs start hstart
  · rw [hstep.quitFlag]
    simp only [Bool.or_eq_true, decide_eq_true_eq, List.mem_append,
      List.mem_singleton, hinv.quit]
    exact or_congr Iff.rfl eq_comm
  · intro hset
    rw [hlatest]
    apply hinv.setBefore
    by_cases hcreate : label = .main (.create .created)
    · subst hcreate
      cases hstep with
      | @created datagram hmain => exact Or.inr ⟨datagram, hmain⟩
    · rcases hset with hthreads | ⟨datagram, hcreating⟩
      · left
        have hlength := hstep.length_threads
        rw [if_neg hcreate] at hlength
        rw [← List.length_pos_iff] at hthreads ⊢
        omega
      · right
        cases hstep <;> simp_all [State.setPc]

theorem run_timerInvariant
    {nBufferSize : ℕ} {labels : List Label} {s : State}
    (hrun : (State.initial nBufferSize).run labels = some s) :
    TimerInvariant labels s := by
  apply runFrom_traceInvariant TimerInvariant ?_ ?_ hrun
  · constructor <;> simp [State.initial, timesOf, latestSetTimeout]
  · intro trace state label next _ hinv hstep
    have hnext := (Step.of_step hstep).2
    by_cases hlabel : label = .main .setTimeout
    · subst hlabel
      exact hinv.setTimeout hnext
    · exact hinv.other hnext hlabel

/-! ## Leaving the loop -/

def LeavesLoop (s next : State) (tid : ℕ) : Prop :=
  ∃ pc pc' : StreamPc, s.pcOf tid = some pc ∧ next.pcOf tid = some pc' ∧
    pc.inLoop = true ∧ pc'.inLoop = false

/-- Only the two tests of the loop lead out of it, and they lead to
`omx_h264_deinit`. -/
theorem PcMove.leaves_loop
    {s : State} {pc pc' : StreamPc} {action : StreamAction}
    (hmove : PcMove s pc action pc') (hin : pc.inLoop = true)
    (hout : pc'.inLoop = false) :
    pc' = .deinitCall ∧
      (s.quitFlag = true ∨
        action = .isTimeout ∧ (isTimeout s.clock s.timer).2 = true) := by
  cases hmove with
  | isQuit =>
      split at hout
      · rename_i hquit
        simp [hquit]
      · contradiction
  | checked =>
      split at hout
      · rename_i hexpired
        simp [hexpired]
      · contradiction
  | _ => contradiction

theorem Step.leaves_loop
    {s next : State} {label : Label} {tid : ℕ}
    (hstep : Step s label next) (hleaves : LeavesLoop s next tid) :
    next.pcOf tid = some .deinitCall ∧
      (s.quitFlag = true ∨
        label = .stream tid .isTimeout ∧
          (isTimeout s.clock s.timer).2 = true) := by
  rcases hleaves with ⟨pc, pc', hpc, hpc', hin, hout⟩
  rcases hstep.pcOf_cases tid with
    ⟨hsame, _⟩ | ⟨_, hnone, _⟩ | ⟨before, action, after, hlabel, hbefore, hafter, hmove⟩
  · rw [hsame, hpc] at hpc'
    cases hpc'
    rw [hin] at hout
    contradiction
  · rw [hnone] at hpc
    contradiction
  · rw [hpc] at hbefore
    rw [hpc'] at hafter
    cases hbefore
    cases hafter
    rcases hmove.leaves_loop hin hout with ⟨hdeinit, htest⟩
    constructor
    · rw [hpc', hdeinit]
    · rcases htest with hquit | ⟨haction, hexpired⟩
      · exact Or.inl hquit
      · exact Or.inr ⟨by rw [hlabel, haction], hexpired⟩

/-! ## Frames that are still to come -/

def State.framesLeft (s : State) (cost : StreamPc → ℕ) (absent : ℕ)
    (tid : ℕ) : ℕ :=
  match s.pcOf tid with
  | none => absent
  | some pc => cost pc

theorem Step.framesLeft_le
    {s next : State} {label : Label} (hstep : Step s label next)
    {cost : StreamPc → ℕ} {absent : ℕ} (habsent : cost .created ≤ absent)
    (hmove : ∀ pc action pc', PcMove s pc action pc' →
      cost pc' + (if action = .sendto true then 1 else 0) ≤ cost pc)
    (tid : ℕ) :
    next.framesLeft cost absent tid +
        (if label = .stream tid (.sendto true) then 1 else 0) ≤
      s.framesLeft cost absent tid := by
  unfold State.framesLeft
  rcases hstep.pcOf_cases tid with
    ⟨hsame, hlabel⟩ | ⟨hlabel, hnone, hcreated⟩ |
      ⟨pc, action, pc', hlabel, hpc, hpc', hmoved⟩
  · rw [hsame, if_neg hlabel]
    omega
  · rw [hnone, hcreated, hlabel, if_neg (by simp)]
    exact habsent
  · have hcost := hmove pc action pc' hmoved
    rw [hpc, hpc', hlabel]
    simpa using hcost

theorem PcMove.framesAfterQuit_le
    {s : State} {pc pc' : StreamPc} {action : StreamAction}
    (hmove : PcMove s pc action pc') (hquit : s.quitFlag = true) :
    pc'.framesAfterQuit + (if action = .sendto true then 1 else 0) ≤
      pc.framesAfterQuit := by
  cases hmove with
  | isQuit => simp [hquit, StreamPc.framesAfterQuit]
  | checked => split <;> simp [StreamPc.framesAfterQuit]
  | _ => simp [StreamPc.framesAfterQuit]

theorem PcMove.framesAfterDeadline_le
    {s : State} {pc pc' : StreamPc} {action : StreamAction}
    (hmove : PcMove s pc action pc')
    (hexpired : (isTimeout s.clock s.timer).2 = true) :
    pc'.framesAfterDeadline + (if action = .sendto true then 1 else 0) ≤
      pc.framesAfterDeadline := by
  cases hmove with
  | isQuit => split <;> simp [StreamPc.framesAfterDeadline]
  | checked => simp [hexpired, StreamPc.framesAfterDeadline]
  | _ => simp [StreamPc.framesAfterDeadline]

theorem PcMove.leftLoop
    {s : State} {pc pc' : StreamPc} {action : StreamAction}
    (hmove : PcMove s pc action pc') (hleft : pc.leftLoop = true) :
    pc'.leftLoop = true ∧ action ≠ .sendto true := by
  cases hmove <;> first | contradiction | exact ⟨rfl, by simp⟩

theorem StreamPc.framesAfterQuit_le_one (pc : StreamPc) :
    pc.framesAfterQuit ≤ 1 := by
  cases pc <;> simp [StreamPc.framesAfterQuit]

theorem StreamPc.framesAfterDeadline_le_one (pc : StreamPc) :
    pc.framesAfterDeadline ≤ 1 := by
  cases pc <;> simp [StreamPc.framesAfterDeadline]

theorem State.framesLeft_le_one
    {cost : StreamPc → ℕ} {absent : ℕ} (hcost : ∀ pc, cost pc ≤ 1)
    (habsent : absent ≤ 1) (s : State) (tid : ℕ) :
    s.framesLeft cost absent tid ≤ 1 := by
  unfold State.framesLeft
  split
  · exact habsent
  · exact hcost _

theorem frames_after_quit_le_one
    {s last : State} {more : List Label} (hquit : s.quitFlag = true)
    (hrun : s.run more = some last) (tid : ℕ) : frames tid more ≤ 1 := by
  have hbudget : frames tid more ≤ s.framesLeft StreamPc.framesAfterQuit 0 tid := by
    apply countP_le_budget (fun state : State => state.quitFlag = true)
      (fun state => state.framesLeft StreamPc.framesAfterQuit 0 tid)
      hquit ?_ (fun _ _ => rfl : ∀ label ∈ more, (fun _ => true) label = true) hrun
    intro state label next hset _ hstep
    have hnext := (Step.of_step hstep).2
    constructor
    · rw [hnext.quitFlag, hset]
      rfl
    · have hleft := hnext.framesLeft_le (le_refl 0)
        (fun pc action pc' hmove => hmove.framesAfterQuit_le hset) tid
      simpa using hleft
  exact hbudget.trans
    (State.framesLeft_le_one StreamPc.framesAfterQuit_le_one (by simp) s tid)

def Expired (s : State) : Prop := (isTimeout s.clock s.timer).2 = true

theorem Expired.step
    {s next : State} {label : Label} (hexpired : Expired s)
    (hstep : Step s label next) (hlabel : label ≠ .main .setTimeout) :
    Expired next := by
  unfold Expired at hexpired ⊢
  rw [isTimeout_iff] at hexpired ⊢
  rw [hstep.endMs hlabel]
  exact hexpired.trans hstep.clock_le

theorem frames_after_deadline_le_one
    {s last : State} {more : List Label} (hexpired : Expired s)
    (hmore : .main .setTimeout ∉ more) (hrun : s.run more = some last)
    (tid : ℕ) : frames tid more ≤ 1 := by
  have hallowed : ∀ label ∈ more,
      decide (label ≠ .main .setTimeout) = true := by
    intro label hmem
    simp only [decide_eq_true_eq]
    rintro rfl
    exact hmore hmem
  have hbudget : frames tid more ≤
      s.framesLeft StreamPc.framesAfterDeadline 1 tid := by
    apply countP_le_budget Expired
      (fun state => state.framesLeft StreamPc.framesAfterDeadline 1 tid)
      hexpired ?_ hallowed hrun
    intro state label next hstill hlabel hstep
    have hnext := (Step.of_step hstep).2
    constructor
    · exact hstill.step hnext (by simpa using hlabel)
    · have hleft := hnext.framesLeft_le (le_refl 1)
        (fun pc action pc' hmove => hmove.framesAfterDeadline_le hstill) tid
      simpa using hleft
  exact hbudget.trans
    (State.framesLeft_le_one StreamPc.framesAfterDeadline_le_one (le_refl 1) s tid)

theorem frames_after_loop_eq_zero
    {s last : State} {more : List Label} {tid : ℕ} {pc : StreamPc}
    (hpc : s.pcOf tid = some pc) (hleft : pc.leftLoop = true)
    (hrun : s.run more = some last) : frames tid more = 0 := by
  have hbudget : frames tid more ≤ 0 := by
    apply countP_le_budget
      (fun state : State => ∃ pc, state.pcOf tid = some pc ∧ pc.leftLoop = true)
      (fun _ => 0) ⟨pc, hpc, hleft⟩ ?_
      (fun _ _ => rfl : ∀ label ∈ more, (fun _ => true) label = true) hrun
    rintro state label next ⟨before, hbefore, hbeforeLeft⟩ _ hstep
    rcases (Step.of_step hstep).2.pcOf_cases tid with
      ⟨hsame, hlabel⟩ | ⟨_, hnone, _⟩ |
        ⟨origin, action, pc', hlabel, horigin, hpc', hmove⟩
    · exact ⟨⟨before, hsame.trans hbefore, hbeforeLeft⟩, by simp [hlabel]⟩
    · rw [hnone] at hbefore
      contradiction
    · rw [hbefore] at horigin
      cases horigin
      rcases hmove.leftLoop hbeforeLeft with ⟨hstill, haction⟩
      exact ⟨⟨pc', hpc', hstill⟩, by simp [hlabel, haction]⟩
  exact Nat.le_zero.mp hbudget

/-! ## The life of a stream -/

theorem State.step_deinitStart
    {s : State} {tid : ℕ} (hrunning : s.exitCode = none)
    (hpc : s.pcOf tid = some .deinitCall) :
    ∃ next, s.step (.stream tid .deinitStart) = some next := by
  rcases Option.map_eq_some_iff.mp hpc with ⟨thread, hthread, hthreadPc⟩
  simp [State.step, hrunning, hthread, State.streamStep, hthreadPc,
    StreamPc.advance]

theorem Step.eq_deinitStart
    {s next : State} {tid : ℕ} {action : StreamAction}
    (hstep : Step s (.stream tid action) next)
    (hpc : s.pcOf tid = some .deinitCall) : action = .deinitStart := by
  rcases Option.map_eq_some_iff.mp hpc with ⟨thread, hthread, hthreadPc⟩
  cases hstep with
  | move hfound hadvance =>
      rw [hthread] at hfound
      cases hfound
      rw [hthreadPc] at hadvance
      cases PcMove.of_advance hadvance
      rfl
  | _ => simp_all [StreamPc.inOmxCall]

/-- A stream lives exactly as long as it is kept alive.  A thread leaves its
loop only after a quit or on a check more than 1999 ms after the latest
`set_timeout`; after a quit, and 2000 ms after the latest `set_timeout`, it
sends at most one more frame; and having left its loop it goes on to
`omx_h264_deinit` and sends none. -/
theorem stream_lives_while_kept_alive
    {nBufferSize : ℕ} {labels : List Label} {s : State}
    (hrun : (State.initial nBufferSize).run labels = some s) (tid : ℕ) :
    (∀ label next, s.step label = some next → LeavesLoop s next tid →
      .main .setQuit ∈ labels ∨
        label = .stream tid .isTimeout ∧
          ∃ start, latestSetTimeout labels = some start ∧
            1999 < s.clock.ms - start.ms) ∧
    (.main .setQuit ∈ labels →
      ∀ more last, s.run more = some last → frames tid more ≤ 1) ∧
    (∀ start, latestSetTimeout labels = some start →
      2000 ≤ s.clock.ms - start.ms →
        ∀ more last, .main .setTimeout ∉ more → s.run more = some last →
          frames tid more ≤ 1) ∧
    (∀ label next, s.step label = some next → LeavesLoop s next tid →
      next.pcOf tid = some .deinitCall ∧
        (∃ after, next.step (.stream tid .deinitStart) = some after) ∧
        (∀ action after, next.step (.stream tid action) = some after →
          action = .deinitStart) ∧
        ∀ more last, next.run more = some last → frames tid more = 0) := by
  have hinv := run_timerInvariant hrun
  refine ⟨?_, ?_, ?_, ?_⟩
  · intro label next hstep hleaves
    rcases (Step.of_step hstep).2.leaves_loop hleaves with ⟨_, htest⟩
    rcases htest with hquit | ⟨hlabel, hexpired⟩
    · exact Or.inl (hinv.quit.mp hquit)
    · right
      constructor
      · exact hlabel
      · rcases hleaves with ⟨pc, _, hpc, _⟩
        have hthreads : s.threads ≠ [] := by
          intro hnil
          simp [State.pcOf, hnil] at hpc
        obtain ⟨start, hstart⟩ :=
          Option.isSome_iff_exists.mp (hinv.setBefore (Or.inl hthreads))
        exact ⟨start, hstart, lt_of_isTimeout (hinv.endMs start hstart) hexpired⟩
  · intro hquit more last hmore
    exact frames_after_quit_le_one (hinv.quit.mpr hquit) hmore tid
  · intro start hstart hlate more last hnone hmore
    have hexpired : Expired s := isTimeout_of_le (hinv.endMs start hstart) hlate
    exact frames_after_deadline_le_one hexpired hnone hmore tid
  · intro label next hstep hleaves
    rcases Step.of_step hstep with ⟨hrunning, hnext⟩
    have hdeinit := (hnext.leaves_loop hleaves).1
    have hmoved : next.pcOf tid ≠ s.pcOf tid := by
      rcases hleaves with ⟨pc, _, hpc, _, hin, _⟩
      rw [hdeinit, hpc]
      intro heq
      rw [← Option.some.inj heq] at hin
      contradiction
    have hstill : next.exitCode = none :=
      (hnext.exitCode_of_pcOf_ne hmoved).trans hrunning
    refine ⟨hdeinit, State.step_deinitStart hstill hdeinit, ?_, ?_⟩
    · intro action after hafter
      exact (Step.of_step hafter).2.eq_deinitStart hdeinit
    · intro more last hmore
      exact frames_after_loop_eq_zero hdeinit rfl hmore

/-- A stream whose thread waits for a frame when its deadline passes. -/
def expiredRun : List Label :=
  [.main (.setup true)] ++ serveVideoRequest ⟨1, 40000⟩ ++ initSession 0 ++
    [.stream 0 .isQuit, .stream 0 .fillStart, .tick (.second 2)]

def lastFrame : List Label :=
  [.stream 0 (.fillEnd 1000), .stream 0 .sendStart, .stream 0 .writePort,
    .stream 0 (.sendto true), .stream 0 .sendEnd, .stream 0 .timeoutStart,
    .stream 0 .isTimeout]

theorem expiredRun_one_frame :
    frames 0 (lastFrame ++ endSession 0) ≤ 1 :=
  have hrun : (State.initial 65536).run expiredRun =
      some (((State.initial 65536).run expiredRun).get (by decide +kernel)) :=
    (Option.some_get _).symm
  (stream_lives_while_kept_alive hrun 0).2.2.1 .zero (by decide +kernel)
    (by decide +kernel) (lastFrame ++ endSession 0)
    (((((State.initial 65536).run expiredRun).get (by decide +kernel)).run
      (lastFrame ++ endSession 0)).get (by decide +kernel))
    (by decide) (Option.some_get _).symm

end RpiUdpStream
