import RpiUdpStream.ServerTime
import RpiUdpStream.TimeoutRange

/-!
# The server on the 32-bit target

The server with the clock and the statics of `app_timeout` as the 32-bit target
has them.  All else is as in the server over unbounded arithmetic, so the two
make the same run as long as they answer each `is_timeout` alike; and where they
answer it differently, one thread goes on to its next frame and the other to
`omx_h264_deinit`, and the runs have parted for good.
-/

namespace RpiUdpStream

open LabelledRun

namespace Target32

inductive Label where
  | tick (now : Timespec)
  | main (action : MainAction)
  | stream (tid : ℕ) (action : StreamAction)
  deriving DecidableEq

/-- `server` is all but the clock and the timer, whose places in it are not
used, and `start` the reading of the latest `set_timeout`, which the code does
not keep. -/
structure State where
  clock : Timespec
  timer : Timer
  server : RpiUdpStream.State
  start : Timespec
  deriving DecidableEq

def State.initial (nBufferSize : ℕ) : State where
  clock := Timer.initial.spec
  timer := .initial
  server := .initial nBufferSize
  start := Timer.initial.spec

def State.step (s : State) (label : Label) : Option State :=
  if s.server.exitCode.isSome then none
  else
    match label with
    | .tick now =>
        if s.clock.exact.ms ≤ now.exact.ms then some { s with clock := now }
        else none
    | .main .setTimeout =>
        (s.server.mainStep .setTimeout).map fun server =>
          { s with
            timer := setTimeout s.clock s.timer
            server := server
            start := s.clock }
    | .main action =>
        (s.server.mainStep action).map fun server => { s with server := server }
    | .stream tid action =>
        match s.server.threads[tid]? with
        | none => none
        | some thread =>
            match thread.pc, action with
            | .timeoutCheck, .isTimeout =>
                let (timer, expired) := isTimeout s.clock s.timer
                some { s with
                  timer := timer
                  server := s.server.setPc tid thread
                    (if expired then .deinitCall else .quitTest) }
            | _, action =>
                (s.server.streamStep tid thread action).map fun server =>
                  { s with server := server }

abbrev State.run (s : State) (labels : List Label) : Option State :=
  runFrom State.step s labels

/-- The same label over unbounded arithmetic. -/
def Label.exact : Label → RpiUdpStream.Label
  | .tick now => .tick now.exact
  | .main action => .main action
  | .stream tid action => .stream tid action

/-- The server over unbounded arithmetic is in the same state but for its
timer. -/
def Agrees (s : State) (t : RpiUdpStream.State) : Prop :=
  t = s.server.withTime s.clock.exact t.timer

/-- No `is_timeout` is answered where the wraps between the deadline and the
time do harm. -/
def ChecksHarmlessly (s : State) : Label → Prop
  | .stream _ .isTimeout => WrapsHarmlessly s.start s.clock
  | _ => True

/-- The clock shows a time in the first 2^31 ms of uptime, a deadline that is set
at that time included: a time below 2^31 - 2000 ms. -/
def Label.InRange : Label → Prop
  | .tick now => now.deadline < 2 ^ 31
  | _ => True

instance : (label : Label) → Decidable label.InRange
  | .tick now => inferInstanceAs (Decidable (now.deadline < 2 ^ 31))
  | .main _ => inferInstanceAs (Decidable True)
  | .stream _ _ => inferInstanceAs (Decidable True)

/-! ## What one step can do -/

inductive Step (s : State) : Label → State → Prop where
  | tick {now : Timespec} (hclock : s.clock.exact.ms ≤ now.exact.ms) :
      Step s (.tick now) { s with clock := now }
  | setTimeout {server : RpiUdpStream.State}
      (hserver : s.server.step (.main .setTimeout) = some server) :
      Step s (.main .setTimeout)
        { s with
          timer := setTimeout s.clock s.timer
          server := server
          start := s.clock }
  | mainMoved {action : MainAction} {server : RpiUdpStream.State}
      (haction : action ≠ .setTimeout)
      (hserver : s.server.step (.main action) = some server) :
      Step s (.main action) { s with server := server }
  | checked {tid : ℕ} {thread : StreamThread}
      (hthread : s.server.threads[tid]? = some thread)
      (hpc : thread.pc = .timeoutCheck) :
      Step s (.stream tid .isTimeout)
        { s with
          timer := (isTimeout s.clock s.timer).1
          server := s.server.setPc tid thread
            (if (isTimeout s.clock s.timer).2 then .deinitCall else .quitTest) }
  | streamMoved {tid : ℕ} {action : StreamAction} {server : RpiUdpStream.State}
      (haction : action ≠ .isTimeout)
      (hserver : s.server.step (.stream tid action) = some server) :
      Step s (.stream tid action) { s with server := server }

theorem Step.of_step
    {s next : State} {label : Label} (hstep : s.step label = some next) :
    s.server.exitCode = none ∧ Step s label next := by
  unfold State.step at hstep
  split at hstep
  · contradiction
  · rename_i hexit
    have hrunning : s.server.exitCode = none := by simpa using hexit
    refine ⟨hrunning, ?_⟩
    cases label with
    | tick now =>
        obtain ⟨hclock, hnext⟩ := Option.ite_none_right_eq_some.mp hstep
        cases hnext
        exact .tick hclock
    | main action =>
        by_cases haction : action = .setTimeout
        · subst haction
          obtain ⟨server, hserver, hnext⟩ := Option.map_eq_some_iff.mp hstep
          subst hnext
          apply Step.setTimeout
          simpa [RpiUdpStream.State.step, hrunning] using hserver
        · have hmoved : (s.server.mainStep action).map
              (fun server => { s with server := server }) = some next := by
            cases action <;> first | exact hstep | contradiction
          obtain ⟨server, hserver, hnext⟩ := Option.map_eq_some_iff.mp hmoved
          subst hnext
          apply Step.mainMoved haction
          simpa [RpiUdpStream.State.step, hrunning] using hserver
    | stream tid action =>
        cases hthread : s.server.threads[tid]? with
        | none => simp [hthread] at hstep
        | some thread =>
            simp only [hthread] at hstep
            by_cases hchecked : thread.pc = .timeoutCheck ∧ action = .isTimeout
            · obtain ⟨hpc, haction⟩ := hchecked
              subst haction
              simp only [hpc] at hstep
              cases hstep
              exact .checked hthread hpc
            · have hmoved : (s.server.streamStep tid thread action).map
                  (fun server => { s with server := server }) = some next := by
                split at hstep
                · rename_i hpc
                  exact absurd ⟨hpc, rfl⟩ hchecked
                · exact hstep
              obtain ⟨server, hserver, hnext⟩ := Option.map_eq_some_iff.mp hmoved
              subst hnext
              have haction : action ≠ .isTimeout := by
                intro heq
                subst heq
                rw [RpiUdpStream.State.streamStep_isTimeout fun hpc =>
                  hchecked ⟨hpc, rfl⟩] at hserver
                contradiction
              apply Step.streamMoved haction
              simpa [RpiUdpStream.State.step, hrunning, hthread] using hserver

/-! ## Following the server -/

/-- A thread exists or is about to be created, so `set_timeout` was called. -/
def Started (s : RpiUdpStream.State) : Prop :=
  s.threads ≠ [] ∨ ∃ datagram, s.main = .creating datagram

theorem started_before
    {s next : RpiUdpStream.State} {label : RpiUdpStream.Label}
    (hstep : RpiUdpStream.Step s label next) (hset : label ≠ .main .setTimeout)
    (hstarted : Started next) : Started s := by
  have hexists : ∀ {tid : ℕ} {thread : StreamThread},
      s.threads[tid]? = some thread → Started s := by
    intro tid thread hthread
    left
    intro hnone
    simp [hnone] at hthread
  cases hstep with
  | created hmain => exact Or.inr ⟨_, hmain⟩
  | requested => contradiction
  | refreshed => contradiction
  | joined _ _ hthread => exact hexists hthread
  | move hthread => exact hexists hthread
  | writePort hthread => exact hexists hthread
  | sent hthread => exact hexists hthread
  | checked hthread => exact hexists hthread
  | tick => exact hstarted
  | setupFailed => exact hstarted
  | receiveFailed => exact hstarted
  | ret => exact hstarted
  | sendFailed hthread => exact hexists hthread
  | omxError hthread => exact hexists hthread
  | _ =>
      rcases hstarted with hthreads | ⟨datagram, hcreating⟩
      · exact Or.inl hthreads
      · contradiction

/-- The deadline of both timers was set at `start`. -/
structure DeadlineSet (s : State) (t : RpiUdpStream.State) : Prop where
  target : s.timer.endMs = (setTimeout s.start s.timer).endMs
  exact : t.timer.endMs = s.start.deadline
  monotone : s.start.exact.ms ≤ s.clock.exact.ms

structure Follows (s : State) (t : RpiUdpStream.State) : Prop where
  agrees : Agrees s t
  deadline : Started s.server → DeadlineSet s t

/-- One server goes on where the other ends its session. -/
def Parted (s : State) (t : RpiUdpStream.State) : Prop :=
  ∃ tid, (s.server.pcOf tid = some .quitTest ∧ t.pcOf tid = some .deinitCall) ∨
    (s.server.pcOf tid = some .deinitCall ∧ t.pcOf tid = some .quitTest)

theorem Parted.not_agrees
    {s : State} {t : RpiUdpStream.State} (hparted : Parted s t) : ¬ Agrees s t := by
  intro hagrees
  have hsame : ∀ tid, t.pcOf tid = s.server.pcOf tid := by
    intro tid
    rw [hagrees]
    rfl
  obtain ⟨tid, ⟨hpc, hother⟩ | ⟨hpc, hother⟩⟩ := hparted
  · rw [hsame, hpc] at hother
    contradiction
  · rw [hsame, hpc] at hother
    contradiction

theorem Follows.tick
    {s : State} {t : RpiUdpStream.State} {now : Timespec} (hfollows : Follows s t)
    (hrunning : s.server.exitCode = none) (hclock : s.clock.exact.ms ≤ now.exact.ms) :
    ∃ t', t.step (.tick now.exact) = some t' ∧ Follows { s with clock := now } t' := by
  obtain ⟨timer, heq⟩ : ∃ timer, t = s.server.withTime s.clock.exact timer :=
    ⟨t.timer, hfollows.agrees⟩
  subst heq
  refine ⟨s.server.withTime now.exact timer, ?_, rfl, ?_⟩
  · simp [RpiUdpStream.State.step, State.withTime, hrunning, hclock]
  · intro hstarted
    have hset := hfollows.deadline hstarted
    exact ⟨hset.target, hset.exact, hset.monotone.trans hclock⟩

theorem Follows.setTimeout
    {s : State} {t server : RpiUdpStream.State} (hfollows : Follows s t)
    (hserver : s.server.step (.main .setTimeout) = some server) :
    ∃ t', t.step (.main .setTimeout) = some t' ∧
      Follows { s with
        timer := setTimeout s.clock s.timer
        server := server
        start := s.clock } t' := by
  obtain ⟨timer, heq⟩ : ∃ timer, t = s.server.withTime s.clock.exact timer :=
    ⟨t.timer, hfollows.agrees⟩
  subst heq
  have hrunning := (RpiUdpStream.Step.of_step hserver).1
  have hmain : s.server.mainStep .setTimeout = some server := by
    simpa [RpiUdpStream.State.step, hrunning] using hserver
  refine ⟨server.withTime s.clock.exact
    (RpiUdpStream.setTimeout s.clock.exact timer), ?_, rfl, ?_⟩
  · have hsame : (s.server.withTime s.clock.exact timer).exitCode = none := hrunning
    simp [RpiUdpStream.State.step, hsame, RpiUdpStream.State.mainStep_setTimeout, hmain]
  · intro _
    refine ⟨rfl, ?_, le_refl _⟩
    exact RpiUdpStream.setTimeout_endMs s.clock.exact timer

theorem Follows.moved
    {s : State} {t server : RpiUdpStream.State} {label : RpiUdpStream.Label}
    (hfollows : Follows s t) (htick : ∀ now, label ≠ .tick now)
    (hset : label ≠ .main .setTimeout) (hcheck : ∀ tid, label ≠ .stream tid .isTimeout)
    (hserver : s.server.step label = some server) :
    ∃ t', t.step label = some t' ∧ Follows { s with server := server } t' := by
  obtain ⟨timer, heq⟩ : ∃ timer, t = s.server.withTime s.clock.exact timer :=
    ⟨t.timer, hfollows.agrees⟩
  subst heq
  refine ⟨server.withTime s.clock.exact timer, ?_, rfl, ?_⟩
  · rw [RpiUdpStream.State.step_withTime _ _ _ htick hset hcheck, hserver]
    rfl
  · intro hstarted
    have hbefore := hfollows.deadline
      (started_before (RpiUdpStream.Step.of_step hserver).2 hset hstarted)
    exact ⟨hbefore.target, hbefore.exact, hbefore.monotone⟩

theorem DeadlineSet.verdict_eq_iff
    {s : State} {t : RpiUdpStream.State} (hset : DeadlineSet s t) :
    (isTimeout s.clock s.timer).2 =
        (RpiUdpStream.isTimeout s.clock.exact t.timer).2 ↔
      WrapsHarmlessly s.start s.clock := by
  rw [← timeoutRight_iff hset.monotone s.timer,
    timeoutRight_iff_eq_exact s.start s.clock s.timer t.timer]
  have htarget : (isTimeout s.clock s.timer).2 =
      (isTimeout s.clock (Target32.setTimeout s.start s.timer)).2 := by
    simp only [isTimeout, hset.target]
  have hexact : (RpiUdpStream.isTimeout s.clock.exact t.timer).2 =
      (RpiUdpStream.isTimeout s.clock.exact
        (RpiUdpStream.setTimeout s.start.exact t.timer)).2 := by
    simp only [RpiUdpStream.isTimeout, hset.exact, RpiUdpStream.setTimeout_endMs]
    rfl
  rw [htarget, hexact]

theorem Follows.checked
    {s : State} {t : RpiUdpStream.State} {tid : ℕ} {thread : StreamThread}
    (hfollows : Follows s t) (hrunning : s.server.exitCode = none)
    (hthread : s.server.threads[tid]? = some thread)
    (hpc : thread.pc = .timeoutCheck) {next : State}
    (hnext : next = { s with
      timer := (isTimeout s.clock s.timer).1
      server := s.server.setPc tid thread
        (if (isTimeout s.clock s.timer).2 then .deinitCall else .quitTest) }) :
    ∃ t', t.step (.stream tid .isTimeout) = some t' ∧
      (WrapsHarmlessly s.start s.clock → Follows next t') ∧
      (¬ WrapsHarmlessly s.start s.clock → Parted next t') := by
  obtain ⟨timer, heq⟩ : ∃ timer, t = s.server.withTime s.clock.exact timer :=
    ⟨t.timer, hfollows.agrees⟩
  subst heq hnext
  have hset : DeadlineSet s (s.server.withTime s.clock.exact timer) := by
    apply hfollows.deadline
    left
    intro hnone
    simp [hnone] at hthread
  have hverdict := hset.verdict_eq_iff
  refine ⟨_, RpiUdpStream.State.step_check hrunning hthread hpc, ?_, ?_⟩
  · intro hwraps
    rw [← hverdict] at hwraps
    constructor
    · rw [Agrees, hwraps]
      rfl
    · intro _
      exact ⟨hset.target, hset.exact, hset.monotone⟩
  · intro hharm
    rw [← hverdict] at hharm
    refine ⟨tid, ?_⟩
    have htarget : (s.server.setPc tid thread
        (if (isTimeout s.clock s.timer).2 then .deinitCall else .quitTest)).pcOf tid =
          some (if (isTimeout s.clock s.timer).2 then .deinitCall else .quitTest) :=
      (RpiUdpStream.State.pcOf_setPc hthread tid).trans (if_pos rfl)
    have hexact : ((s.server.withTime s.clock.exact timer).setPc tid thread
        (if (RpiUdpStream.isTimeout s.clock.exact timer).2 then .deinitCall
          else .quitTest)).pcOf tid =
          some (if (RpiUdpStream.isTimeout s.clock.exact timer).2 then .deinitCall
            else .quitTest) :=
      (RpiUdpStream.State.pcOf_setPc hthread tid).trans (if_pos rfl)
    cases htargetSays : (isTimeout s.clock s.timer).2 with
    | true =>
        have hexactSays : (RpiUdpStream.isTimeout s.clock.exact timer).2 = false := by
          simpa [htargetSays, State.withTime] using hharm
        rw [htargetSays] at htarget
        exact Or.inr ⟨htarget, hexact.trans (by rw [hexactSays]; rfl)⟩
    | false =>
        have hexactSays : (RpiUdpStream.isTimeout s.clock.exact timer).2 = true := by
          simpa [htargetSays, State.withTime] using hharm
        rw [htargetSays] at htarget
        exact Or.inl ⟨htarget, hexact.trans (by rw [hexactSays]; rfl)⟩

theorem Follows.step
    {s next : State} {t : RpiUdpStream.State} {label : Label}
    (hfollows : Follows s t) (hstep : s.step label = some next) :
    (ChecksHarmlessly s label ∧
        ∃ t', t.step label.exact = some t' ∧ Follows next t') ∨
      (¬ ChecksHarmlessly s label ∧
        ∀ t', t.step label.exact = some t' → Parted next t') := by
  obtain ⟨hrunning, hstep⟩ := Step.of_step hstep
  cases hstep with
  | tick hclock => exact Or.inl ⟨trivial, hfollows.tick hrunning hclock⟩
  | setTimeout hserver => exact Or.inl ⟨trivial, hfollows.setTimeout hserver⟩
  | mainMoved haction hserver =>
      exact Or.inl ⟨trivial,
        hfollows.moved (by simp [Label.exact]) (by simpa [Label.exact] using haction)
          (by simp [Label.exact]) hserver⟩
  | @streamMoved tid action server haction hserver =>
      have hharmless : ChecksHarmlessly s (.stream tid action) := by
        cases action <;> trivial
      exact Or.inl ⟨hharmless,
        hfollows.moved (by simp [Label.exact]) (by simp [Label.exact])
          (by simpa [Label.exact] using haction) hserver⟩
  | @checked tid thread hthread hpc =>
      obtain ⟨t', ht', hsame, hparts⟩ := hfollows.checked hrunning hthread hpc rfl
      by_cases hwraps : WrapsHarmlessly s.start s.clock
      · exact Or.inl ⟨hwraps, t', ht', hsame hwraps⟩
      · right
        refine ⟨hwraps, ?_⟩
        intro found hfound
        rw [Label.exact, ht'] at hfound
        cases hfound
        exact hparts hwraps

/-! ## Parted for good -/

theorem stays_or_moves
    {s next : RpiUdpStream.State} {label : RpiUdpStream.Label} {tid : ℕ}
    {pc : StreamPc} (hstep : RpiUdpStream.Step s label next)
    (hpc : s.pcOf tid = some pc) :
    (next.pcOf tid = some pc ∧ ∀ action, label = .stream tid action →
        action = .sendto false ∨ action = .omxError) ∨
      ∃ action pc', label = .stream tid action ∧ PcMove s pc action pc' := by
  by_cases hmine : ∃ action, label = .stream tid action
  · obtain ⟨action, heq⟩ := hmine
    subst heq
    rcases hstep.stream_cases with
      ⟨before, after, hbefore, _, hmove⟩ | ⟨hfails, _, hthreads, _⟩
    · rw [hpc] at hbefore
      cases hbefore
      exact Or.inr ⟨action, after, rfl, hmove⟩
    · left
      constructor
      · unfold RpiUdpStream.State.pcOf at hpc ⊢
        rw [hthreads]
        exact hpc
      · intro other hother
        cases hother
        exact hfails
  · push Not at hmine
    left
    rcases hstep.pcOf_of_other hmine with hsame | ⟨hnone, _⟩
    · exact ⟨hsame.trans hpc, fun action heq => absurd heq (hmine action)⟩
    · rw [hnone] at hpc
      contradiction

theorem Step.stays_or_moves
    {s next : State} {label : Label} {tid : ℕ} {pc : StreamPc}
    (hstep : Step s label next) (hpc : s.server.pcOf tid = some pc)
    (hne : pc ≠ .timeoutCheck) :
    (next.server.pcOf tid = some pc ∧ ∀ action, label.exact = .stream tid action →
        action = .sendto false ∨ action = .omxError ∨ action = .isTimeout) ∨
      ∃ action pc', label.exact = .stream tid action ∧
        PcMove s.server pc action pc' := by
  cases hstep with
  | tick => exact Or.inl ⟨hpc, by simp [Label.exact]⟩
  | setTimeout hserver =>
      rcases Target32.stays_or_moves (RpiUdpStream.Step.of_step hserver).2 hpc with
        ⟨hsame, _⟩ | ⟨action, pc', hlabel, _⟩
      · exact Or.inl ⟨hsame, by simp [Label.exact]⟩
      · contradiction
  | mainMoved haction hserver =>
      rcases Target32.stays_or_moves (RpiUdpStream.Step.of_step hserver).2 hpc with
        ⟨hsame, _⟩ | ⟨action, pc', hlabel, _⟩
      · exact Or.inl ⟨hsame, by simp [Label.exact]⟩
      · contradiction
  | streamMoved haction hserver =>
      exact (Target32.stays_or_moves (RpiUdpStream.Step.of_step hserver).2 hpc).imp_left
        fun ⟨hsame, hfails⟩ => ⟨hsame, fun action heq =>
          (hfails action heq).imp_right Or.inl⟩
  | @checked mover thread hthread hcheck =>
      left
      have hother : tid ≠ mover := by
        intro heq
        subst heq
        simp only [RpiUdpStream.State.pcOf, hthread, Option.map_some,
          Option.some.injEq] at hpc
        exact hne (hpc.symm.trans hcheck)
      constructor
      · exact ((RpiUdpStream.State.pcOf_setPc hthread tid).trans
          (if_neg hother)).trans hpc
      · intro action heq
        cases heq
        exact absurd rfl hother

/-- The only move of each of two program counters is with another action. -/
def MovesApart (s t : RpiUdpStream.State) (pc pc' : StreamPc) : Prop :=
  ∃ moves moves' : StreamAction, moves ≠ moves' ∧
    (∀ action after, PcMove s pc action after → action = moves) ∧
    (∀ action after, PcMove t pc' action after → action = moves') ∧
    ∀ action, action = moves ∨ action = moves' →
      action ≠ .sendto false ∧ action ≠ .omxError ∧ action ≠ .isTimeout

theorem stay_apart
    {s next : State} {t t' : RpiUdpStream.State} {label : Label} {tid : ℕ}
    {pc pc' : StreamPc} (htarget : Step s label next)
    (hexact : RpiUdpStream.Step t label.exact t')
    (hpc : s.server.pcOf tid = some pc) (hpc' : t.pcOf tid = some pc')
    (hne : pc ≠ .timeoutCheck) (hapart : MovesApart s.server t pc pc') :
    next.server.pcOf tid = some pc ∧ t'.pcOf tid = some pc' := by
  obtain ⟨moves, moves', hdiffer, hmoves, hmoves', hlive⟩ := hapart
  rcases htarget.stays_or_moves hpc hne with
    ⟨hsame, hfails⟩ | ⟨action, after, hlabel, hmove⟩
  · rcases stays_or_moves hexact hpc' with
      ⟨hsame', _⟩ | ⟨action, after, hlabel, hmove⟩
    · exact ⟨hsame, hsame'⟩
    · have hlives := hlive action (Or.inr (hmoves' action after hmove))
      have hfail := hfails action hlabel
      tauto
  · have hmine := hmoves action after hmove
    have hlives := hlive action (Or.inl hmine)
    rcases stays_or_moves hexact hpc' with
      ⟨_, hfails⟩ | ⟨other, after', hother, hmove'⟩
    · have hfail := hfails action hlabel
      tauto
    · rw [hlabel] at hother
      cases hother
      exact absurd (hmine.symm.trans (hmoves' action after' hmove')) hdiffer

theorem moves_of_quitTest
    {s : RpiUdpStream.State} {action : StreamAction} {after : StreamPc}
    (hmove : PcMove s .quitTest action after) : action = .isQuit := by
  cases hmove
  rfl

theorem moves_of_deinitCall
    {s : RpiUdpStream.State} {action : StreamAction} {after : StreamPc}
    (hmove : PcMove s .deinitCall action after) : action = .deinitStart := by
  cases hmove
  rfl

theorem Parted.step
    {s next : State} {t t' : RpiUdpStream.State} {label : Label}
    (hparted : Parted s t) (hstep : s.step label = some next)
    (hother : t.step label.exact = some t') : Parted next t' := by
  have htarget := (Step.of_step hstep).2
  have hexact := (RpiUdpStream.Step.of_step hother).2
  obtain ⟨tid, ⟨hpc, hpc'⟩ | ⟨hpc, hpc'⟩⟩ := hparted
  · refine ⟨tid, Or.inl (stay_apart htarget hexact hpc hpc' (by simp) ?_)⟩
    exact ⟨.isQuit, .deinitStart, by simp, fun _ _ => moves_of_quitTest,
      fun _ _ => moves_of_deinitCall, by simp⟩
  · refine ⟨tid, Or.inr (stay_apart htarget hexact hpc hpc' (by simp) ?_)⟩
    exact ⟨.deinitStart, .isQuit, by simp, fun _ _ => moves_of_deinitCall,
      fun _ _ => moves_of_quitTest, by simp⟩

/-- No wrap does harm in a run whose clock stays in the first 2^31 ms of uptime,
the deadline included, that is, below 2^31 - 2000 ms. -/
theorem checks_harmless_in_range
    {nBufferSize : ℕ} {labels : List Label}
    (hrange : ∀ label ∈ labels, label.InRange) :
    EveryStep State.step ChecksHarmlessly (State.initial nBufferSize) labels := by
  apply everyStep_of_invariant
    (fun state => state.start.deadline < 2 ^ 31 ∧ state.clock.deadline < 2 ^ 31)
    ?_ ?_ hrange
  · have hzero : Timer.initial.spec.deadline < 2 ^ 31 := by
      decide +kernel
    exact ⟨hzero, hzero⟩
  · rintro state label ⟨hstart, hclock⟩ hallowed
    constructor
    · have hsec := state.clock.secMs_le_floor.2
      have hdeadline : state.clock.deadline = ⌊state.clock.exact.ms⌋ + 2000 := rfl
      have hharmless := ((staysInRange_iff state.start state.clock).mpr
        ⟨hstart, by omega⟩).wrapsHarmlessly
      unfold ChecksHarmlessly
      split
      · exact hharmless
      · trivial
    · intro next hstep
      cases (Step.of_step hstep).2 with
      | tick => exact ⟨hstart, hallowed⟩
      | setTimeout => exact ⟨hclock, hclock⟩
      | mainMoved => exact ⟨hstart, hclock⟩
      | checked => exact ⟨hstart, hclock⟩
      | streamMoved => exact ⟨hstart, hclock⟩

/-- The server on the 32-bit target makes the run of the server over unbounded
arithmetic exactly when no `is_timeout` is answered where wraps do harm, as none
is in the first 2^31 ms of uptime, the deadline included. -/
theorem follows_exact_iff_wraps_harmlessly
    {nBufferSize : ℕ} {labels : List Label} {s : State}
    (hrun : (State.initial nBufferSize).run labels = some s) :
    (EveryStep State.step ChecksHarmlessly (State.initial nBufferSize) labels ↔
      ∃ t, (RpiUdpStream.State.initial nBufferSize).run (labels.map Label.exact) =
        some t ∧ Agrees s t) ∧
    ((∀ label ∈ labels, label.InRange) →
      EveryStep State.step ChecksHarmlessly (State.initial nBufferSize) labels) := by
  constructor
  · apply everyStep_iff_follows Follows Parted Agrees ?_ ?_ ?_ ?_ ?_ hrun
    · intro state label next t hfollows hstep
      exact hfollows.step hstep
    · intro state label next t t' hparted hstep hother
      exact hparted.step hstep hother
    · exact fun state t hfollows => hfollows.agrees
    · exact fun state t hparted => hparted.not_agrees
    · constructor
      · rfl
      · rintro (hthreads | ⟨datagram, hmain⟩)
        · exact absurd rfl hthreads
        · contradiction
  · exact fun hrange => checks_harmless_in_range hrange

/-- A session of one frame, checked when the clock shows `checkSec`. -/
def oneCheckRun (startSec checkSec : Timespec) : List Label :=
  [.tick startSec, .main (.setup true),
    .main (.receive (some ⟨⟨1, 40000⟩, Command.text .videoRequest⟩)),
    .main .dispatch, .main .setTimeout, .main (.create .created),
    .stream 0 .initStart, .stream 0 .initEnd, .stream 0 .isQuit,
    .stream 0 .fillStart, .stream 0 (.fillEnd 1000), .stream 0 .sendStart,
    .stream 0 .writePort, .stream 0 (.sendto true), .stream 0 .sendEnd,
    .stream 0 .timeoutStart, .tick checkSec, .stream 0 .isTimeout]

def thirdWeekRun : List Label :=
  oneCheckRun (.second 1900000 (by decide)) (.second 1900003 (by decide))

theorem thirdWeekRun_follows_exact :
    ∃ t, (RpiUdpStream.State.initial 65536).run (thirdWeekRun.map Label.exact) =
      some t ∧ t.pcOf 0 = some .deinitCall := by
  have hpc : ((State.initial 65536).run thirdWeekRun).map
      (fun s => s.server.pcOf 0) = some (some .deinitCall) := by
    decide +kernel
  obtain ⟨s, hrun, hstate⟩ := Option.map_eq_some_iff.mp hpc
  obtain ⟨hfollows, hrange⟩ := follows_exact_iff_wraps_harmlessly hrun
  obtain ⟨t, hexact, hagrees⟩ := hfollows.mp (hrange (by decide +kernel))
  refine ⟨t, hexact, ?_⟩
  rw [hagrees]
  exact hstate

end Target32

end RpiUdpStream
