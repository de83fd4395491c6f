import RpiUdpStream.UninterruptedTimer

/-!
# What the race on the timer costs

A reading of the clock may be torn: its seconds of one reading, its nanoseconds
of another.  Its seconds are still those of a time during the call, so a deadline
and the time that is compared with it are off by less than a second each.
-/

namespace RpiUdpStream

open LabelledRun

namespace Racy

theorem result_of_ret
    {clock : Timespec} {timer after : Timer} {call next : TimerRace.Call}
    (hfunction : call.function = .isTimeout)
    (hperform : call.perform clock timer .ret = some (next, after)) :
    ∃ time endMs, call.time = some time ∧ call.endMs = some endMs ∧
      next.result = some (decide ((endMs : ℚ) ≤ time.ms)) := by
  simp only [TimerRace.Call.perform, Option.ite_none_right_eq_some] at hperform
  obtain ⟨_, hreturn⟩ := hperform
  split at hreturn
  · rename_i time endMs htime hend
    cases hreturn
    rw [hfunction]
    exact ⟨time, endMs, htime, hend, rfl⟩
  · contradiction

/-! ## No stream is cut early -/

/-- `end` is at least two seconds after the second `low`, and so is what a check
of the thread has read of it. -/
structure AtLeast (low tid : ℕ) (s : State) : Prop where
  clock : low ≤ s.clock.tvSec
  deadline : ((low : ℤ) + 2) * 1000 ≤ s.timer.endMs
  setting : ∀ call ∈ s.setting, low ≤ call.start.tvSec
  checking : ∀ call ∈ s.checking tid, ∀ endMs ∈ call.endMs,
    ((low : ℤ) + 2) * 1000 ≤ endMs

theorem Invariant.atLeast
    {s : State} {d : Deadline} {tid : ℕ} (hinv : Invariant s)
    (hdeadline : s.deadline = some d) (hnone : s.checking tid = none) :
    AtLeast d.called.tvSec tid s where
  clock := by
    have hholds := hinv.deadline d hdeadline
    exact tvSec_le_of_ms_le (hholds.called_le.trans hholds.written_le)
  deadline := (hinv.deadline d hdeadline).lower
  setting call hcall := tvSec_le_of_ms_le (hinv.sequential d hdeadline call hcall)
  checking := by
    rw [hnone]
    simp

theorem AtLeast.looked
    {low tid mover : ℕ} {s : State} {action : TimerRace.Action}
    {call next : TimerRace.Call} {timer : Timer} (hleast : AtLeast low tid s)
    (hinv : Invariant s) (hchecking : s.checking mover = some call)
    (hstep : TimerRace.CallStep s.clock s.timer call action next timer) :
    AtLeast low tid { s with
      timer := timer
      checking := Function.update s.checking mover (some next) } := by
  obtain ⟨_, _, hreads⟩ := endMs_of_callStep hstep
  have hsame := (hinv.checking mover call hchecking).endMs_of_check hstep
  constructor
  · exact hleast.clock
  · rw [hsame]
    exact hleast.deadline
  · exact hleast.setting
  · intro found hfound endMs hend
    rcases mem_update hfound with ⟨heq, hnext⟩ | hother
    · subst heq
      cases hnext
      rcases hreads with hkept | hread
      · rw [hkept] at hend
        exact hleast.checking call hchecking endMs hend
      · rw [hread, hsame] at hend
        cases hend
        exact hleast.deadline
    · exact hleast.checking found hother endMs hend

theorem AtLeast.step
    {low tid : ℕ} {s next : State} {label : Label} (hleast : AtLeast low tid s)
    (hinv : Invariant s) (hstep : Step s label next) : AtLeast low tid next := by
  obtain ⟨hclock, hdeadline, hsetting, hchecking⟩ := hleast
  cases hstep with
  | tick hlater =>
      exact ⟨hclock.trans (tvSec_le_of_ms_le hlater), hdeadline, hsetting, hchecking⟩
  | moved => exact ⟨hclock, hdeadline, hsetting, hchecking⟩
  | @started mover server =>
      refine ⟨hclock, hdeadline, hsetting, ?_⟩
      intro call hcall endMs hend
      rcases mem_update hcall with ⟨_, hbegun⟩ | hother
      · cases hbegun
        contradiction
      · exact hchecking call hother endMs hend
  | called =>
      refine ⟨hclock, hdeadline, ?_, hchecking⟩
      rintro call hcall
      cases hcall
      exact hclock
  | accessed hfound haction _ hcall =>
      obtain ⟨hstart, hwrites, _⟩ := endMs_of_callStep hcall
      refine ⟨hclock, ?_, ?_, hchecking⟩
      · rw [hwrites.resolve_right fun hwrite => haction hwrite.1]
        exact hdeadline
      · rintro found hnext
        cases hnext
        rw [hstart]
        exact hsetting _ hfound
  | @wrote call after timer hfound hcall =>
      obtain ⟨hstart, _, _⟩ := endMs_of_callStep hcall
      have hlow := hsetting call hfound
      have hbounds := ((hinv.setting call hfound).step hinv.spec (by simp)
        hcall).written_bounds (endMs_of_accessEnd hcall)
      rw [hstart] at hbounds
      refine ⟨hclock, ?_, ?_, hchecking⟩
      · change ((low : ℤ) + 2) * 1000 ≤ timer.endMs
        omega
      · rintro found hnext
        cases hnext
        rw [hstart]
        exact hlow
  | set => exact ⟨hclock, hdeadline, by simp, hchecking⟩
  | looked hfound _ hcall =>
      exact AtLeast.looked ⟨hclock, hdeadline, hsetting, hchecking⟩ hinv hfound hcall
  | @checked mover =>
      refine ⟨hclock, hdeadline, hsetting, ?_⟩
      intro call hcall
      rcases mem_update hcall with ⟨_, hnone⟩ | hother
      · contradiction
      · exact hchecking call hother

theorem run_atLeast
    {nBufferSize : ℕ} {labels more : List Label} {s last : State} {d : Deadline}
    {tid : ℕ} (hrun : (State.initial nBufferSize).run labels = some s)
    (hdeadline : s.deadline = some d) (hnone : s.checking tid = none)
    (hmore : s.run more = some last) :
    Invariant last ∧ AtLeast d.called.tvSec tid last := by
  have hinv := run_invariant hrun
  apply runFrom_invariant
    (fun state => Invariant state ∧ AtLeast d.called.tvSec tid state) ?_ ?_ hmore
  · exact ⟨hinv, hinv.atLeast hdeadline hnone⟩
  · rintro state label next ⟨hstill, hleast⟩ hstep
    have hnext := (Step.of_step hstep).2
    exact ⟨hstill.step hnext, hleast.step hstill hnext⟩

theorem AtLeast.late_of_expired
    {low tid : ℕ} {s : State} {call next : TimerRace.Call} {timer : Timer}
    (hleast : AtLeast low tid s) (hinv : Invariant s)
    (hchecking : s.checking tid = some call)
    (hperform : call.perform s.clock s.timer .ret = some (next, timer))
    (hexpired : next.result = some true) : low + 2 ≤ s.clock.tvSec := by
  have hcall := hinv.checking tid call hchecking
  obtain ⟨time, endMs, htime, hend, hresult⟩ := result_of_ret hcall.function hperform
  rw [hexpired] at hresult
  have hle : (endMs : ℚ) ≤ time.ms := by
    simpa using hresult.symm
  have hlow : ((low : ℚ) + 2) * 1000 ≤ endMs := by
    exact_mod_cast hleast.checking call hchecking endMs hend
  have htvSec : (time.tvSec : ℚ) ≤ s.clock.tvSec := by
    exact_mod_cast (hcall.time_bounds htime).2
  have hsecond := (ms_in_second time).2
  have hlate : (low : ℚ) + 2 < s.clock.tvSec + 1 := by
    linarith
  have hlate' : low + 2 < s.clock.tvSec + 1 := by
    exact_mod_cast hlate
  omega

/-- Only a quit, or a check that says so, takes a thread out of its loop. -/
theorem Step.leaves_loop
    {s next : State} {label : Label} {tid : ℕ} (hstep : Step s label next)
    (hleaves : LeavesLoop s.server next.server tid) :
    s.server.quitFlag = true ∨
      label = .isTimeout tid .ret ∧ ∃ call after timer,
        s.checking tid = some call ∧
          call.perform s.clock s.timer .ret = some (after, timer) ∧
          after.result = some true := by
  have hstays : ∀ server : RpiUdpStream.State,
      server.pcOf tid = s.server.pcOf tid → ¬ LeavesLoop s.server server tid := by
    rintro server hsame ⟨pc, pc', hpc, hpc', hin, hout⟩
    rw [hsame, hpc] at hpc'
    cases hpc'
    rw [hin] at hout
    contradiction
  have hquits : ∀ (moving : RpiUdpStream.Label) (server : RpiUdpStream.State),
      moving ≠ .stream tid .isTimeout → s.server.step moving = some server →
        LeavesLoop s.server server tid → s.server.quitFlag = true := by
    intro moving server hother hserver hout
    have htests := ((RpiUdpStream.Step.of_step hserver).2.leaves_loop hout).2
    exact htests.resolve_right fun htest => hother htest.1
  cases hstep with
  | moved hapart _ hserver =>
      refine Or.inl (hquits _ _ ?_ hserver hleaves)
      rintro rfl
      contradiction
  | started hserver => exact Or.inl (hquits _ _ (by simp) hserver hleaves)
  | set hserver => exact absurd hleaves (hstays _ (pcOf_of_setTimeout hserver tid))
  | @checked mover call after timer thread hchecking hperform hthread hpc =>
      right
      have hmover : (s.server.setPc mover thread
          (if after.result = some true then .deinitCall else .quitTest)).pcOf tid =
            if tid = mover then
              some (if after.result = some true then .deinitCall else .quitTest)
            else s.server.pcOf tid :=
        RpiUdpStream.State.pcOf_setPc hthread tid
      by_cases heq : tid = mover
      · subst heq
        rw [if_pos rfl] at hmover
        obtain ⟨_, pc', _, hpc', _, hout⟩ := hleaves
        rw [hmover] at hpc'
        refine ⟨rfl, call, after, timer, hchecking, hperform, ?_⟩
        by_contra hgoes
        rw [if_neg hgoes] at hpc'
        cases hpc'
        contradiction
      · rw [if_neg heq] at hmover
        exact absurd hleaves (hstays _ hmover)
  | _ => exact absurd hleaves (hstays _ rfl)

/-! ## A stream is cut in time -/

/-- A check of the thread that is in progress says that the time has run out. -/
def State.checksLate (s : State) (d : Deadline) (tid : ℕ) : Bool :=
  (s.checking tid).all fun call => decide (d.written.tvSec + 3 ≤ call.start.tvSec)

theorem Invariant.expired_of_late
    {s : State} {d : Deadline} {tid : ℕ} {call next : TimerRace.Call} {timer : Timer}
    (hinv : Invariant s) (hdeadline : s.deadline = some d)
    (hlate : s.checksLate d tid = true) (hchecking : s.checking tid = some call)
    (hperform : call.perform s.clock s.timer .ret = some (next, timer)) :
    next.result = some true := by
  have hstart : d.written.tvSec + 3 ≤ call.start.tvSec := by
    simpa [State.checksLate, hchecking] using hlate
  have hcall := hinv.checking tid call hchecking
  obtain ⟨time, endMs, htime, hend, hresult⟩ := result_of_ret hcall.function hperform
  have hafter : d.written.ms < call.start.ms := by
    rw [← not_le]
    intro hle
    have hsec := tvSec_le_of_ms_le hle
    omega
  have hread := hinv.read tid call hchecking endMs hend d hdeadline hafter
  have hupper := (hinv.deadline d hdeadline).upper
  have htvSec := (hcall.time_bounds htime).1
  have hsec : endMs ≤ (time.tvSec : ℤ) * 1000 := by
    omega
  have hle : (endMs : ℚ) ≤ time.ms := by
    have hcast : (endMs : ℚ) ≤ (time.tvSec : ℚ) * 1000 := by
      exact_mod_cast hsec
    exact hcast.trans (ms_in_second time).1
  rw [hresult, decide_eq_true hle]

/-- The frames that a thread may still send once no check that starts can say
that there is time left. -/
def State.framesLeft (s : State) (d : Deadline) (tid : ℕ) : ℕ :=
  match s.server.pcOf tid with
  | none => 1
  | some .timeoutCheck => if s.checksLate d tid then 0 else 1
  | some pc => pc.framesAfterDeadline

def frames (tid : ℕ) (labels : List Label) : ℕ :=
  labels.countP fun label => decide (label = .server (.stream tid (.sendto true)))

theorem State.framesLeft_le_one (s : State) (d : Deadline) (tid : ℕ) :
    s.framesLeft d tid ≤ 1 := by
  unfold State.framesLeft
  split
  · exact le_refl 1
  · split <;> simp
  · exact StreamPc.framesAfterDeadline_le_one _

theorem State.framesLeft_congr
    {s next : State} {d : Deadline} {tid : ℕ}
    (hpc : next.server.pcOf tid = s.server.pcOf tid)
    (hlate : next.checksLate d tid = s.checksLate d tid) :
    next.framesLeft d tid = s.framesLeft d tid := by
  unfold State.framesLeft
  rw [hpc, hlate]

/-- A move of a thread, other than those of its timer calls, does not add to the
frames that it may still send. -/
theorem framesLeft_of_move
    {s : State} {next : RpiUdpStream.State} {d : Deadline} {tid : ℕ} {pc pc' : StreamPc}
    {action : StreamAction} (hpc : s.server.pcOf tid = some pc)
    (hpc' : next.pcOf tid = some pc') (hmove : PcMove s.server pc action pc')
    (hstarts : action ≠ .timeoutStart) (hchecks : action ≠ .isTimeout) :
    State.framesLeft { s with server := next } d tid +
        (if action = .sendto true then 1 else 0) ≤ s.framesLeft d tid := by
  unfold State.framesLeft
  rw [hpc, hpc']
  cases hmove with
  | isQuit => cases s.server.quitFlag <;> simp [StreamPc.framesAfterDeadline]
  | timeoutStart => contradiction
  | checked => contradiction
  | _ => simp [StreamPc.framesAfterDeadline]

theorem Step.framesLeft_moved
    {s : State} {server : RpiUdpStream.State} {label : RpiUdpStream.Label}
    {d : Deadline} (hapart : takenApart label = false)
    (hstarts : ∀ tid, label ≠ .stream tid .timeoutStart)
    (hserver : s.server.step label = some server) (tid : ℕ) :
    State.framesLeft { s with server := server } d tid +
        (if label = .stream tid (.sendto true) then 1 else 0) ≤ s.framesLeft d tid := by
  rcases (RpiUdpStream.Step.of_step hserver).2.pcOf_cases tid with
    ⟨hsame, hother⟩ | ⟨hlabel, hnone, hcreated⟩ |
      ⟨pc, action, pc', hlabel, hpc, hpc', hmove⟩
  · rw [if_neg hother, Nat.add_zero]
    apply le_of_eq
    apply State.framesLeft_congr
    · exact hsame
    · rfl
  · subst hlabel
    simp [State.framesLeft, hnone, hcreated, StreamPc.framesAfterDeadline]
  · subst hlabel
    have hchecks : action ≠ .isTimeout := by
      rintro rfl
      contradiction
    have hleft := framesLeft_of_move (d := d) hpc hpc' hmove
      (fun heq => hstarts tid (by rw [heq])) hchecks
    simpa using hleft

/-- A check that starts late costs the thread the frames that it had left. -/
theorem Step.framesLeft_started
    {s : State} {mover : ℕ} {server : RpiUdpStream.State} {d : Deadline}
    (hclock : d.written.tvSec + 3 ≤ s.clock.tvSec)
    (hserver : s.server.step (.stream mover .timeoutStart) = some server) (tid : ℕ) :
    State.framesLeft { s with
      server := server
      checking :=
        Function.update s.checking mover (some (.begin .isTimeout s.clock)) } d tid ≤
      s.framesLeft d tid := by
  have hstep := (RpiUdpStream.Step.of_step hserver).2
  by_cases heq : tid = mover
  · subst heq
    rcases hstep.stream_cases with ⟨pc, pc', hpc, hpc', hmove⟩ | ⟨hfails, _⟩
    · cases hmove with
      | timeoutStart =>
          simp [State.framesLeft, hpc, hpc', State.checksLate, TimerRace.Call.begin,
            hclock]
    · rcases hfails with hfail | hfail <;> contradiction
  · apply le_of_eq
    apply State.framesLeft_congr
    · rcases hstep.pcOf_cases tid with
        ⟨hsame, _⟩ | ⟨hlabel, _⟩ | ⟨_, action, _, hlabel, _⟩
      · exact hsame
      · contradiction
      · cases hlabel
        exact absurd rfl heq
    · simp [State.checksLate, Function.update_of_ne heq]

theorem Step.framesLeft_checked
    {s : State} {mover : ℕ} {call after : TimerRace.Call} {timer : Timer}
    {thread : StreamThread} {d : Deadline} (hinv : Invariant s)
    (hdeadline : s.deadline = some d) (hchecking : s.checking mover = some call)
    (hperform : call.perform s.clock s.timer .ret = some (after, timer))
    (hthread : s.server.threads[mover]? = some thread)
    (hpc : thread.pc = .timeoutCheck) (tid : ℕ) :
    State.framesLeft { s with
      server := s.server.setPc mover thread
        (if after.result = some true then .deinitCall else .quitTest)
      checking := Function.update s.checking mover none } d tid ≤
      s.framesLeft d tid := by
  have hmover : (s.server.setPc mover thread
      (if after.result = some true then .deinitCall else .quitTest)).pcOf tid =
        if tid = mover then
          some (if after.result = some true then .deinitCall else .quitTest)
        else s.server.pcOf tid :=
    RpiUdpStream.State.pcOf_setPc hthread tid
  by_cases heq : tid = mover
  · subst heq
    rw [if_pos rfl] at hmover
    have hbefore : s.server.pcOf tid = some .timeoutCheck := by
      simp [RpiUdpStream.State.pcOf, hthread, hpc]
    unfold State.framesLeft
    rw [hmover, hbefore]
    by_cases hlate : s.checksLate d tid = true
    · have hexpired := hinv.expired_of_late hdeadline hlate hchecking hperform
      simp [hexpired, StreamPc.framesAfterDeadline]
    · simp only [hlate, Bool.false_eq_true, if_false]
      by_cases hexpired : after.result = some true
      · simp [hexpired, StreamPc.framesAfterDeadline]
      · simp [hexpired, StreamPc.framesAfterDeadline]
  · rw [if_neg heq] at hmover
    apply le_of_eq
    apply State.framesLeft_congr hmover
    simp [State.checksLate, Function.update_of_ne heq]

theorem Step.framesLeft_le
    {s next : State} {label : Label} {d : Deadline} (hstep : Step s label next)
    (hinv : Invariant s) (hdeadline : s.deadline = some d)
    (hclock : d.written.tvSec + 3 ≤ s.clock.tvSec) (tid : ℕ) :
    next.framesLeft d tid +
        (if label = .server (.stream tid (.sendto true)) then 1 else 0) ≤
      s.framesLeft d tid := by
  cases hstep with
  | moved hapart hstarts hserver =>
      simpa using Step.framesLeft_moved hapart hstarts hserver tid
  | started hserver => simpa using Step.framesLeft_started hclock hserver tid
  | @set server hserver =>
      rw [if_neg (by simp), Nat.add_zero]
      exact le_of_eq (State.framesLeft_congr (pcOf_of_setTimeout hserver tid) rfl)
  | @looked mover action call after timer hchecking hreturns hcall =>
      obtain ⟨hstart, _, _⟩ := endMs_of_callStep hcall
      rw [if_neg (by simp), Nat.add_zero]
      apply le_of_eq
      apply State.framesLeft_congr
      · rfl
      · by_cases heq : tid = mover
        · subst heq
          simp [State.checksLate, hchecking, hstart]
        · simp [State.checksLate, Function.update_of_ne heq]
  | checked hchecking hperform hthread hpc =>
      simpa using Step.framesLeft_checked hinv hdeadline hchecking hperform hthread hpc
        tid
  | _ =>
      rw [if_neg (by simp), Nat.add_zero]
      exact le_of_eq (State.framesLeft_congr rfl rfl)

theorem Step.clock_le
    {s next : State} {label : Label} (hstep : Step s label next) :
    s.clock.ms ≤ next.clock.ms := by
  cases hstep with
  | tick hclock => exact hclock
  | _ => exact le_refl _

theorem Step.deadline
    {s next : State} {label : Label} (hstep : Step s label next)
    (hlabel : label ≠ .setTimeout .accessEnd) : next.deadline = s.deadline := by
  cases hstep with
  | wrote => contradiction
  | _ => rfl

theorem run_frames_le_one
    {s last : State} {d : Deadline} {more : List Label} (hinv : Invariant s)
    (hdeadline : s.deadline = some d) (hclock : d.written.tvSec + 3 ≤ s.clock.tvSec)
    (hmore : .setTimeout .accessEnd ∉ more) (hrun : s.run more = some last) (tid : ℕ) :
    frames tid more ≤ 1 := by
  have hallowed : ∀ label ∈ more, decide (label ≠ .setTimeout .accessEnd) = true := by
    intro label hmem
    simp only [decide_eq_true_eq]
    rintro rfl
    exact hmore hmem
  have hbudget : frames tid more ≤ s.framesLeft d tid := by
    apply countP_le_budget
      (fun state : State => Invariant state ∧ state.deadline = some d ∧
        d.written.tvSec + 3 ≤ state.clock.tvSec)
      (fun state => state.framesLeft d tid) ⟨hinv, hdeadline, hclock⟩ ?_ hallowed hrun
    rintro state label next ⟨hstill, hsame, hlate⟩ hlabel hstep
    have hnext := (Step.of_step hstep).2
    constructor
    · refine ⟨hstill.step hnext, ?_, hlate.trans (tvSec_le_of_ms_le hnext.clock_le)⟩
      exact (hnext.deadline (by simpa using hlabel)).trans hsame
    · simpa using hnext.framesLeft_le hstill hsame hlate tid
  exact hbudget.trans (s.framesLeft_le_one d tid)

/-- Whatever the accesses to `spec` and `end` mix to, the race costs a deadline
at most one second: from the write of `end` on, a check that starts takes a
thread out of its loop only more than 1000 ms after the call of `set_timeout`,
and 3000 ms after the write, with no other one, each thread sends at most one
more frame. -/
theorem race_costs_at_most_one_second
    {nBufferSize : ℕ} {labels more : List Label} {s last : State} {d : Deadline}
    (hrun : (State.initial nBufferSize).run labels = some s)
    (hdeadline : s.deadline = some d) (hmore : s.run more = some last) (tid : ℕ) :
    (∀ label next, last.step label = some next →
      LeavesLoop last.server next.server tid →
        last.server.quitFlag = true ∨
          label = .isTimeout tid .ret ∧
            (s.checking tid = none → 1000 < last.clock.ms - d.called.ms)) ∧
      (3000 ≤ s.clock.ms - d.written.ms → .setTimeout .accessEnd ∉ more →
        frames tid more ≤ 1) := by
  constructor
  · intro label next hstep hleaves
    rcases (Step.of_step hstep).2.leaves_loop hleaves with
      hquit | ⟨hlabel, call, after, timer, hchecking, hperform, hexpired⟩
    · exact Or.inl hquit
    · refine Or.inr ⟨hlabel, ?_⟩
      intro hnone
      obtain ⟨hinv, hleast⟩ := run_atLeast hrun hdeadline hnone hmore
      have hlate : (d.called.tvSec : ℚ) + 2 ≤ last.clock.tvSec := by
        exact_mod_cast hleast.late_of_expired hinv hchecking hperform hexpired
      have hcalled := (ms_in_second d.called).2
      have hclock := (ms_in_second last.clock).1
      linarith
  · intro hlate hnone
    apply run_frames_le_one (run_invariant hrun) hdeadline ?_ hnone hmore
    have hwritten := (ms_in_second d.written).1
    have hclock := (ms_in_second s.clock).2
    have hsec : (d.written.tvSec : ℚ) + 3 < s.clock.tvSec + 1 := by
      linarith
    have hsec' : d.written.tvSec + 3 < s.clock.tvSec + 1 := by
      exact_mod_cast hsec
    omega

def refreshRequested : List RpiUdpStream.Label :=
  [.tick (.second 1), .main (.setup true)] ++ serveVideoRequest ⟨1, 40000⟩ ++
    initSession 0 ++ (streamRound 0 1000).dropLast ++
    receiveAndDispatch ⟨⟨1, 40000⟩, Command.text .setTimeout⟩ ++
    [.tick TimerRace.lateInSecond]

/-- Between the two reads of `main` a check of the stream thread stores a reading
of the next second. -/
def tornRefresh : List Label :=
  refreshRequested.flatMap uninterrupted ++
    [.callSetTimeout, .setTimeout .clockGettime, .setTimeout .readSec,
      .tick (.second 2), .isTimeout 0 .clockGettime, .setTimeout .readNsec,
      .setTimeout .accessEnd, .setTimeout .ret, .isTimeout 0 .readSec,
      .isTimeout 0 .readNsec, .isTimeout 0 .accessEnd, .isTimeout 0 .ret]

def nextFrame : List Label :=
  (streamRound 0 1000).dropLast.flatMap uninterrupted ++
    [.tick (.second 3), .isTimeout 0 .clockGettime, .isTimeout 0 .readSec,
      .isTimeout 0 .readNsec, .isTimeout 0 .accessEnd]

theorem tornRefresh_deadline :
    ((State.initial 65536).run tornRefresh).map
        (fun s => (s.deadline, s.checking 0)) =
      some (some ⟨TimerRace.lateInSecond, .second 2⟩, none) := by
  decide +kernel

theorem nextFrame_checked :
    (((State.initial 65536).run tornRefresh).bind fun s =>
      (s.run nextFrame).bind fun last =>
        (last.step (.isTimeout 0 .ret)).map fun next =>
          (last.server.quitFlag, last.server.pcOf 0, next.server.pcOf 0)) =
      some (false, some .timeoutCheck, some .deinitCall) := by
  decide +kernel

/-- The stream is cut 1001 ms after the refresh. -/
theorem tornRefresh_cut_late :
    ∃ s last next, (State.initial 65536).run tornRefresh = some s ∧
      s.run nextFrame = some last ∧ last.step (.isTimeout 0 .ret) = some next ∧
        next.server.pcOf 0 = some .deinitCall ∧
          1000 < last.clock.ms - TimerRace.lateInSecond.ms := by
  obtain ⟨s, hrun, hstate⟩ := Option.map_eq_some_iff.mp tornRefresh_deadline
  obtain ⟨hdeadline, hnone⟩ := Prod.mk.inj hstate
  have hchecked := nextFrame_checked
  rw [hrun, Option.bind_some] at hchecked
  obtain ⟨last, hmore, hmapped⟩ := Option.bind_eq_some_iff.mp hchecked
  obtain ⟨next, hstep, hstates⟩ := Option.map_eq_some_iff.mp hmapped
  obtain ⟨hquit, hpcs⟩ := Prod.mk.inj hstates
  obtain ⟨hpc, hpc'⟩ := Prod.mk.inj hpcs
  refine ⟨s, last, next, hrun, hmore, hstep, hpc', ?_⟩
  have hleaves : LeavesLoop last.server next.server 0 :=
    ⟨.timeoutCheck, .deinitCall, hpc, hpc', rfl, rfl⟩
  rcases (race_costs_at_most_one_second hrun hdeadline hmore 0).1 _ next hstep hleaves
    with hset | ⟨_, hlate⟩
  · rw [hquit] at hset
    contradiction
  · exact hlate hnone

end Racy

end RpiUdpStream
