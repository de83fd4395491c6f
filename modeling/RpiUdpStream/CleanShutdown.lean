import RpiUdpStream.StreamingDevice

/-!
# What a server that quits leaves behind

A server that quits with the one thread that `stream_tid` names has created no
other thread, so that the session of that thread was alone.  `main` joins it
after `omx_h264_deinit`, and finds the components as they were before the
session.
-/

namespace RpiUdpStream

open LabelledRun

def StreamThread.started (thread : StreamThread) : Bool :=
  decide (thread.pc ≠ .created)

def Label.startsSession : Label → Bool
  | .stream _ .initStart => true
  | _ => false

theorem countP_started_set
    {threads : List StreamThread} {tid : ℕ} {before : StreamThread}
    (hthread : threads[tid]? = some before) (after : StreamThread) :
    (threads.set tid after).countP StreamThread.started +
        (if before.started then 1 else 0) =
      threads.countP StreamThread.started + if after.started then 1 else 0 := by
  rcases List.getElem?_eq_some_iff.mp hthread with ⟨hbound, hget⟩
  have hle := List.boole_getElem_le_countP (p := StreamThread.started) hbound
  rw [List.countP_set hbound]
  rw [hget] at hle ⊢
  omega

theorem PcMove.started
    {s : State} {pc pc' : StreamPc} {action : StreamAction}
    (hmove : PcMove s pc action pc') :
    pc' ≠ .created ∧ (pc = .created ↔ action = .initStart) := by
  cases hmove with
  | isQuit => split <;> simp
  | checked => split <;> simp
  | _ => simp

theorem Step.countP_started
    {s next : State} {label : Label} (hstep : Step s label next) :
    next.threads.countP StreamThread.started =
      s.threads.countP StreamThread.started +
        if label.startsSession then 1 else 0 := by
  have hmoved : ∀ {tid : ℕ} {thread : StreamThread} {action : StreamAction}
      {pc : StreamPc}, s.threads[tid]? = some thread →
      PcMove s thread.pc action pc →
      (s.setPc tid thread pc).threads.countP StreamThread.started =
        s.threads.countP StreamThread.started +
          if (Label.stream tid action).startsSession then 1 else 0 := by
    intro tid thread action pc hthread hmove
    have hset := countP_started_set hthread { thread with pc := pc }
    obtain ⟨hlast, hfirst⟩ := hmove.started
    by_cases hinit : action = .initStart
    · subst hinit
      simpa [StreamThread.started, hfirst.mpr rfl, hlast, State.setPc,
        Label.startsSession] using hset
    · have hnot : thread.pc ≠ .created := fun heq => hinit (hfirst.mp heq)
      have hother : (Label.stream tid action).startsSession = false := by
        cases action <;> first | rfl | contradiction
      simpa [StreamThread.started, hnot, hlast, State.setPc, hother] using hset
  cases hstep with
  | created hmain => simp [StreamThread.started, Label.startsSession]
  | @joined tid thread hmain htid hthread hwaited =>
      have hset := countP_started_set hthread
        { thread with joins := thread.joins + 1 }
      simpa [StreamThread.started, Label.startsSession] using hset
  | move hthread hadvance => exact hmoved hthread (.of_advance hadvance)
  | writePort hthread hpc => exact hmoved hthread (hpc ▸ .writePort _)
  | sent hthread hpc hopen hlen => exact hmoved hthread (hpc ▸ .sent _)
  | checked hthread hpc => exact hmoved hthread (hpc ▸ .checked)
  | _ => simp [Label.startsSession]

/-! ## The server that quits with one thread -/

theorem run_oneThread
    {nBufferSize : ℕ} {labels : List Label} {s : State}
    (hguard : EveryStep State.step QuitsWithOneThread
      (State.initial nBufferSize) labels)
    (hrun : (State.initial nBufferSize).run labels = some s) :
    s.main.beforeJoin = false → s.threads.length = 1 := by
  apply runFrom_guardedInvariant
    (fun state => state.main.beforeJoin = false → state.threads.length = 1)
    ?_ ?_ hguard hrun
  · intro hquit
    contradiction
  · intro state label next hinv hlabel hstep hquit
    have hnext := (Step.of_step hstep).2
    cases hnext with
    | setQuit hmain => exact (hlabel rfl).1
    | joined hmain => simpa using hinv (by rw [hmain]; rfl)
    | joinedNothing hmain => exact hinv (by rw [hmain]; rfl)
    | close hmain => exact hinv (by rw [hmain]; rfl)
    | move => simpa [State.setPc] using hinv hquit
    | writePort => simpa [State.setPc] using hinv hquit
    | sent => simpa [State.setPc] using hinv hquit
    | checked => simpa [State.setPc] using hinv hquit
    | tick => exact hinv hquit
    | setupFailed => exact hinv hquit
    | receiveFailed => exact hinv hquit
    | ret => exact hinv hquit
    | sendFailed => exact hinv hquit
    | omxError => exact hinv hquit
    | _ => contradiction

/-- The process has ended with code 1 only where a thread is in one of the
functions of `h264.cpp`. -/
theorem run_exits_in_omxCall
    {nBufferSize : ℕ} {labels : List Label} {s : State}
    (hrun : (State.initial nBufferSize).run labels = some s)
    (hexit : s.exitCode = some 1) :
    ∃ thread ∈ s.threads, thread.pc.inOmxCall = true := by
  have hinv : s.exitCode = some 1 →
      ∃ thread ∈ s.threads, thread.pc.inOmxCall = true := by
    apply runFrom_invariant
      (fun state => state.exitCode = some 1 →
        ∃ thread ∈ state.threads, thread.pc.inOmxCall = true) ?_ ?_ hrun
    · intro hone
      contradiction
    · intro state label next _ hstep hone
      obtain ⟨hrunning, hnext⟩ := Step.of_step hstep
      cases hnext with
      | omxError hthread hpc => exact ⟨_, List.mem_of_getElem? hthread, hpc⟩
      | setupFailed => simp at hone
      | ret => simp at hone
      | sendFailed => simp at hone
      | _ => simp [State.setPc, hrunning] at hone
  exact hinv hexit

namespace Whole

open Omx (DeviceReport)

/-- A step of the whole program is one of the server, or leaves the threads as
they are. -/
theorem Step.server_cases
    {reports : ℕ → DeviceReport} {s next : State} {label : Label}
    (hstep : Step reports s label next) :
    (∃ move, label = .server move ∧
      RpiUdpStream.Step s.server move next.server) ∨
      (next.server.threads = s.server.threads ∧ StartsSession label = false) := by
  cases hstep with
  | entered hcalls hserver =>
      exact Or.inl ⟨_, rfl, (RpiUdpStream.Step.of_step hserver).2⟩
  | moved hmoved hserver =>
      exact Or.inl ⟨_, rfl, (RpiUdpStream.Step.of_step hserver).2⟩
  | called hsession => exact Or.inr ⟨rfl, rfl⟩
  | answered hsession => exact Or.inr ⟨rfl, rfl⟩
  | calledBack hsession => exact Or.inr ⟨rfl, rfl⟩

theorem startsSession_server (label : RpiUdpStream.Label) :
    StartsSession (.server label) = label.startsSession := by
  cases label with
  | stream tid action => cases action <;> rfl
  | tick => rfl
  | main => rfl

theorem run_countP_started
    {reports : ℕ → DeviceReport} {nBufferSize : ℕ} {labels : List Label} {s : State}
    (hrun : (State.initial nBufferSize).run reports labels = some s) :
    s.server.threads.countP StreamThread.started = labels.countP StartsSession := by
  apply runFrom_traceInvariant
    (fun trace state => state.server.threads.countP StreamThread.started =
      trace.countP StartsSession) ?_ ?_ hrun
  · simp [State.initial, RpiUdpStream.State.initial]
  · intro trace state label next _ hinv hstep
    rw [List.countP_append, List.countP_singleton, ← hinv]
    rcases (Step.of_step hstep).server_cases with
      ⟨move, hlabel, hserver⟩ | ⟨hthreads, hlabel⟩
    · subst hlabel
      rw [startsSession_server]
      exact hserver.countP_started
    · rw [hthreads, hlabel]
      rfl

theorem run_threads_mono
    {reports : ℕ → DeviceReport} {s last : State} {labels : List Label}
    (hrun : s.run reports labels = some last) :
    s.server.threads.length ≤ last.server.threads.length := by
  apply runFrom_invariant
    (fun state => s.server.threads.length ≤ state.server.threads.length)
    (le_refl _) ?_ hrun
  intro state label next hinv hstep
  rcases (Step.of_step hstep).server_cases with ⟨move, _, hserver⟩ | ⟨hthreads, _⟩
  · have hlength := hserver.length_threads
    omega
  · rw [hthreads]
    exact hinv

/-- Where one thread is all that a run ever creates, it starts its session
alone. -/
theorem startsAlone_of_oneThread
    {reports : ℕ → DeviceReport} {nBufferSize : ℕ} {labels : List Label} {s : State}
    (hrun : (State.initial nBufferSize).run reports labels = some s)
    (hone : s.server.threads.length = 1) :
    EveryStep (State.step reports) StartsAlone (State.initial nBufferSize)
      labels := by
  rw [everyStep_iff_split]
  intro before label after middle hsplit hmiddle hstarts thread hthread
  obtain ⟨next, hnext⟩ := step_of_split hrun hsplit hmiddle
  have hlength : middle.server.threads.length ≤ 1 := by
    rw [hsplit] at hrun
    obtain ⟨found, hfound, hrest⟩ := runFrom_append_eq_some.mp hrun
    rw [hmiddle] at hfound
    cases hfound
    exact hone ▸ run_threads_mono hrest
  rcases (Step.of_step hnext).server_cases with ⟨move, hlabel, hserver⟩ | ⟨_, hnot⟩
  · subst hlabel
    rw [startsSession_server] at hstarts
    cases move with
    | tick => contradiction
    | main => contradiction
    | stream tid action =>
        cases action with
        | initStart =>
            have hentered : enteredCalls (reports tid) .initStart =
                some (Omx.omxH264Init (reports tid)) := rfl
            obtain ⟨pc, pc', hpc, _, hmove⟩ := pcOf_after hserver hentered
            rcases Option.map_eq_some_iff.mp hpc with ⟨mover, hmover, hpcMover⟩
            have hsame : thread = mover := by
              rcases List.mem_iff_getElem?.mp hthread with ⟨other, hother⟩
              have hbound := (List.getElem?_eq_some_iff.mp hother).1
              have hmoverBound := (List.getElem?_eq_some_iff.mp hmover).1
              have heq : other = tid := by omega
              rw [heq, hmover] at hother
              exact (Option.some.inj hother).symm
            rw [hsame, hpcMover]
            cases hmove
            rfl
        | _ => contradiction
  · rw [hnot] at hstarts
    contradiction

/-- Where the one thread of a run has ended, its session has left nothing. -/
theorem left_clean_of_exited
    {reports : ℕ → DeviceReport} {nBufferSize : ℕ} {labels : List Label} {s : State}
    (hcovers : ∀ tid, (reports tid).Covers)
    (hhonest : ∀ label ∈ omxLabels labels, label.honest = true)
    (hrun : (State.initial nBufferSize).run reports labels = some s)
    (hone : s.server.threads.length = 1)
    (hexited : ∀ thread ∈ s.server.threads, thread.pc = .exited) :
    s.setup = .cleanedUp 1 ∧ s.outstanding = [] ∧
      (∀ component, s.flags.get component = none) ∧ ∀ tid, s.calls tid = [] := by
  have hexit : s.server.exitCode ≠ some 1 := by
    intro hcode
    obtain ⟨thread, hthread, hcall⟩ := run_exits_in_omxCall (run_server hrun) hcode
    rw [hexited thread hthread] at hcall
    contradiction
  have hnone : NoneInSession s.server := by
    intro tid pc hpc
    rcases Option.map_eq_some_iff.mp hpc with ⟨thread, hthread, hpcThread⟩
    rw [← hpcThread, hexited thread (List.mem_of_getElem? hthread)]
    rfl
  obtain ⟨hsetup, houtstanding, hflags⟩ := noneInSession_clean hcovers
    (startsAlone_of_oneThread hrun hone) hhonest hrun hexit hnone
  have hcount : labels.countP StartsSession = 1 := by
    rw [← run_countP_started hrun, ← hone, List.countP_eq_length]
    intro thread hthread
    simp [StreamThread.started, hexited thread hthread]
  rw [hcount] at hsetup
  refine ⟨hsetup, houtstanding, hflags, ?_⟩
  intro tid
  by_contra hcalls
  obtain ⟨pc, hpc, hcall⟩ := run_callsInOmx hrun tid hcalls
  have hout := hnone tid pc hpc
  rw [StreamPc.inSession_of_inOmxCall hcall] at hout
  contradiction

/-- A server that quits with the one thread that its variable names closes its
sockets only after the session of that thread is over, with every handle freed,
every port disabled, the buffer freed, no flag group left and no request
outstanding, where the reports cover the enabled ports, and the components answer
each request once and report neither errors nor completions besides. -/
theorem clean_shutdown
    {reports : ℕ → DeviceReport} {nBufferSize : ℕ} {labels : List Label} {s : State}
    (hcovers : ∀ tid, (reports tid).Covers)
    (hquit : EveryStep RpiUdpStream.State.step QuitsWithOneThread
      (RpiUdpStream.State.initial nBufferSize)
      (serverLabels reports nBufferSize labels))
    (hhonest : ∀ label ∈ omxLabels labels, label.honest = true)
    (hrun : (State.initial nBufferSize).run reports labels = some s)
    (hmain : s.server.main = .closing ∨ s.server.main = .returning) :
    s.setup = .cleanedUp 1 ∧ s.outstanding = [] ∧
      (∀ component, s.flags.get component = none) ∧ ∀ tid, s.calls tid = [] := by
  have hserver := run_server hrun
  apply left_clean_of_exited hcovers hhonest hrun
  · apply run_oneThread hquit hserver
    rcases hmain with hclosing | hreturning
    · rw [hclosing]
      rfl
    · rw [hreturning]
      rfl
  · intro thread hthread
    exact ((run_joinsTheOneThread hquit hserver).2 hmain thread hthread).1

def quitOnBoard : List Label := promptRun reapedRun

theorem quitOnBoard_main :
    ((State.initial 65536).run onBoard quitOnBoard).map (·.server.main) =
      some .closing := by
  decide +kernel

theorem quitOnBoard_leaves_nothing :
    ∃ s, (State.initial 65536).run onBoard quitOnBoard = some s ∧
      s.setup = .cleanedUp 1 ∧ s.outstanding = [] := by
  rcases Option.map_eq_some_iff.mp quitOnBoard_main with ⟨s, hrun, hmain⟩
  obtain ⟨hsetup, houtstanding, _⟩ := clean_shutdown
    (fun _ => Omx.boardReport_covers) (by decide +kernel) (by decide +kernel)
    hrun (Or.inl hmain)
  exact ⟨s, hrun, hsetup, houtstanding⟩

end Whole

end RpiUdpStream
