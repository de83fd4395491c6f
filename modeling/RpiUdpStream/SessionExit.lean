import RpiUdpStream.ThreadReaping

/-!
# When the process ends with the camera session open

With one stream thread and no failing OpenMAX or pthread call, `main` returns
only after it has joined the thread.  The one exit inside a session is that of
`udp_send_stream`, whenever `sendto` fails.
-/

namespace RpiUdpStream

open LabelledRun

def Label.succeeds : Label → Bool
  | .main (.create (.failed _)) | .stream _ .omxError => false
  | _ => true

def creates (labels : List Label) : ℕ :=
  labels.countP fun label => decide (label = .main (.create .created))

def Label.sendFails : Label → Bool
  | .stream _ (.sendto false) => true
  | _ => false

def OneSession (labels : List Label) : Prop :=
  creates labels ≤ 1 ∧ ∀ label ∈ labels, label.succeeds = true

instance (labels : List Label) : Decidable (OneSession labels) :=
  inferInstanceAs (Decidable (_ ∧ _))

def ExitsInSession (s : State) : Prop :=
  s.exitCode ≠ none ∧ ∃ thread ∈ s.threads, thread.pc.inSession = true

theorem creates_concat (labels : List Label) (label : Label) :
    creates (labels ++ [label]) =
      creates labels + if label = .main (.create .created) then 1 else 0 := by
  simp [creates, List.countP_singleton]

theorem OneSession.of_concat
    {labels : List Label} {label : Label}
    (hone : OneSession (labels ++ [label])) :
    OneSession labels ∧ label.succeeds = true := by
  rcases hone with ⟨hcreates, hsucceeds⟩
  rw [creates_concat] at hcreates
  refine ⟨⟨by omega, ?_⟩, hsucceeds label (by simp)⟩
  intro other hother
  exact hsucceeds other (by simp [hother])

/-- What holds while no more than one thread is created: `stream_tid` names
it, and `main` is past its join only when it has ended. -/
structure WaitsForThread (s : State) : Prop where
  named : s.threads ≠ [] → s.threads.length = 1 ∧ s.streamTid = some 0
  setup : s.main = .setup → s.threads = []
  waited : s.main = .closing ∨ s.main = .returning →
    ∀ thread ∈ s.threads, thread.pc = .exited

theorem run_length_threads
    {nBufferSize : ℕ} {labels : List Label} {s : State}
    (hrun : (State.initial nBufferSize).run labels = some s) :
    s.threads.length = creates labels := by
  apply runFrom_traceInvariant
    (fun trace state => state.threads.length = creates trace) rfl ?_ hrun
  intro trace state label next _ hlength hstep
  rw [(Step.of_step hstep).2.length_threads, creates_concat, hlength]

theorem WaitsForThread.stream
    {s next : State} {tid : ℕ} {action : StreamAction}
    (hinv : WaitsForThread s) (hstep : Step s (.stream tid action) next) :
    WaitsForThread next := by
  have hmain := hstep.main_of_stream
  have hlength : next.threads.length = s.threads.length := by
    simpa using hstep.length_threads
  have hempty : next.threads = [] ↔ s.threads = [] := by
    rw [← List.length_eq_zero_iff, hlength, List.length_eq_zero_iff]
  constructor
  · intro hsome
    rw [hlength, hmain.2]
    apply hinv.named
    intro hnone
    exact hsome (hempty.mpr hnone)
  · intro hsetup
    rw [hmain.1] at hsetup
    exact hempty.mpr (hinv.setup hsetup)
  · intro hdone thread hmem
    rw [hmain.1] at hdone
    obtain ⟨before, hbefore, _, hexited⟩ :=
      hstep.mem_origin (by simp) (by simp) hmem
    exact hexited (hinv.waited hdone before hbefore)

theorem WaitsForThread.main
    {s next : State} {action : MainAction}
    (hinv : WaitsForThread s) (hunjoined : Unjoined s)
    (hfirst : action = .create .created → s.threads = [])
    (hsucceeds : (Label.main action).succeeds = true)
    (hstep : Step s (.main action) next) :
    WaitsForThread next := by
  cases hstep with
  | created hmain =>
      have hempty := hfirst rfl
      constructor <;> simp [hempty]
  | createFailed hmain => contradiction
  | @joined tid thread hmain htid hthread hwaited =>
      have hsome : s.threads ≠ [] := by
        intro hnone
        simp [hnone] at hthread
      rcases hinv.named hsome with ⟨hlength, hzero⟩
      rw [hzero] at htid
      cases htid
      have hjoins := hunjoined (Or.inr hmain) thread (List.mem_of_getElem? hthread)
      have hexited : thread.pc = .exited := by
        rcases hwaited with hnonzero | hexited
        · exact absurd hjoins hnonzero
        · exact hexited
      rcases List.length_eq_one_iff.mp hlength with ⟨only, honly⟩
      have honlyThread : only = thread := by
        simpa [honly] using hthread
      constructor <;> simp [honly, hzero, honlyThread, hexited]
  | joinedNothing hmain htid =>
      have hempty : s.threads = [] := by
        by_contra hsome
        rcases hinv.named hsome with ⟨hlength, hzero⟩
        have hnone := htid 0 hzero
        rw [List.getElem?_eq_none_iff] at hnone
        omega
      constructor <;> simp [hempty]
  | close hmain =>
      exact ⟨hinv.named, by simp, fun _ => hinv.waited (Or.inl hmain)⟩
  | ret hmain => exact ⟨hinv.named, hinv.setup, hinv.waited⟩
  | setupFailed hmain => exact ⟨hinv.named, hinv.setup, hinv.waited⟩
  | receiveFailed hmain => exact ⟨hinv.named, hinv.setup, hinv.waited⟩
  | _ => exact ⟨hinv.named, by simp, by simp⟩

theorem run_waitsForThread
    {nBufferSize : ℕ} {labels : List Label} {s : State}
    (hone : OneSession labels)
    (hrun : (State.initial nBufferSize).run labels = some s) :
    WaitsForThread s := by
  apply runFrom_traceInvariant
    (fun trace state => OneSession trace → WaitsForThread state) ?_ ?_ hrun hone
  · intro _
    constructor <;> simp [State.initial]
  · intro trace state label next htrace hinv hstep honeNext
    rcases honeNext.of_concat with ⟨honeTrace, hsucceeds⟩
    have hnext := (Step.of_step hstep).2
    have hwaits := hinv honeTrace
    cases label with
    | tick now =>
        cases hnext
        exact ⟨hwaits.named, hwaits.setup, hwaits.waited⟩
    | stream tid action => exact hwaits.stream hnext
    | main action =>
        apply hwaits.main (run_unjoined htrace) ?_ hsucceeds hnext
        intro hcreate
        have hlength := run_length_threads htrace
        have hcreates := honeNext.1
        rw [creates_concat, if_pos (by rw [hcreate])] at hcreates
        rw [← List.length_eq_zero_iff]
        omega

theorem WaitsForThread.exitsInSession_iff
    {s next : State} {label : Label} (hinv : WaitsForThread s)
    (hrunning : s.exitCode = none) (hsucceeds : label.succeeds = true)
    (hstep : Step s label next) :
    ExitsInSession next ↔ label.sendFails = true := by
  unfold ExitsInSession
  cases hstep with
  | setupFailed hmain => simp [hinv.setup hmain, Label.sendFails]
  | ret hmain =>
      have hover : ∀ thread ∈ s.threads, thread.pc.inSession = false := by
        intro thread hmem
        rw [hinv.waited (Or.inr hmain) thread hmem]
        rfl
      simpa [Label.sendFails] using hover
  | omxError => contradiction
  | @sendFailed tid thread len hthread hpc =>
      have hopen : thread.pc.inSession = true := by
        rw [hpc]
        rfl
      simpa [Label.sendFails] using
        ⟨thread, List.mem_of_getElem? hthread, hopen⟩
  | @move tid thread action pc hthread hadvance =>
      have hmove := PcMove.of_advance hadvance
      generalize thread.pc = before at hmove
      cases hmove <;> simp [State.setPc, hrunning, Label.sendFails]
  | _ => simp [State.setPc, hrunning, Label.sendFails]

/-- With one stream thread and no failing OpenMAX or pthread call, the process
never ends inside the session exactly in the runs where no `sendto` fails. -/
theorem exits_outside_session_iff_sends_succeed
    {nBufferSize : ℕ} {labels : List Label} {s : State}
    (hone : OneSession labels)
    (hrun : (State.initial nBufferSize).run labels = some s) :
    ¬ ExitsInSession s ↔ ∀ label ∈ labels, label.sendFails = false := by
  apply runFrom_traceInvariant
    (fun trace state => OneSession trace →
      (¬ ExitsInSession state ↔ ∀ label ∈ trace, label.sendFails = false))
    ?_ ?_ hrun hone
  · simp [ExitsInSession, State.initial]
  · intro trace state label next htrace hinv hstep honeNext
    rcases honeNext.of_concat with ⟨honeTrace, hsucceeds⟩
    rcases Step.of_step hstep with ⟨hrunning, hnext⟩
    have hbefore : ∀ earlier ∈ trace, earlier.sendFails = false := by
      apply (hinv honeTrace).mp
      intro hexit
      exact hexit.1 hrunning
    have hlast := (run_waitsForThread honeTrace htrace).exitsInSession_iff
      hrunning hsucceeds hnext
    simp only [List.mem_append, List.mem_singleton, or_imp, forall_and,
      forall_eq, hlast, Bool.not_eq_true]
    exact ⟨fun hok => ⟨hbefore, hok⟩, fun hall => hall.2⟩

/-- A session whose second frame is a picture of 65536 bytes, which IPv4 UDP
does not carry. -/
def oversizedFrameRun : List Label :=
  [.main (.setup true)] ++ serveVideoRequest ⟨1, 40000⟩ ++ initSession 0 ++
    streamRound 0 1200 ++
    [.stream 0 .isQuit, .stream 0 .fillStart, .stream 0 (.fillEnd 65536),
      .stream 0 .sendStart, .stream 0 .writePort, .stream 0 (.sendto false)]

theorem oversized_frame_exits_in_session :
    OneSession oversizedFrameRun ∧
      ∃ s, (State.initial 65536).run oversizedFrameRun = some s ∧
        ExitsInSession s := by
  have hstate : ((State.initial 65536).run oversizedFrameRun).map
      (fun s => (s.exitCode, s.threads.map (·.pc))) =
        some (some 0, [.sendto 65536]) := by
    decide +kernel
  rcases Option.map_eq_some_iff.mp hstate with ⟨s, hrun, hlast⟩
  rcases Prod.mk.inj hlast with ⟨hexit, hthreads⟩
  refine ⟨by decide, s, hrun, by rw [hexit]; simp, ?_⟩
  have hmem : StreamPc.sendto 65536 ∈ s.threads.map (·.pc) := by
    rw [hthreads]
    simp
  rcases List.mem_map.mp hmem with ⟨thread, hthread, hpc⟩
  exact ⟨thread, hthread, by rw [hpc]; rfl⟩

def quitAfterSessionRun : List Label :=
  [.main (.setup true)] ++ serveVideoRequest ⟨1, 40000⟩ ++
    wholeSession 0 1200 3 ++ serveQuitServer ⟨1, 40000⟩ ++
    [.main .join, .main .close, .main .ret]

theorem quitAfterSessionRun_exits_outside :
    ¬ ExitsInSession
      (((State.initial 65536).run quitAfterSessionRun).get (by decide +kernel)) :=
  (exits_outside_session_iff_sends_succeed (by decide)
    (Option.some_get _).symm).mpr (by decide)

end RpiUdpStream
