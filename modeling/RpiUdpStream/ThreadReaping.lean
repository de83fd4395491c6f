import RpiUdpStream.ServerSteps

/-!
# When shutdown has joined every stream thread

`main` keeps one variable `stream_tid` for all the threads that it creates and
joins once, after `QUIT_SERVER`.  The join is sound and complete exactly when
one thread was created before the quit and the variable still names it.
-/

namespace RpiUdpStream

open LabelledRun

/-- Where `main` calls `pthread_join`, the variable names a thread that was
created and not joined yet. -/
def JoinsOwnThread (s : State) : Prop :=
  s.main = .joining →
    ∃ tid thread, s.streamTid = some tid ∧ s.threads[tid]? = some thread ∧
      thread.joins = 0

/-- From the call of `udp_server_close` on, every thread has returned from
`omx_h264_deinit` and was joined once. -/
def AllReaped (s : State) : Prop :=
  s.main = .closing ∨ s.main = .returning →
    ∀ thread ∈ s.threads, thread.pc.sessionOver = true ∧ thread.joins = 1

def OneThreadToJoin (s : State) : Prop :=
  s.threads.length = 1 ∧ s.streamTid = some 0

def QuitsWithOneThread (s : State) (label : Label) : Prop :=
  label = .main .setQuit → OneThreadToJoin s

instance (s : State) (label : Label) : Decidable (QuitsWithOneThread s label) :=
  inferInstanceAs (Decidable (_ → _ ∧ _))

def MainPc.beforeJoin : MainPc → Bool
  | .joining | .closing | .returning => false
  | _ => true

def Unjoined (s : State) : Prop :=
  s.main.beforeJoin = true ∨ s.main = .joining →
    ∀ thread ∈ s.threads, thread.joins = 0

theorem Step.mem_origin
    {s next : State} {label : Label} (hstep : Step s label next)
    (hjoin : label ≠ .main .join) (hcreate : label ≠ .main (.create .created))
    {thread : StreamThread} (hmem : thread ∈ next.threads) :
    ∃ before ∈ s.threads, before.joins = thread.joins ∧
      (before.pc = .exited → thread.pc = .exited) := by
  rcases List.getElem?_of_mem hmem with ⟨tid, hthread⟩
  rcases hstep.thread_origin hthread with
    ⟨before, hbefore, _, hjoins, hpc⟩ | ⟨hcreated, _⟩
  · refine ⟨before, List.mem_of_getElem? hbefore, hjoins hjoin, ?_⟩
    intro hexited
    rcases hpc with hsame | ⟨action, _, hmove⟩
    · rw [hsame, hexited]
    · exact absurd hexited hmove.ne_exited
  · exact absurd hcreated hcreate

theorem Unjoined.step
    {s next : State} {label : Label} (hinv : Unjoined s)
    (hstep : Step s label next) : Unjoined next := by
  intro hmain thread hmem
  by_cases hcreate : label = .main (.create .created)
  · subst hcreate
    cases hstep with
    | created hcreating =>
        rcases List.mem_append.mp hmem with hold | hnew
        · exact hinv (Or.inl (by rw [hcreating]; rfl)) thread hold
        · rw [List.mem_singleton.mp hnew]
  · by_cases hjoin : label = .main .join
    · subst hjoin
      cases hstep <;> simp [MainPc.beforeJoin] at hmain
    · rcases hstep.mem_origin hjoin hcreate hmem with ⟨before, hbefore, hjoins, _⟩
      have hearlier : s.main.beforeJoin = true ∨ s.main = .joining := by
        cases hstep <;> simp_all [MainPc.beforeJoin, State.setPc]
      rw [← hjoins]
      exact hinv hearlier before hbefore

theorem run_unjoined
    {nBufferSize : ℕ} {labels : List Label} {s : State}
    (hrun : (State.initial nBufferSize).run labels = some s) :
    Unjoined s := by
  apply runFrom_invariant Unjoined ?_ ?_ hrun
  · intro _ thread hmem
    simp [State.initial] at hmem
  · intro state label next hinv hstep
    exact hinv.step (Step.of_step hstep).2

/-! ## Quitting with one thread -/

def JoinsTheOneThread (s : State) : Prop :=
  (s.main = .joining → OneThreadToJoin s) ∧
    (s.main = .closing ∨ s.main = .returning →
      ∀ thread ∈ s.threads, thread.pc = .exited ∧ thread.joins = 1)

theorem JoinsTheOneThread.step
    {s next : State} {label : Label}
    (hinv : JoinsTheOneThread s) (hunjoined : Unjoined s)
    (hguard : QuitsWithOneThread s label) (hstep : Step s label next) :
    JoinsTheOneThread next := by
  cases label with
  | tick now =>
      cases hstep
      exact hinv
  | stream tid action =>
      rcases hstep.main_of_stream with ⟨hmain, htid⟩
      have hlength := hstep.length_threads
      unfold JoinsTheOneThread OneThreadToJoin
      rw [hmain, htid, hlength, if_neg (by simp), Nat.add_zero]
      constructor
      · exact hinv.1
      · intro hdone thread hmem
        obtain ⟨before, hbefore, hjoins, hexited⟩ :=
          hstep.mem_origin (by simp) (by simp) hmem
        rcases hinv.2 hdone before hbefore with ⟨hpc, hone⟩
        exact ⟨hexited hpc, hjoins ▸ hone⟩
  | main action =>
      cases hstep with
      | setQuit hmain => exact ⟨fun _ => hguard rfl, by simp⟩
      | @joined tid thread hmain htid hthread hwaited =>
          constructor
          · simp
          · intro _ found hmem
            rcases hinv.1 hmain with ⟨hlength, hzero⟩
            rw [hzero] at htid
            cases htid
            have hunique : s.threads = [thread] := by
              rcases List.length_eq_one_iff.mp hlength with ⟨only, honly⟩
              rw [honly] at hthread ⊢
              simpa using hthread
            have hjoins : thread.joins = 0 :=
              hunjoined (Or.inr hmain) thread (by simp [hunique])
            have hfound : found = { thread with joins := thread.joins + 1 } := by
              simpa [hunique] using hmem
            have hpc : thread.pc = .exited := by
              rcases hwaited with hnonzero | hexited
              · exact absurd hjoins hnonzero
              · exact hexited
            simp [hfound, hpc, hjoins]
      | joinedNothing hmain htid =>
          rcases hinv.1 hmain with ⟨hlength, hzero⟩
          have hnone := htid 0 hzero
          rw [List.getElem?_eq_none_iff] at hnone
          omega
      | close hmain =>
          exact ⟨by simp, fun _ => hinv.2 (Or.inl hmain)⟩
      | ret hmain =>
          exact ⟨by simp [hmain], fun _ => hinv.2 (Or.inr hmain)⟩
      | _ => simp_all [JoinsTheOneThread]

theorem run_joinsTheOneThread
    {nBufferSize : ℕ} {labels : List Label} {s : State}
    (hguard : EveryStep State.step QuitsWithOneThread
      (State.initial nBufferSize) labels)
    (hrun : (State.initial nBufferSize).run labels = some s) :
    JoinsTheOneThread s := by
  have hboth : JoinsTheOneThread s ∧ Unjoined s := by
    apply runFrom_guardedInvariant
      (fun state => JoinsTheOneThread state ∧ Unjoined state) ?_ ?_ hguard hrun
    · simp [JoinsTheOneThread, Unjoined, State.initial]
    · intro state label next hinv hlabel hstep
      have hnext := (Step.of_step hstep).2
      exact ⟨hinv.1.step hinv.2 hlabel hnext, hinv.2.step hnext⟩
  exact hboth.1

/-! ## Quitting with several threads -/

/-- The join of `main` is past or names another thread, and this one is not
joined. -/
def LeavesThreadUnjoined (s : State) : Prop :=
  s.main.beforeJoin = false ∧
    ∃ tid thread, s.threads[tid]? = some thread ∧ thread.joins = 0 ∧
      (s.main = .joining → s.streamTid ≠ some tid)

theorem LeavesThreadUnjoined.step
    {s next : State} {label : Label} (hinv : LeavesThreadUnjoined s)
    (hstep : Step s label next) : LeavesThreadUnjoined next := by
  rcases hinv with ⟨hmain, tid, thread, hthread, hjoins, hother⟩
  cases label with
  | tick now =>
      cases hstep
      exact ⟨hmain, tid, thread, hthread, hjoins, hother⟩
  | stream moved action =>
      rcases hstep.main_of_stream with ⟨hsame, hsameTid⟩
      rcases hstep.thread_kept (by simp) hthread with ⟨kept, hkept, hkeptJoins⟩
      refine ⟨by rw [hsame, hmain], tid, kept, hkept, by rw [hkeptJoins, hjoins], ?_⟩
      rw [hsame, hsameTid]
      exact hother
  | main action =>
      cases hstep with
      | @joined named joinedThread hjoining htid _ _ =>
          have hne : named ≠ tid := by
            intro heq
            exact hother hjoining (heq ▸ htid)
          refine ⟨rfl, tid, thread, ?_, hjoins, by simp⟩
          rw [List.getElem?_set_ne hne]
          exact hthread
      | joinedNothing _ _ => exact ⟨rfl, tid, thread, hthread, hjoins, by simp⟩
      | close _ => exact ⟨rfl, tid, thread, hthread, hjoins, by simp⟩
      | ret hreturning => exact ⟨hmain, tid, thread, hthread, hjoins, hother⟩
      | _ => simp_all [MainPc.beforeJoin]

theorem leavesThreadUnjoined_of_quit
    {s : State} (hunjoined : Unjoined s) (hmain : s.main = .joining)
    (hown : JoinsOwnThread s) (hnot : ¬ OneThreadToJoin s) :
    LeavesThreadUnjoined s := by
  rcases hown hmain with ⟨named, thread, htid, hthread, _⟩
  have hbound := (List.getElem?_eq_some_iff.mp hthread).1
  have hspare : ∃ tid, tid < s.threads.length ∧ named ≠ tid := by
    by_cases hzero : named = 0
    · subst hzero
      refine ⟨1, ?_, by simp⟩
      by_contra hone
      exact hnot ⟨by omega, htid⟩
    · exact ⟨0, by omega, hzero⟩
  rcases hspare with ⟨tid, hlt, hne⟩
  refine ⟨by rw [hmain]; rfl, tid, s.threads[tid], List.getElem?_eq_getElem hlt, ?_, ?_⟩
  · exact hunjoined (Or.inr hmain) _ (List.getElem_mem hlt)
  · rw [htid]
    intro _ heq
    exact hne (Option.some.inj heq)

theorem LeavesThreadUnjoined.not_allReaped
    {s : State} (hinv : LeavesThreadUnjoined s) (hmain : s.main = .closing) :
    ¬ AllReaped s := by
  intro hreaped
  rcases hinv with ⟨_, tid, thread, hthread, hjoins, _⟩
  have hone := (hreaped (Or.inl hmain) thread (List.mem_of_getElem? hthread)).2
  omega

/-- Shutdown reaps every thread in the runs that quit with one thread whose id
the variable holds.  After any other quit the join names no thread of the
program, or every way to `udp_server_close` leaves a thread unjoined. -/
theorem reaped_of_quits_with_one_thread
    {nBufferSize : ℕ} {labels : List Label} {s : State}
    (hrun : (State.initial nBufferSize).run labels = some s) :
    (EveryStep State.step QuitsWithOneThread
        (State.initial nBufferSize) labels → JoinsOwnThread s ∧ AllReaped s) ∧
      (s.main = .joining → ¬ OneThreadToJoin s →
        ¬ JoinsOwnThread s ∨
          ∀ more last, s.run more = some last → last.main = .closing →
            ¬ AllReaped last) := by
  have hunjoined := run_unjoined hrun
  constructor
  · intro hguard
    have hinv := run_joinsTheOneThread hguard hrun
    constructor
    · intro hmain
      rcases hinv.1 hmain with ⟨hlength, htid⟩
      have hbound : 0 < s.threads.length := by omega
      exact ⟨0, s.threads[0], htid, List.getElem?_eq_getElem hbound,
        hunjoined (Or.inr hmain) _ (List.getElem_mem hbound)⟩
    · intro hdone thread hmem
      rcases hinv.2 hdone thread hmem with ⟨hpc, hjoins⟩
      exact ⟨by rw [hpc]; rfl, hjoins⟩
  · intro hmain hnot
    by_cases hown : JoinsOwnThread s
    · right
      intro more last hlast hclosing
      have hspare : LeavesThreadUnjoined last :=
        runFrom_invariant LeavesThreadUnjoined
          (leavesThreadUnjoined_of_quit hunjoined hmain hown hnot)
          (fun state label next hinv hstep =>
            hinv.step (Step.of_step hstep).2)
          hlast
      exact hspare.not_allReaped hclosing
    · exact Or.inl hown

def quitFirstRun : List Label :=
  [.main (.setup true)] ++ serveQuitServer ⟨1, 40000⟩

theorem quitFirstRun_main :
    ((State.initial 65536).run quitFirstRun).map (fun s => (s.main, s.streamTid)) =
      some (.joining, none) := by
  decide +kernel

theorem quit_joins_nothing :
    ∃ s, (State.initial 65536).run quitFirstRun = some s ∧
      ¬ JoinsOwnThread s := by
  rcases Option.map_eq_some_iff.mp quitFirstRun_main with ⟨s, hrun, hstate⟩
  rcases Prod.mk.inj hstate with ⟨hmain, htid⟩
  refine ⟨s, hrun, ?_⟩
  intro hown
  rcases hown hmain with ⟨tid, thread, hnamed, _⟩
  rw [htid] at hnamed
  contradiction

def reapedRun : List Label :=
  [.main (.setup true)] ++ serveVideoRequest ⟨1, 40000⟩ ++
    wholeSession 0 1000 3 ++ serveQuitServer ⟨1, 40000⟩ ++ [.main .join]

theorem reapedRun_reaped :
    AllReaped (((State.initial 65536).run reapedRun).get (by decide +kernel)) :=
  ((reaped_of_quits_with_one_thread (Option.some_get _).symm).1
    (by decide +kernel)).2

end RpiUdpStream
