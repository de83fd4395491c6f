import RpiUdpStream.ServerSteps

/-!
# When two stream sessions overlap

All stream threads work on the same camera, encoder and null sink.  Nothing in
`main` waits for the previous session before it creates the next thread, so two
requests in a row put two threads into `omx_h264_init`.  Sessions stay apart
exactly in the runs in which every thread is created after all earlier ones
have returned from `omx_h264_deinit`.
-/

namespace RpiUdpStream

open LabelledRun

/-- At most one thread is between the start of its `omx_h264_init` and the
end of its `omx_h264_deinit`. -/
def SessionsDisjoint (s : State) : Prop :=
  ∀ (left right : ℕ) (leftThread rightThread : StreamThread),
    s.threads[left]? = some leftThread → s.threads[right]? = some rightThread →
    leftThread.pc.inSession = true → rightThread.pc.inSession = true →
    left = right

def EverySessionOver (s : State) : Prop :=
  ∀ thread ∈ s.threads, thread.pc.sessionOver = true

/-- The guard that `main` does not have: a thread is created only when the
sessions of all earlier threads are over. -/
def CreatesAfterDeinit (s : State) (label : Label) : Prop :=
  label = .main (.create .created) → EverySessionOver s

instance (s : State) (label : Label) : Decidable (CreatesAfterDeinit s label) :=
  inferInstanceAs (Decidable (_ → ∀ thread ∈ s.threads, _))

def EarlierSessionsOver (s : State) : Prop :=
  ∀ tid thread, s.threads[tid]? = some thread → tid + 1 < s.threads.length →
    thread.pc.sessionOver = true

theorem StreamPc.sessionOver_eq_false_of_inSession
    {pc : StreamPc} (hsession : pc.inSession = true) :
    pc.sessionOver = false := by
  cases pc <;> first | rfl | simp [StreamPc.inSession] at hsession

theorem StreamPc.eq_created_or_inSession
    {pc : StreamPc} (hopen : pc.sessionOver = false) :
    pc = .created ∨ pc.inSession = true := by
  cases pc <;> simp [StreamPc.sessionOver] at hopen <;> simp [StreamPc.inSession]

theorem EarlierSessionsOver.step
    {s next : State} {label : Label} (hinv : EarlierSessionsOver s)
    (hguard : CreatesAfterDeinit s label) (hstep : Step s label next) :
    EarlierSessionsOver next := by
  intro tid thread hthread hearlier
  have hlength := hstep.length_threads
  rcases hstep.thread_origin hthread with
    ⟨before, hbefore, _, _, hpc⟩ | ⟨hcreate, htid, _, _⟩
  · have hover : before.pc.sessionOver = true := by
      by_cases hcreate : label = .main (.create .created)
      · exact hguard hcreate before (List.mem_of_getElem? hbefore)
      · apply hinv tid before hbefore
        rw [if_neg hcreate] at hlength
        omega
    rcases hpc with hsame | ⟨action, _, hmove⟩
    · rw [hsame]
      exact hover
    · exact hmove.sessionOver hover
  · rw [if_pos hcreate] at hlength
    omega

theorem EarlierSessionsOver.sessionsDisjoint
    {s : State} (hinv : EarlierSessionsOver s) : SessionsDisjoint s := by
  have hnewest : ∀ tid thread, s.threads[tid]? = some thread →
      thread.pc.inSession = true → tid + 1 = s.threads.length := by
    intro tid thread hthread hsession
    have hbound : tid < s.threads.length :=
      (List.getElem?_eq_some_iff.mp hthread).1
    by_contra hne
    have hover := hinv tid thread hthread (by omega)
    rw [StreamPc.sessionOver_eq_false_of_inSession hsession] at hover
    contradiction
  intro left right leftThread rightThread hleft hright hleftIn hrightIn
  have hleftNewest := hnewest left leftThread hleft hleftIn
  have hrightNewest := hnewest right rightThread hright hrightIn
  omega

theorem run_earlierSessionsOver
    {nBufferSize : ℕ} {labels : List Label} {s : State}
    (hguard : EveryStep State.step CreatesAfterDeinit
      (State.initial nBufferSize) labels)
    (hrun : (State.initial nBufferSize).run labels = some s) :
    EarlierSessionsOver s := by
  apply runFrom_guardedInvariant EarlierSessionsOver ?_ ?_ hguard hrun
  · intro tid thread hthread
    simp [State.initial] at hthread
  · intro state label next hinv hlabel hstep
    exact hinv.step hlabel (Step.of_step hstep).2

theorem State.step_initStart
    {s : State} {tid : ℕ} {thread : StreamThread}
    (hrunning : s.exitCode = none) (hthread : s.threads[tid]? = some thread)
    (hpc : thread.pc = .created) :
    s.step (.stream tid .initStart) =
      some (s.setPc tid thread .initializing) := by
  simp [State.step, hrunning, hthread, State.streamStep, hpc, StreamPc.advance]

theorem State.setPc_getElem?_self
    {s : State} {tid : ℕ} {thread found : StreamThread} {pc : StreamPc}
    (hfound : s.threads[tid]? = some found) :
    (s.setPc tid thread pc).threads[tid]? = some { thread with pc := pc } := by
  have hbound := (List.getElem?_eq_some_iff.mp hfound).1
  simp [State.setPc, hbound]

theorem State.setPc_getElem?_ne
    {s : State} {tid other : ℕ} {thread : StreamThread} {pc : StreamPc}
    (hne : other ≠ tid) :
    (s.setPc tid thread pc).threads[other]? = s.threads[other]? := by
  simp [State.setPc, Ne.symm hne]

theorem exists_overlap_of_inSession
    {s : State} {busy fresh : ℕ} {busyThread freshThread : StreamThread}
    (hrunning : s.exitCode = none)
    (hbusy : s.threads[busy]? = some busyThread)
    (hfresh : s.threads[fresh]? = some freshThread)
    (hsession : busyThread.pc.inSession = true)
    (hcreated : freshThread.pc = .created) :
    ∃ last, s.run [.stream fresh .initStart] = some last ∧
      ¬ SessionsDisjoint last := by
  have hstart := State.step_initStart hrunning hfresh hcreated
  refine ⟨s.setPc fresh freshThread .initializing, ?_, ?_⟩
  · rw [State.run, runFrom_singleton]
    exact hstart
  · intro hdisjoint
    have hne : busy ≠ fresh := by
      intro heq
      subst heq
      rw [hbusy] at hfresh
      cases hfresh
      simp [hcreated, StreamPc.inSession] at hsession
    have heq := hdisjoint busy fresh busyThread _
      ((State.setPc_getElem?_ne hne).trans hbusy)
      (State.setPc_getElem?_self hfresh) hsession rfl
    exact hne heq

theorem exists_overlap_of_unfinished
    {s : State} {old fresh : ℕ} {oldThread freshThread : StreamThread}
    (hrunning : s.exitCode = none) (hne : old ≠ fresh)
    (hold : s.threads[old]? = some oldThread)
    (hfresh : s.threads[fresh]? = some freshThread)
    (hunfinished : oldThread.pc.sessionOver = false)
    (hcreated : freshThread.pc = .created) :
    ∃ more last, s.run more = some last ∧ ¬ SessionsDisjoint last := by
  rcases StreamPc.eq_created_or_inSession hunfinished with hfirst | hsession
  · have hstart := State.step_initStart hrunning hold hfirst
    have hbusy : (s.setPc old oldThread .initializing).threads[old]? =
        some { oldThread with pc := .initializing } :=
      State.setPc_getElem?_self hold
    have hsession :
        ({ oldThread with pc := .initializing } : StreamThread).pc.inSession =
          true := rfl
    have hstill : (s.setPc old oldThread .initializing).threads[fresh]? =
        some freshThread :=
      (State.setPc_getElem?_ne hne.symm).trans hfresh
    have hgoing : (s.setPc old oldThread .initializing).exitCode = none :=
      hrunning
    obtain ⟨last, hlast, hoverlap⟩ :=
      exists_overlap_of_inSession hgoing hbusy hstill hsession hcreated
    exact ⟨_, last, runFrom_cons_eq_some.mpr ⟨_, hstart, hlast⟩, hoverlap⟩
  · obtain ⟨last, hlast, hoverlap⟩ :=
      exists_overlap_of_inSession hrunning hold hfresh hsession hcreated
    exact ⟨_, last, hlast, hoverlap⟩

theorem exists_overlap_of_create
    {s next : State}
    (hcreate : s.step (.main (.create .created)) = some next)
    (hopen : ¬ EverySessionOver s) :
    ∃ more last, next.run more = some last ∧ ¬ SessionsDisjoint last := by
  rcases Step.of_step hcreate with ⟨hrunning, hstep⟩
  simp only [EverySessionOver, not_forall, Bool.not_eq_true] at hopen
  rcases hopen with ⟨thread, hmem, hunfinished⟩
  rcases List.getElem?_of_mem hmem with ⟨tid, hthread⟩
  have hbound := (List.getElem?_eq_some_iff.mp hthread).1
  have hcreated : ∃ datagram : Datagram,
      next.threads = s.threads ++ [⟨.created, datagram, 0⟩] ∧
        next.exitCode = none := by
    cases hstep with
    | created hmain => exact ⟨_, rfl, hrunning⟩
  rcases hcreated with ⟨datagram, hthreads, hstill⟩
  have hold : next.threads[tid]? = some thread := by
    rw [hthreads, List.getElem?_append_left hbound]
    exact hthread
  have hnew : next.threads[s.threads.length]? =
      some ⟨.created, datagram, 0⟩ := by
    simp [hthreads]
  exact exists_overlap_of_unfinished hstill (Nat.ne_of_lt hbound)
    hold hnew hunfinished rfl

/-- Sessions are disjoint in every run that creates threads only after all
earlier sessions, and a creation that does not wait for them can be continued
to two overlapping sessions. -/
theorem sessions_disjoint_of_creates_after_deinit
    {nBufferSize : ℕ} {labels : List Label} {s : State}
    (hrun : (State.initial nBufferSize).run labels = some s) :
    (EveryStep State.step CreatesAfterDeinit
        (State.initial nBufferSize) labels → SessionsDisjoint s) ∧
      ∀ next, s.step (.main (.create .created)) = some next →
        ¬ EverySessionOver s →
        ∃ more last,
          (State.initial nBufferSize).run
              (labels ++ .main (.create .created) :: more) = some last ∧
            ¬ SessionsDisjoint last := by
  constructor
  · intro hguard
    exact (run_earlierSessionsOver hguard hrun).sessionsDisjoint
  · intro next hcreate hopen
    rcases exists_overlap_of_create hcreate hopen with ⟨more, last, hlast, hoverlap⟩
    refine ⟨more, last, ?_, hoverlap⟩
    rw [State.run, runFrom_append_eq_some]
    exact ⟨s, hrun, runFrom_cons_eq_some.mpr ⟨next, hcreate, hlast⟩⟩

/-- Two requests of one client in a row, and both threads start. -/
def overlapRun : List Label :=
  [.main (.setup true)] ++ serveVideoRequest ⟨1, 40000⟩ ++
    serveVideoRequest ⟨1, 40000⟩ ++
    [.stream 0 .initStart, .stream 1 .initStart]

theorem overlapRun_pcs :
    ((State.initial 65536).run overlapRun).map (fun s => s.threads.map (·.pc)) =
      some [.initializing, .initializing] := by
  decide +kernel

theorem sessions_overlap_after_two_requests :
    ∃ s, (State.initial 65536).run overlapRun = some s ∧ ¬ SessionsDisjoint s := by
  rcases Option.map_eq_some_iff.mp overlapRun_pcs with ⟨s, hrun, hpcs⟩
  refine ⟨s, hrun, ?_⟩
  intro hdisjoint
  have hfirst : ∃ thread, s.threads[0]? = some thread ∧
      thread.pc = .initializing := by
    have hget := congrArg (·[0]?) hpcs
    simpa using hget
  have hsecond : ∃ thread, s.threads[1]? = some thread ∧
      thread.pc = .initializing := by
    have hget := congrArg (·[1]?) hpcs
    simpa using hget
  rcases hfirst with ⟨left, hleft, hleftPc⟩
  rcases hsecond with ⟨right, hright, hrightPc⟩
  have heq := hdisjoint 0 1 left right hleft hright
    (by rw [hleftPc]; rfl) (by rw [hrightPc]; rfl)
  contradiction

def serialRun : List Label :=
  [.main (.setup true)] ++ serveVideoRequest ⟨1, 40000⟩ ++
    wholeSession 0 1000 3 ++ serveVideoRequest ⟨2, 40000⟩ ++
    [.stream 1 .initStart]

theorem serialRun_disjoint :
    SessionsDisjoint
      (((State.initial 65536).run serialRun).get (by decide +kernel)) :=
  (sessions_disjoint_of_creates_after_deinit (Option.some_get _).symm).1
    (by decide +kernel)

end RpiUdpStream
