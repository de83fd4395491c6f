import RpiUdpStream.KeepAlive
import RpiUdpStream.TimerRace

/-!
# The server with the steps of the timer apart

`main` calls `set_timeout` and the stream threads call `is_timeout` without a
lock, so the accesses of these calls to `spec` and `end` mix.  Here each of them
is a step of its own, and every other step is a step of the server.
-/

namespace RpiUdpStream

open LabelledRun

def MainPc.callsSetTimeout : MainPc → Bool
  | .requestTimeout _ | .refreshTimeout => true
  | _ => false

/-- `is_timeout` has returned to a thread. -/
def State.checked (s : State) (tid : ℕ) (expired : Bool) : Option State :=
  match s.threads[tid]? with
  | none => none
  | some thread =>
      if thread.pc = .timeoutCheck then
        some (s.setPc tid thread (if expired then .deinitCall else .quitTest))
      else none

namespace Racy

/-- The call of `set_timeout` that wrote `end` last. -/
structure Deadline where
  called : Timespec
  written : Timespec
  deriving DecidableEq

/-- `server` is all but the clock and the timer, whose places in it are not
used, and `deadline` is what the code does not keep. -/
structure State where
  clock : Timespec
  timer : Timer
  server : RpiUdpStream.State
  setting : Option TimerRace.Call
  checking : ℕ → Option TimerRace.Call
  deadline : Option Deadline

def State.initial (nBufferSize : ℕ) : State where
  clock := .zero
  timer := .initial
  server := .initial nBufferSize
  setting := none
  checking := fun _ => none
  deadline := none

inductive Label where
  | tick (now : Timespec)
  | server (label : RpiUdpStream.Label)
  | callSetTimeout
  | setTimeout (action : TimerRace.Action)
  | isTimeout (tid : ℕ) (action : TimerRace.Action)
  deriving DecidableEq

/-- The steps of the server that are taken apart here. -/
def takenApart : RpiUdpStream.Label → Bool
  | .tick _ | .main .setTimeout | .stream _ .isTimeout => true
  | _ => false

def State.serverStep (s : State) (label : RpiUdpStream.Label) : Option State :=
  if takenApart label then none
  else
    (s.server.step label).map fun server =>
      match label with
      | .stream tid .timeoutStart =>
          { s with
            server := server
            checking :=
              Function.update s.checking tid (some (.begin .isTimeout s.clock)) }
      | _ => { s with server := server }

def State.settingStep (s : State) (action : TimerRace.Action) : Option State :=
  s.setting.bind fun call =>
    (call.perform s.clock s.timer action).bind fun (next, timer) =>
      match action with
      | .accessEnd =>
          some { s with
            timer := timer
            setting := some next
            deadline := some ⟨call.start, s.clock⟩ }
      | .ret =>
          (s.server.mainStep .setTimeout).map fun server =>
            { s with server := server, setting := none }
      | _ => some { s with timer := timer, setting := some next }

def State.checkingStep (s : State) (tid : ℕ) (action : TimerRace.Action) :
    Option State :=
  (s.checking tid).bind fun call =>
    (call.perform s.clock s.timer action).bind fun (next, timer) =>
      match action with
      | .ret =>
          (s.server.checked tid (decide (next.result = some true))).map fun server =>
            { s with
              server := server
              checking := Function.update s.checking tid none }
      | _ =>
          some { s with
            timer := timer
            checking := Function.update s.checking tid (some next) }

def State.step (s : State) (label : Label) : Option State :=
  if s.server.exitCode.isSome then none
  else
    match label with
    | .tick now => if s.clock.ms ≤ now.ms then some { s with clock := now } else none
    | .server label => s.serverStep label
    | .callSetTimeout =>
        if s.setting = none ∧ s.server.main.callsSetTimeout = true then
          some { s with setting := some (.begin .setTimeout s.clock) }
        else none
    | .setTimeout action => s.settingStep action
    | .isTimeout tid action => s.checkingStep tid action

abbrev State.run (s : State) (labels : List Label) : Option State :=
  runFrom State.step s labels

/-! ## What one step can do -/

inductive Step (s : State) : Label → State → Prop where
  | tick {now : Timespec} (hclock : s.clock.ms ≤ now.ms) :
      Step s (.tick now) { s with clock := now }
  | moved {label : RpiUdpStream.Label} {server : RpiUdpStream.State}
      (hapart : takenApart label = false)
      (hstarts : ∀ tid, label ≠ .stream tid .timeoutStart)
      (hserver : s.server.step label = some server) :
      Step s (.server label) { s with server := server }
  | started {tid : ℕ} {server : RpiUdpStream.State}
      (hserver : s.server.step (.stream tid .timeoutStart) = some server) :
      Step s (.server (.stream tid .timeoutStart))
        { s with
          server := server
          checking :=
            Function.update s.checking tid (some (.begin .isTimeout s.clock)) }
  | called (hnone : s.setting = none)
      (hmain : s.server.main.callsSetTimeout = true) :
      Step s .callSetTimeout
        { s with setting := some (.begin .setTimeout s.clock) }
  | accessed {action : TimerRace.Action} {call next : TimerRace.Call} {timer : Timer}
      (hsetting : s.setting = some call) (haction : action ≠ .accessEnd)
      (hreturns : action ≠ .ret)
      (hstep : TimerRace.CallStep s.clock s.timer call action next timer) :
      Step s (.setTimeout action) { s with timer := timer, setting := some next }
  | wrote {call next : TimerRace.Call} {timer : Timer}
      (hsetting : s.setting = some call)
      (hstep : TimerRace.CallStep s.clock s.timer call .accessEnd next timer) :
      Step s (.setTimeout .accessEnd)
        { s with
          timer := timer
          setting := some next
          deadline := some ⟨call.start, s.clock⟩ }
  | set {server : RpiUdpStream.State}
      (hserver : s.server.step (.main .setTimeout) = some server) :
      Step s (.setTimeout .ret) { s with server := server, setting := none }
  | looked {tid : ℕ} {action : TimerRace.Action} {call next : TimerRace.Call}
      {timer : Timer} (hchecking : s.checking tid = some call)
      (hreturns : action ≠ .ret)
      (hstep : TimerRace.CallStep s.clock s.timer call action next timer) :
      Step s (.isTimeout tid action)
        { s with
          timer := timer
          checking := Function.update s.checking tid (some next) }
  | checked {tid : ℕ} {call next : TimerRace.Call} {timer : Timer}
      {thread : StreamThread} (hchecking : s.checking tid = some call)
      (hperform : call.perform s.clock s.timer .ret = some (next, timer))
      (hthread : s.server.threads[tid]? = some thread)
      (hpc : thread.pc = .timeoutCheck) :
      Step s (.isTimeout tid .ret)
        { s with
          server := s.server.setPc tid thread
            (if next.result = some true then .deinitCall else .quitTest)
          checking := Function.update s.checking tid none }

theorem Step.of_serverStep
    {s next : State} {label : RpiUdpStream.Label}
    (hstep : s.serverStep label = some next) : Step s (.server label) next := by
  obtain ⟨hapart, hmapped⟩ := Option.ite_none_left_eq_some.mp hstep
  obtain ⟨server, hserver, hnext⟩ := Option.map_eq_some_iff.mp hmapped
  by_cases hstarts : ∃ tid, label = .stream tid .timeoutStart
  · obtain ⟨tid, heq⟩ := hstarts
    subst heq hnext
    exact .started hserver
  · push Not at hstarts
    have hsame : next = { s with server := server } := by
      rw [← hnext]
      split
      · exact absurd rfl (hstarts _)
      · rfl
    subst hsame
    exact .moved (by simpa using hapart) hstarts hserver

theorem Step.of_settingStep
    {s next : State} {action : TimerRace.Action}
    (hrunning : s.server.exitCode = none)
    (hstep : s.settingStep action = some next) : Step s (.setTimeout action) next := by
  obtain ⟨call, hsetting, hbound⟩ := Option.bind_eq_some_iff.mp hstep
  obtain ⟨⟨after, timer⟩, hperform, hnext⟩ := Option.bind_eq_some_iff.mp hbound
  have hcall := TimerRace.CallStep.of_perform hperform
  cases action with
  | accessEnd =>
      cases hnext
      exact .wrote hsetting hcall
  | ret =>
      obtain ⟨server, hserver, heq⟩ := Option.map_eq_some_iff.mp hnext
      subst heq
      apply Step.set
      simpa [RpiUdpStream.State.step, hrunning] using hserver
  | _ =>
      cases hnext
      exact .accessed hsetting (by simp) (by simp) hcall

theorem Step.of_checkingStep
    {s next : State} {tid : ℕ} {action : TimerRace.Action}
    (hstep : s.checkingStep tid action = some next) :
    Step s (.isTimeout tid action) next := by
  obtain ⟨call, hchecking, hbound⟩ := Option.bind_eq_some_iff.mp hstep
  obtain ⟨⟨after, timer⟩, hperform, hnext⟩ := Option.bind_eq_some_iff.mp hbound
  have hcall := TimerRace.CallStep.of_perform hperform
  cases action with
  | ret =>
      obtain ⟨server, hserver, heq⟩ := Option.map_eq_some_iff.mp hnext
      subst heq
      unfold RpiUdpStream.State.checked at hserver
      split at hserver
      · contradiction
      · rename_i thread hthread
        obtain ⟨hpc, hset⟩ := Option.ite_none_right_eq_some.mp hserver
        cases hset
        simpa using Step.checked hchecking hperform hthread hpc
  | _ =>
      cases hnext
      exact .looked hchecking (by simp) hcall

theorem Step.of_step
    {s next : State} {label : Label} (hstep : s.step label = some next) :
    s.server.exitCode = none ∧ Step s label next := by
  unfold State.step at hstep
  split at hstep
  · contradiction
  · rename_i hexit
    have hrunning : s.server.exitCode = none := by simpa using hexit
    refine ⟨hrunning, ?_⟩
    cases label with
    | tick now =>
        obtain ⟨hclock, hnext⟩ := Option.ite_none_right_eq_some.mp hstep
        cases hnext
        exact .tick hclock
    | server label => exact .of_serverStep hstep
    | callSetTimeout =>
        obtain ⟨⟨hnone, hmain⟩, hnext⟩ := Option.ite_none_right_eq_some.mp hstep
        cases hnext
        exact .called hnone hmain
    | setTimeout action => exact .of_settingStep hrunning hstep
    | isTimeout tid action => exact .of_checkingStep hstep

theorem pcOf_of_setTimeout
    {s next : RpiUdpStream.State}
    (hserver : s.step (.main .setTimeout) = some next) (tid : ℕ) :
    next.pcOf tid = s.pcOf tid := by
  rcases (RpiUdpStream.Step.of_step hserver).2.pcOf_cases tid with
    ⟨hsame, _⟩ | ⟨hlabel, _⟩ | ⟨_, _, _, hlabel, _⟩
  · exact hsame
  · contradiction
  · contradiction

/-! ## What a call in progress knows -/

theorem tvSec_le_of_ms_le {left right : Timespec} (hle : left.ms ≤ right.ms) :
    left.tvSec ≤ right.tvSec := by
  rw [Timespec.ms_le_ms_iff] at hle
  omega

theorem ms_in_second (spec : Timespec) :
    (spec.tvSec : ℚ) * 1000 ≤ spec.ms ∧ spec.ms < (spec.tvSec + 1) * 1000 := by
  have hnanos : (spec.tvNsec : ℚ) < 1000000000 := by
    exact_mod_cast spec.tvNsec_lt
  have hnonneg : (0 : ℚ) ≤ spec.tvNsec := Nat.cast_nonneg _
  unfold Timespec.ms
  constructor <;> linarith

structure InProgress (function : TimerRace.TimerFunction) (clock spec : Timespec)
    (call : TimerRace.Call) : Prop where
  function : call.function = function
  invariant : TimerRace.CallInvariant clock spec call
  unfinished : call.finish = none

theorem inProgress_begin
    (function : TimerRace.TimerFunction) (clock spec : Timespec) :
    InProgress function clock spec (.begin function clock) :=
  ⟨rfl, TimerRace.callInvariant_begin function clock spec, rfl⟩

theorem InProgress.later
    {function : TimerRace.TimerFunction} {clock spec clock' spec' : Timespec}
    {call : TimerRace.Call} (hcall : InProgress function clock spec call)
    (hclock : clock.ms ≤ clock'.ms) (hspec : spec.ms ≤ spec'.ms) :
    InProgress function clock' spec' call :=
  ⟨hcall.function, hcall.invariant.later hclock hspec, hcall.unfinished⟩

theorem InProgress.step
    {function : TimerRace.TimerFunction} {clock : Timespec} {timer after : Timer}
    {call next : TimerRace.Call} {action : TimerRace.Action}
    (hcall : InProgress function clock timer.spec call)
    (hspec : timer.spec.ms ≤ clock.ms) (hreturns : action ≠ .ret)
    (hstep : TimerRace.CallStep clock timer call action next after) :
    InProgress function clock after.spec next where
  function := by
    rw [← hcall.function]
    cases hstep <;> rfl
  invariant := hcall.invariant.step hspec hstep
  unfinished := by
    rw [← hcall.unfinished]
    cases hstep <;> first | rfl | contradiction

/-- Both fields are read during the call, so the seconds are right. -/
theorem InProgress.time_bounds
    {function : TimerRace.TimerFunction} {clock spec time : Timespec}
    {call : TimerRace.Call} (hcall : InProgress function clock spec call)
    (htime : call.time = some time) :
    call.start.tvSec ≤ time.tvSec ∧ time.tvSec ≤ clock.tvSec := by
  obtain ⟨sec, nsec, hsec, _, hmix⟩ := TimerRace.Call.time_eq_some htime
  have hbounds := hcall.invariant.sec sec hsec
  rw [hcall.unfinished] at hbounds
  subst hmix
  have hstart : call.start.tvSec ≤ sec.tvSec := tvSec_le_of_ms_le hbounds.1
  have hclock : sec.tvSec ≤ clock.tvSec := tvSec_le_of_ms_le hbounds.2
  exact ⟨hstart, hclock⟩

theorem InProgress.written_bounds
    {clock spec : Timespec} {call : TimerRace.Call} {endMs : ℤ}
    (hcall : InProgress .setTimeout clock spec call) (hend : call.endMs = some endMs) :
    ((call.start.tvSec : ℤ) + 2) * 1000 ≤ endMs ∧
      endMs < ((clock.tvSec : ℤ) + 3) * 1000 := by
  obtain ⟨time, htime, hwritten⟩ := hcall.invariant.written hcall.function endMs hend
  obtain ⟨hstart, hclock⟩ := hcall.time_bounds htime
  rw [truncateToLong_of_nonneg time.ms_nonneg, Timespec.floor_ms] at hwritten
  have hnanos := time.tvNsec_lt
  unfold timeoutMs at hwritten
  omega

/-- A step of a call leaves `end` as it is, or reads or writes it. -/
theorem endMs_of_callStep
    {clock : Timespec} {timer after : Timer} {call next : TimerRace.Call}
    {action : TimerRace.Action}
    (hstep : TimerRace.CallStep clock timer call action next after) :
    next.start = call.start ∧
      (after.endMs = timer.endMs ∨
        action = .accessEnd ∧ call.function = .setTimeout) ∧
      (next.endMs = call.endMs ∨ next.endMs = some after.endMs) := by
  cases hstep with
  | writeEnd haccess hfunction =>
      exact ⟨rfl, Or.inr ⟨rfl, hfunction⟩, Or.inr rfl⟩
  | readEnd => exact ⟨rfl, Or.inl rfl, Or.inr rfl⟩
  | _ => exact ⟨rfl, Or.inl rfl, Or.inl rfl⟩

/-- `is_timeout` does not write `end`. -/
theorem InProgress.endMs_of_check
    {clock spec : Timespec} {timer after : Timer} {call next : TimerRace.Call}
    {action : TimerRace.Action} (hcall : InProgress .isTimeout clock spec call)
    (hstep : TimerRace.CallStep clock timer call action next after) :
    after.endMs = timer.endMs := by
  apply (endMs_of_callStep hstep).2.1.resolve_right
  rintro ⟨_, hfunction⟩
  rw [hcall.function] at hfunction
  contradiction

theorem endMs_of_accessEnd
    {clock : Timespec} {timer after : Timer} {call next : TimerRace.Call}
    (hstep : TimerRace.CallStep clock timer call .accessEnd next after) :
    next.endMs = some after.endMs := by
  cases hstep <;> rfl

theorem mem_update
    {checking : ℕ → Option TimerRace.Call} {tid mover : ℕ}
    {check : Option TimerRace.Call} {call : TimerRace.Call}
    (hcall : call ∈ Function.update checking mover check tid) :
    (tid = mover ∧ call ∈ check) ∨ call ∈ checking tid := by
  by_cases heq : tid = mover
  · subst heq
    rw [Function.update_self] at hcall
    exact Or.inl ⟨rfl, hcall⟩
  · rw [Function.update_of_ne heq] at hcall
    exact Or.inr hcall

theorem forall_mem_update
    {p : TimerRace.Call → Prop} {checking : ℕ → Option TimerRace.Call} {tid : ℕ}
    {check : Option TimerRace.Call} (hnew : ∀ call ∈ check, p call)
    (hold : ∀ other, ∀ call ∈ checking other, p call) :
    ∀ other, ∀ call ∈ Function.update checking tid check other, p call := by
  intro other call hcall
  rcases mem_update hcall with ⟨_, hchecked⟩ | hkept
  · exact hnew call hchecked
  · exact hold other call hkept

/-! ## The invariant -/

/-- A deadline is at least one and less than three seconds off, by the seconds
in which the call started and in which it wrote. -/
structure Deadline.Holds (d : Deadline) (clock : Timespec) (endMs : ℤ) : Prop where
  called_le : d.called.ms ≤ d.written.ms
  written_le : d.written.ms ≤ clock.ms
  lower : ((d.called.tvSec : ℤ) + 2) * 1000 ≤ endMs
  upper : endMs < ((d.written.tvSec : ℤ) + 3) * 1000

structure Invariant (s : State) : Prop where
  spec : s.timer.spec.ms ≤ s.clock.ms
  setting : ∀ call ∈ s.setting, InProgress .setTimeout s.clock s.timer.spec call
  checking : ∀ tid, ∀ call ∈ s.checking tid,
    InProgress .isTimeout s.clock s.timer.spec call
  deadline : ∀ d ∈ s.deadline, d.Holds s.clock s.timer.endMs
  sequential : ∀ d ∈ s.deadline, ∀ call ∈ s.setting, d.called.ms ≤ call.start.ms
  read : ∀ tid, ∀ call ∈ s.checking tid, ∀ endMs ∈ call.endMs, ∀ d ∈ s.deadline,
    d.written.ms < call.start.ms → endMs = s.timer.endMs

theorem Invariant.tick
    {s : State} {now : Timespec} (hinv : Invariant s) (hclock : s.clock.ms ≤ now.ms) :
    Invariant { s with clock := now } where
  spec := hinv.spec.trans hclock
  setting call hcall := (hinv.setting call hcall).later hclock (le_refl _)
  checking tid call hcall := (hinv.checking tid call hcall).later hclock (le_refl _)
  deadline d hd :=
    { hinv.deadline d hd with
      written_le := (hinv.deadline d hd).written_le.trans hclock }
  sequential := hinv.sequential
  read := hinv.read

theorem Invariant.started
    {s : State} {tid : ℕ} {server : RpiUdpStream.State} (hinv : Invariant s) :
    Invariant { s with
      server := server
      checking := Function.update s.checking tid
        (some (.begin .isTimeout s.clock)) } where
  spec := hinv.spec
  setting := hinv.setting
  checking := by
    apply forall_mem_update ?_ hinv.checking
    rintro call hcall
    cases hcall
    exact inProgress_begin _ _ _
  deadline := hinv.deadline
  sequential := hinv.sequential
  read := by
    apply forall_mem_update ?_ hinv.read
    rintro call hcall endMs hend
    cases hcall
    contradiction

theorem Invariant.called
    {s : State} (hinv : Invariant s) :
    Invariant { s with setting := some (.begin .setTimeout s.clock) } where
  spec := hinv.spec
  setting := by
    rintro call hcall
    cases hcall
    exact inProgress_begin _ _ _
  checking := hinv.checking
  deadline := hinv.deadline
  sequential := by
    rintro d hd call hcall
    cases hcall
    exact (hinv.deadline d hd).called_le.trans (hinv.deadline d hd).written_le
  read := hinv.read

theorem Invariant.accessed
    {s : State} {action : TimerRace.Action} {call next : TimerRace.Call} {timer : Timer}
    (hinv : Invariant s) (hsetting : s.setting = some call)
    (haction : action ≠ .accessEnd) (hreturns : action ≠ .ret)
    (hstep : TimerRace.CallStep s.clock s.timer call action next timer) :
    Invariant { s with timer := timer, setting := some next } := by
  obtain ⟨hstart, hend, _⟩ := endMs_of_callStep hstep
  have hsame : timer.endMs = s.timer.endMs :=
    hend.resolve_right fun hwrites => haction hwrites.1
  have hspec := hstep.spec_le hinv.spec
  constructor
  · exact hspec.2
  · rintro found hfound
    cases hfound
    exact (hinv.setting call hsetting).step hinv.spec hreturns hstep
  · intro tid found hfound
    exact (hinv.checking tid found hfound).later (le_refl _) hspec.1
  · simpa only [hsame] using hinv.deadline
  · rintro d hd found hfound
    cases hfound
    rw [hstart]
    exact hinv.sequential d hd call hsetting
  · simpa only [hsame] using hinv.read

theorem Invariant.wrote
    {s : State} {call next : TimerRace.Call} {timer : Timer} (hinv : Invariant s)
    (hsetting : s.setting = some call)
    (hstep : TimerRace.CallStep s.clock s.timer call .accessEnd next timer) :
    Invariant { s with
      timer := timer
      setting := some next
      deadline := some ⟨call.start, s.clock⟩ } := by
  have hcall := hinv.setting call hsetting
  have hnext := hcall.step hinv.spec (by simp) hstep
  obtain ⟨hstart, _, _⟩ := endMs_of_callStep hstep
  have hspec := hstep.spec_le hinv.spec
  have hend := endMs_of_accessEnd hstep
  constructor
  · exact hspec.2
  · rintro found hfound
    cases hfound
    exact hnext
  · intro tid found hfound
    exact (hinv.checking tid found hfound).later (le_refl _) hspec.1
  · rintro d hd
    cases hd
    have hbounds := hnext.written_bounds hend
    rw [hstart] at hbounds
    exact ⟨hcall.invariant.started, le_refl _, hbounds.1, hbounds.2⟩
  · rintro d hd found hfound
    cases hd
    cases hfound
    rw [hstart]
  · rintro tid found hfound endMs _ d hd hlater
    cases hd
    exact absurd (hinv.checking tid found hfound).invariant.started
      (not_le.mpr hlater)

theorem Invariant.looked
    {s : State} {tid : ℕ} {action : TimerRace.Action} {call next : TimerRace.Call}
    {timer : Timer} (hinv : Invariant s) (hchecking : s.checking tid = some call)
    (hreturns : action ≠ .ret)
    (hstep : TimerRace.CallStep s.clock s.timer call action next timer) :
    Invariant { s with
      timer := timer
      checking := Function.update s.checking tid (some next) } := by
  have hcall := hinv.checking tid call hchecking
  obtain ⟨hstart, _, hreads⟩ := endMs_of_callStep hstep
  have hsame := hcall.endMs_of_check hstep
  have hspec := hstep.spec_le hinv.spec
  constructor
  · exact hspec.2
  · intro found hfound
    exact (hinv.setting found hfound).later (le_refl _) hspec.1
  · apply forall_mem_update
    · rintro found hfound
      cases hfound
      exact hcall.step hinv.spec hreturns hstep
    · intro other found hfound
      exact (hinv.checking other found hfound).later (le_refl _) hspec.1
  · simpa only [hsame] using hinv.deadline
  · exact hinv.sequential
  · apply forall_mem_update
    · rintro found hfound endMs hend d hd hlater
      cases hfound
      rw [hstart] at hlater
      rcases hreads with hkept | hread
      · rw [hkept] at hend
        exact (hinv.read tid call hchecking endMs hend d hd hlater).trans hsame.symm
      · rw [hread] at hend
        exact (Option.some.inj hend).symm
    · simpa only [hsame] using hinv.read

theorem Invariant.returned
    {s : State} {tid : ℕ} {server : RpiUdpStream.State} (hinv : Invariant s) :
    Invariant { s with
      server := server, checking := Function.update s.checking tid none } where
  spec := hinv.spec
  setting := hinv.setting
  checking := forall_mem_update (by simp) hinv.checking
  deadline := hinv.deadline
  sequential := hinv.sequential
  read := forall_mem_update (by simp) hinv.read

theorem Invariant.step
    {s next : State} {label : Label} (hinv : Invariant s)
    (hstep : Step s label next) : Invariant next := by
  cases hstep with
  | tick hclock => exact hinv.tick hclock
  | moved => exact ⟨hinv.1, hinv.2, hinv.3, hinv.4, hinv.5, hinv.6⟩
  | started => exact hinv.started
  | called => exact hinv.called
  | accessed hsetting haction hreturns hcall =>
      exact hinv.accessed hsetting haction hreturns hcall
  | wrote hsetting hcall => exact hinv.wrote hsetting hcall
  | set => exact ⟨hinv.1, by simp, hinv.3, hinv.4, by simp, hinv.6⟩
  | looked hchecking hreturns hcall => exact hinv.looked hchecking hreturns hcall
  | checked => exact hinv.returned

theorem run_invariant
    {nBufferSize : ℕ} {labels : List Label} {s : State}
    (hrun : (State.initial nBufferSize).run labels = some s) : Invariant s := by
  apply runFrom_invariant Invariant ?_ ?_ hrun
  · constructor <;> simp [State.initial, Timer.initial]
  · intro state label next hinv hstep
    exact hinv.step (Step.of_step hstep).2

end Racy

end RpiUdpStream
