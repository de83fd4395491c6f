import RpiUdpStream.Server

/-!
# What one step of the server can do

`Step` lists the branches of `State.step` with their guards and their effects.
Every invariant of the server is proved from this list, so that the step
function is unfolded once.
-/

namespace RpiUdpStream

open LabelledRun

inductive Step (s : State) : Label → State → Prop where
  | tick {now : Timespec} (hclock : s.clock.ms ≤ now.ms) :
      Step s (.tick now) { s with clock := now }
  | setupDone (hmain : s.main = .setup) :
      Step s (.main (.setup true))
        { s with main := .receiving, socketsOpen := true }
  | setupFailed (hmain : s.main = .setup) :
      Step s (.main (.setup false)) { s with exitCode := some 0 }
  | receiveFailed (hmain : s.main = .receiving) :
      Step s (.main (.receive none))
        { s with udp := (udpReceiveCommand s.udp none).1 }
  | received {datagram : Datagram} (hmain : s.main = .receiving) :
      Step s (.main (.receive (some datagram)))
        { s with
          udp := (udpReceiveCommand s.udp (some datagram)).1
          main := .dispatching datagram }
  | startStream {datagram : Datagram} (hmain : s.main = .dispatching datagram)
      (hdispatch : dispatch s.udp = .startStream) :
      Step s (.main .dispatch) { s with main := .requestTimeout datagram }
  | refreshTimeout {datagram : Datagram} (hmain : s.main = .dispatching datagram)
      (hdispatch : dispatch s.udp = .refreshTimeout) :
      Step s (.main .dispatch) { s with main := .refreshTimeout }
  | quit {datagram : Datagram} (hmain : s.main = .dispatching datagram)
      (hdispatch : dispatch s.udp = .quit) :
      Step s (.main .dispatch) { s with main := .quitting }
  | ignored {datagram : Datagram} (hmain : s.main = .dispatching datagram)
      (hdispatch : dispatch s.udp = .nothing) :
      Step s (.main .dispatch) { s with main := .receiving }
  | requested {datagram : Datagram} (hmain : s.main = .requestTimeout datagram) :
      Step s (.main .setTimeout)
        { s with
          timer := setTimeout s.clock s.timer
          main := .creating datagram }
  | refreshed (hmain : s.main = .refreshTimeout) :
      Step s (.main .setTimeout)
        { s with timer := setTimeout s.clock s.timer, main := .receiving }
  | created {datagram : Datagram} (hmain : s.main = .creating datagram) :
      Step s (.main (.create .created))
        { s with
          main := .receiving
          streamTid := some s.threads.length
          threads := s.threads ++ [⟨.created, datagram, 0⟩] }
  | createFailed {datagram : Datagram} {contents : Option ℕ}
      (hmain : s.main = .creating datagram) :
      Step s (.main (.create (.failed contents)))
        { s with main := .receiving, streamTid := contents }
  | setQuit (hmain : s.main = .quitting) :
      Step s (.main .setQuit) { s with quitFlag := true, main := .joining }
  | joined {tid : ℕ} {thread : StreamThread} (hmain : s.main = .joining)
      (htid : s.streamTid = some tid) (hthread : s.threads[tid]? = some thread)
      (hwaited : thread.joins ≠ 0 ∨ thread.pc = .exited) :
      Step s (.main .join)
        { s with
          main := .closing
          threads := s.threads.set tid { thread with joins := thread.joins + 1 } }
  | joinedNothing (hmain : s.main = .joining)
      (htid : ∀ tid, s.streamTid = some tid → s.threads[tid]? = none) :
      Step s (.main .join) { s with main := .closing }
  | close (hmain : s.main = .closing) :
      Step s (.main .close) { s with socketsOpen := false, main := .returning }
  | ret (hmain : s.main = .returning) :
      Step s (.main .ret) { s with exitCode := some 0 }
  | move {tid : ℕ} {thread : StreamThread} {action : StreamAction} {pc : StreamPc}
      (hthread : s.threads[tid]? = some thread)
      (hadvance :
        thread.pc.advance s.quitFlag s.nBufferSize action = some pc) :
      Step s (.stream tid action) (s.setPc tid thread pc)
  | writePort {tid : ℕ} {thread : StreamThread} {len : ℕ}
      (hthread : s.threads[tid]? = some thread)
      (hpc : thread.pc = .portWrite len) :
      Step s (.stream tid .writePort)
        { s.setPc tid thread (.sendto len) with udp := writeStreamPort s.udp }
  | sent {tid : ℕ} {thread : StreamThread} {len : ℕ}
      (hthread : s.threads[tid]? = some thread) (hpc : thread.pc = .sendto len)
      (hopen : s.socketsOpen = true) (hlen : len ≤ maxUdpPayload) :
      Step s (.stream tid (.sendto true)) (s.setPc tid thread .sendReturn)
  | sendFailed {tid : ℕ} {thread : StreamThread} {len : ℕ}
      (hthread : s.threads[tid]? = some thread) (hpc : thread.pc = .sendto len) :
      Step s (.stream tid (.sendto false)) { s with exitCode := some 0 }
  | checked {tid : ℕ} {thread : StreamThread}
      (hthread : s.threads[tid]? = some thread)
      (hpc : thread.pc = .timeoutCheck) :
      Step s (.stream tid .isTimeout)
        { s.setPc tid thread
            (if (isTimeout s.clock s.timer).2 then .deinitCall else .quitTest) with
          timer := (isTimeout s.clock s.timer).1 }
  | omxError {tid : ℕ} {thread : StreamThread}
      (hthread : s.threads[tid]? = some thread)
      (hpc : thread.pc.inOmxCall = true) :
      Step s (.stream tid .omxError) { s with exitCode := some 1 }

private theorem Step.of_join
    {s next : State} (hmain : s.main = .joining) (hjoin : s.join = some next) :
    Step s (.main .join) next := by
  unfold State.join at hjoin
  split at hjoin
  case h_1 tid thread hlookup =>
    have hthread : s.streamTid = some tid ∧ s.threads[tid]? = some thread := by
      simpa [Option.bind_eq_some_iff] using hlookup
    split at hjoin
    · contradiction
    · rename_i hwaited
      cases hjoin
      refine .joined hmain hthread.1 hthread.2 ?_
      by_contra hneither
      push Not at hneither
      exact hwaited hneither
  case h_2 hlookup =>
    cases hjoin
    refine .joinedNothing hmain ?_
    intro tid htid
    simpa [htid] using hlookup

private theorem Step.of_mainStep
    {s next : State} {action : MainAction}
    (hstep : s.mainStep action = some next) :
    Step s (.main action) next := by
  unfold State.mainStep at hstep
  split at hstep
  case h_1 hmain => cases hstep; exact .setupDone hmain
  case h_2 hmain => cases hstep; exact .setupFailed hmain
  case h_3 received hmain =>
    cases received with
    | none => cases hstep; exact .receiveFailed hmain
    | some datagram => cases hstep; exact .received hmain
  case h_4 datagram hmain =>
    cases hdispatch : dispatch s.udp with
    | startStream =>
        rw [hdispatch] at hstep
        cases hstep
        exact .startStream hmain hdispatch
    | refreshTimeout =>
        rw [hdispatch] at hstep
        cases hstep
        exact .refreshTimeout hmain hdispatch
    | quit =>
        rw [hdispatch] at hstep
        cases hstep
        exact .quit hmain hdispatch
    | nothing =>
        rw [hdispatch] at hstep
        cases hstep
        exact .ignored hmain hdispatch
  case h_5 datagram hmain => cases hstep; exact .requested hmain
  case h_6 hmain => cases hstep; exact .refreshed hmain
  case h_7 datagram hmain => cases hstep; exact .created hmain
  case h_8 datagram contents hmain => cases hstep; exact .createFailed hmain
  case h_9 hmain => cases hstep; exact .setQuit hmain
  case h_10 hmain => exact .of_join hmain hstep
  case h_11 hmain => cases hstep; exact .close hmain
  case h_12 hmain => cases hstep; exact .ret hmain
  case h_13 => contradiction

private theorem Step.of_streamStep
    {s next : State} {tid : ℕ} {thread : StreamThread} {action : StreamAction}
    (hthread : s.threads[tid]? = some thread)
    (hstep : s.streamStep tid thread action = some next) :
    Step s (.stream tid action) next := by
  unfold State.streamStep at hstep
  split at hstep
  case h_1 len hpc => cases hstep; exact .writePort hthread hpc
  case h_2 len hpc =>
    split at hstep
    · rename_i hsend
      cases hstep
      exact .sent hthread hpc hsend.1 hsend.2
    · contradiction
  case h_3 len hpc => cases hstep; exact .sendFailed hthread hpc
  case h_4 hpc => cases hstep; exact .checked hthread hpc
  case h_5 pc _ =>
    split at hstep
    · rename_i hcall
      cases hstep
      exact .omxError hthread hcall
    · contradiction
  case h_6 =>
    rcases Option.map_eq_some_iff.mp hstep with ⟨pc, hadvance, hnext⟩
    subst next
    exact .move hthread hadvance

theorem Step.of_step
    {s next : State} {label : Label} (hstep : s.step label = some next) :
    s.exitCode = none ∧ Step s label next := by
  unfold State.step at hstep
  split at hstep
  · contradiction
  · rename_i hrunning
    constructor
    · simpa using hrunning
    · cases label with
      | tick now =>
          simp only [Option.ite_none_right_eq_some, Option.some.injEq] at hstep
          rcases hstep with ⟨hclock, rfl⟩
          exact .tick hclock
      | main action => exact .of_mainStep hstep
      | stream tid action =>
          cases hthread : s.threads[tid]? with
          | none => simp [hthread] at hstep
          | some thread =>
              simp only [hthread] at hstep
              exact .of_streamStep hthread hstep

/-! ## What a step does to the stream threads -/

/-- The moves of one thread's program counter, other than into an exit of the
process. -/
inductive PcMove (s : State) : StreamPc → StreamAction → StreamPc → Prop where
  | initStart : PcMove s .created .initStart .initializing
  | initEnd : PcMove s .initializing .initEnd .quitTest
  | isQuit :
      PcMove s .quitTest .isQuit (if s.quitFlag then .deinitCall else .fillCall)
  | fillStart : PcMove s .fillCall .fillStart .filling
  | fillEnd {len : ℕ} (hlen : len ≤ s.nBufferSize) :
      PcMove s .filling (.fillEnd len) (.sendCall len)
  | sendStart (len : ℕ) : PcMove s (.sendCall len) .sendStart (.portWrite len)
  | writePort (len : ℕ) : PcMove s (.portWrite len) .writePort (.sendto len)
  | sent (len : ℕ) : PcMove s (.sendto len) (.sendto true) .sendReturn
  | sendEnd : PcMove s .sendReturn .sendEnd .timeoutCall
  | timeoutStart : PcMove s .timeoutCall .timeoutStart .timeoutCheck
  | checked :
      PcMove s .timeoutCheck .isTimeout
        (if (isTimeout s.clock s.timer).2 then .deinitCall else .quitTest)
  | deinitStart : PcMove s .deinitCall .deinitStart .deinitializing
  | deinitEnd : PcMove s .deinitializing .deinitEnd .exitCall
  | pthreadExit : PcMove s .exitCall .pthreadExit .exited

@[simp] theorem StreamPc.advance_writePort
    (pc : StreamPc) (quitFlag : Bool) (nBufferSize : ℕ) :
    pc.advance quitFlag nBufferSize .writePort = none := by
  cases pc <;> rfl

@[simp] theorem StreamPc.advance_sendto
    (pc : StreamPc) (quitFlag : Bool) (nBufferSize : ℕ) (ok : Bool) :
    pc.advance quitFlag nBufferSize (.sendto ok) = none := by
  cases pc <;> rfl

theorem PcMove.of_advance
    {s : State} {pc pc' : StreamPc} {action : StreamAction}
    (hadvance : pc.advance s.quitFlag s.nBufferSize action = some pc') :
    PcMove s pc action pc' := by
  unfold StreamPc.advance at hadvance
  split at hadvance
  case h_1 => cases hadvance; exact .initStart
  case h_2 => cases hadvance; exact .initEnd
  case h_3 => cases hadvance; exact .isQuit
  case h_4 => cases hadvance; exact .fillStart
  case h_5 =>
    rw [Option.ite_none_right_eq_some] at hadvance
    rcases hadvance with ⟨hlen, hpc⟩
    cases hpc
    exact .fillEnd hlen
  case h_6 => cases hadvance; exact .sendStart _
  case h_7 => cases hadvance; exact .sendEnd
  case h_8 => cases hadvance; exact .timeoutStart
  case h_9 => cases hadvance; exact .deinitStart
  case h_10 => cases hadvance; exact .deinitEnd
  case h_11 => cases hadvance; exact .pthreadExit
  case h_12 => contradiction

theorem State.setPc_getElem?
    {s : State} {tid other : ℕ} {thread found : StreamThread} {pc : StreamPc}
    (hfound : (s.setPc tid thread pc).threads[other]? = some found) :
    (other = tid ∧ found = { thread with pc := pc }) ∨
      (other ≠ tid ∧ s.threads[other]? = some found) := by
  simp only [State.setPc, List.getElem?_set] at hfound
  split at hfound
  · rename_i heq
    left
    split at hfound
    · exact ⟨heq.symm, (Option.some.inj hfound).symm⟩
    · contradiction
  · rename_i hne
    exact Or.inr ⟨fun heq => hne heq.symm, hfound⟩

/-- Every thread after a step was there before it, up to one move of its
program counter or one join, or is the thread that the step created. -/
theorem Step.thread_origin
    {s next : State} {label : Label} (hstep : Step s label next)
    {tid : ℕ} {thread : StreamThread}
    (hthread : next.threads[tid]? = some thread) :
    (∃ before, s.threads[tid]? = some before ∧
        before.request = thread.request ∧
        (label ≠ .main .join → before.joins = thread.joins) ∧
        (thread.pc = before.pc ∨
          ∃ action, label = .stream tid action ∧
            PcMove s before.pc action thread.pc)) ∨
      (label = .main (.create .created) ∧ tid = s.threads.length ∧
        s.main = .creating thread.request ∧
        thread = ⟨.created, thread.request, 0⟩) := by
  have hmoved : ∀ {moved : ℕ} {before : StreamThread} {action : StreamAction}
      {pc : StreamPc}, label = .stream moved action →
      s.threads[moved]? = some before → PcMove s before.pc action pc →
      (s.setPc moved before pc).threads[tid]? = some thread →
      ∃ before, s.threads[tid]? = some before ∧
        before.request = thread.request ∧
        (label ≠ .main .join → before.joins = thread.joins) ∧
        (thread.pc = before.pc ∨
          ∃ action, label = .stream tid action ∧
            PcMove s before.pc action thread.pc) := by
    intro moved before action pc hlabel hbefore hmove hset
    rcases State.setPc_getElem? hset with ⟨rfl, rfl⟩ | ⟨_, hsame⟩
    · exact ⟨before, hbefore, rfl, fun _ => rfl,
        Or.inr ⟨action, hlabel, hmove⟩⟩
    · exact ⟨thread, hsame, rfl, fun _ => rfl, Or.inl rfl⟩
  cases hstep with
  | created hmain =>
      rw [List.getElem?_append] at hthread
      split at hthread
      · exact Or.inl ⟨thread, hthread, rfl, fun _ => rfl, Or.inl rfl⟩
      · rename_i hbound
        right
        rw [List.getElem?_singleton] at hthread
        split at hthread
        · rename_i hzero
          cases hthread
          exact ⟨rfl, by omega, hmain, rfl⟩
        · contradiction
  | @joined joinedTid before hmain htid hbefore hwaited =>
      left
      have hset := hthread
      simp only [List.getElem?_set] at hset
      split at hset
      · rename_i heq
        subst heq
        split at hset
        · cases hset
          exact ⟨before, hbefore, rfl, fun hne => absurd rfl hne, Or.inl rfl⟩
        · contradiction
      · exact ⟨thread, hset, rfl, fun _ => rfl, Or.inl rfl⟩
  | move hbefore hadvance =>
      exact Or.inl (hmoved rfl hbefore (.of_advance hadvance) hthread)
  | writePort hbefore hpc =>
      exact Or.inl (hmoved rfl hbefore (hpc ▸ .writePort _) hthread)
  | sent hbefore hpc hopen hlen =>
      exact Or.inl (hmoved rfl hbefore (hpc ▸ .sent _) hthread)
  | checked hbefore hpc =>
      exact Or.inl (hmoved rfl hbefore (hpc ▸ .checked) hthread)
  | _ => exact Or.inl ⟨thread, hthread, rfl, fun _ => rfl, Or.inl rfl⟩

theorem Step.length_threads
    {s next : State} {label : Label} (hstep : Step s label next) :
    next.threads.length =
      s.threads.length + if label = .main (.create .created) then 1 else 0 := by
  cases hstep <;> simp [State.setPc]

theorem Step.main_of_stream
    {s next : State} {tid : ℕ} {action : StreamAction}
    (hstep : Step s (.stream tid action) next) :
    next.main = s.main ∧ next.streamTid = s.streamTid := by
  cases hstep <;> exact ⟨rfl, rfl⟩

theorem Step.thread_kept
    {s next : State} {label : Label} (hstep : Step s label next)
    (hjoin : label ≠ .main .join) {tid : ℕ} {before : StreamThread}
    (hbefore : s.threads[tid]? = some before) :
    ∃ thread, next.threads[tid]? = some thread ∧
      thread.joins = before.joins := by
  have hbound := (List.getElem?_eq_some_iff.mp hbefore).1
  have hlength := hstep.length_threads
  have hstill : tid < next.threads.length := by omega
  have hthread := List.getElem?_eq_getElem hstill
  refine ⟨_, hthread, ?_⟩
  rcases hstep.thread_origin hthread with
    ⟨origin, horigin, _, hjoins, _⟩ | ⟨_, htid, _⟩
  · rw [hbefore] at horigin
    cases horigin
    exact (hjoins hjoin).symm
  · omega

theorem PcMove.sessionOver
    {s : State} {pc pc' : StreamPc} {action : StreamAction}
    (hmove : PcMove s pc action pc') (hover : pc.sessionOver = true) :
    pc'.sessionOver = true := by
  cases hmove with
  | pthreadExit => rfl
  | _ => contradiction

theorem PcMove.ne_exited
    {s : State} {pc pc' : StreamPc} {action : StreamAction}
    (hmove : PcMove s pc action pc') : pc ≠ .exited := by
  cases hmove <;> simp

def State.pcOf (s : State) (tid : ℕ) : Option StreamPc :=
  s.threads[tid]?.map (·.pc)

theorem State.pcOf_setPc
    {s : State} {tid : ℕ} {thread : StreamThread} {pc : StreamPc}
    (hthread : s.threads[tid]? = some thread) (other : ℕ) :
    (s.setPc tid thread pc).pcOf other =
      if other = tid then some pc else s.pcOf other := by
  have hbound := (List.getElem?_eq_some_iff.mp hthread).1
  unfold State.pcOf State.setPc
  by_cases heq : other = tid
  · subst heq
    simp [hbound]
  · rw [if_neg heq, List.getElem?_set_ne (Ne.symm heq)]

theorem Step.pcOf_cases
    {s next : State} {label : Label} (hstep : Step s label next) (tid : ℕ) :
    (next.pcOf tid = s.pcOf tid ∧ label ≠ .stream tid (.sendto true)) ∨
      (label = .main (.create .created) ∧ s.pcOf tid = none ∧
        next.pcOf tid = some .created) ∨
      ∃ pc action pc', label = .stream tid action ∧ s.pcOf tid = some pc ∧
        next.pcOf tid = some pc' ∧ PcMove s pc action pc' := by
  have hmoved : ∀ {moved : ℕ} {thread : StreamThread} {action : StreamAction}
      {pc : StreamPc}, s.threads[moved]? = some thread →
      PcMove s thread.pc action pc →
      ((s.setPc moved thread pc).pcOf tid = s.pcOf tid ∧
          Label.stream moved action ≠ .stream tid (.sendto true)) ∨
        (Label.stream moved action = .main (.create .created) ∧
          s.pcOf tid = none ∧
          (s.setPc moved thread pc).pcOf tid = some .created) ∨
        ∃ before action' pc', Label.stream moved action = .stream tid action' ∧
          s.pcOf tid = some before ∧
          (s.setPc moved thread pc).pcOf tid = some pc' ∧
          PcMove s before action' pc' := by
    intro moved thread action pc hthread hmove
    rw [State.pcOf_setPc hthread]
    by_cases heq : tid = moved
    · subst heq
      right
      right
      exact ⟨thread.pc, action, pc, rfl, by simp [State.pcOf, hthread],
        by simp, hmove⟩
    · left
      rw [if_neg heq]
      constructor
      · exact rfl
      · intro hlabel
        injection hlabel with hmoved
        exact heq hmoved.symm
  cases hstep with
  | @created datagram hmain =>
      by_cases hnew : tid = s.threads.length
      · subst hnew
        exact Or.inr (Or.inl ⟨rfl, by simp [State.pcOf], by simp [State.pcOf]⟩)
      · left
        refine ⟨?_, by simp⟩
        unfold State.pcOf
        rw [List.getElem?_append]
        split
        · rfl
        · rename_i hbound
          rw [List.getElem?_singleton, if_neg (by omega),
            List.getElem?_eq_none (by omega)]
  | @joined joinedTid thread hmain htid hthread hwaited =>
      left
      refine ⟨?_, by simp⟩
      unfold State.pcOf
      rw [List.getElem?_set]
      split
      · rename_i heq
        subst heq
        rw [if_pos (List.getElem?_eq_some_iff.mp hthread).1, hthread]
        rfl
      · rfl
  | move hthread hadvance => exact hmoved hthread (.of_advance hadvance)
  | writePort hthread hpc => exact hmoved hthread (hpc ▸ .writePort _)
  | sent hthread hpc hopen hlen => exact hmoved hthread (hpc ▸ .sent _)
  | checked hthread hpc => exact hmoved hthread (hpc ▸ .checked)
  | _ => exact Or.inl ⟨rfl, by simp⟩

/-- A step of a stream thread moves it on or ends the process. -/
theorem Step.stream_cases
    {s next : State} {tid : ℕ} {action : StreamAction}
    (hstep : Step s (.stream tid action) next) :
    (∃ pc pc', s.pcOf tid = some pc ∧ next.pcOf tid = some pc' ∧
      PcMove s pc action pc') ∨
      ((action = .sendto false ∨ action = .omxError) ∧
        next.exitCode.isSome = true ∧ next.threads = s.threads ∧
        ∃ pc, s.pcOf tid = some pc ∧ pc ≠ .exited) := by
  cases hstep with
  | @move _ thread _ pc hthread hadvance =>
      left
      refine ⟨thread.pc, pc, ?_, ?_, .of_advance hadvance⟩
      · simp [State.pcOf, hthread]
      · rw [State.pcOf_setPc hthread, if_pos rfl]
  | @writePort _ thread len hthread hpc =>
      left
      refine ⟨.portWrite len, .sendto len, ?_, ?_, .writePort len⟩
      · simp [State.pcOf, hthread, hpc]
      · exact (State.pcOf_setPc hthread tid).trans (if_pos rfl)
  | @sent _ thread len hthread hpc =>
      left
      refine ⟨.sendto len, .sendReturn, ?_, ?_, .sent len⟩
      · simp [State.pcOf, hthread, hpc]
      · exact (State.pcOf_setPc hthread tid).trans (if_pos rfl)
  | @sendFailed _ thread len hthread hpc =>
      right
      refine ⟨Or.inl rfl, rfl, rfl, .sendto len, ?_, by simp⟩
      simp [State.pcOf, hthread, hpc]
  | @checked _ thread hthread hpc =>
      left
      refine ⟨.timeoutCheck, _, ?_, ?_, .checked⟩
      · simp [State.pcOf, hthread, hpc]
      · exact (State.pcOf_setPc hthread tid).trans (if_pos rfl)
  | @omxError _ thread hthread hcall =>
      right
      refine ⟨Or.inr rfl, rfl, rfl, thread.pc, by simp [State.pcOf, hthread], ?_⟩
      intro hexited
      simp [hexited, StreamPc.inOmxCall] at hcall

theorem Step.pcOf_of_other
    {s next : State} {label : Label} (hstep : Step s label next) {tid : ℕ}
    (hother : ∀ action, label ≠ .stream tid action) :
    next.pcOf tid = s.pcOf tid ∨
      (s.pcOf tid = none ∧ next.pcOf tid = some .created) := by
  rcases hstep.pcOf_cases tid with
    ⟨hsame, _⟩ | ⟨_, hcreated⟩ | ⟨_, action, _, hlabel, _⟩
  · exact Or.inl hsame
  · exact Or.inr hcreated
  · exact absurd hlabel (hother action)

/-! ## What a step does to the shared statics -/

theorem Step.exitCode_of_pcOf_ne
    {s next : State} {label : Label} (hstep : Step s label next) {tid : ℕ}
    (hmoved : next.pcOf tid ≠ s.pcOf tid) : next.exitCode = s.exitCode := by
  cases hstep with
  | setupFailed => exact absurd rfl hmoved
  | ret => exact absurd rfl hmoved
  | sendFailed => exact absurd rfl hmoved
  | omxError => exact absurd rfl hmoved
  | _ => rfl

theorem Step.quitFlag
    {s next : State} {label : Label} (hstep : Step s label next) :
    next.quitFlag = (s.quitFlag || decide (label = .main .setQuit)) := by
  cases hstep <;> simp [State.setPc]

theorem Step.endMs
    {s next : State} {label : Label} (hstep : Step s label next)
    (hlabel : label ≠ .main .setTimeout) :
    next.timer.endMs = s.timer.endMs := by
  cases hstep with
  | requested => contradiction
  | refreshed => contradiction
  | _ => rfl

theorem Step.timer_of_setTimeout
    {s next : State} (hstep : Step s (.main .setTimeout) next) :
    next.timer = setTimeout s.clock s.timer ∧ next.clock = s.clock := by
  cases hstep <;> exact ⟨rfl, rfl⟩

theorem Step.clock_le
    {s next : State} {label : Label} (hstep : Step s label next) :
    s.clock.ms ≤ next.clock.ms := by
  cases hstep with
  | tick hclock => exact hclock
  | _ => exact le_refl _

/-! ## The steps of main for one datagram -/

def receiveAndDispatch (datagram : Datagram) : List Label :=
  [.main (.receive (some datagram)), .main .dispatch]

def serveVideoRequest (client : Address) : List Label :=
  receiveAndDispatch ⟨client, Command.text .videoRequest⟩ ++
    [.main .setTimeout, .main (.create .created)]

def serveQuitServer (client : Address) : List Label :=
  receiveAndDispatch ⟨client, Command.text .quitServer⟩ ++ [.main .setQuit]

def streamRound (tid len : ℕ) : List Label :=
  [.stream tid .isQuit, .stream tid .fillStart, .stream tid (.fillEnd len),
    .stream tid .sendStart, .stream tid .writePort, .stream tid (.sendto true),
    .stream tid .sendEnd, .stream tid .timeoutStart, .stream tid .isTimeout]

def initSession (tid : ℕ) : List Label :=
  [.stream tid .initStart, .stream tid .initEnd]

def endSession (tid : ℕ) : List Label :=
  [.stream tid .deinitStart, .stream tid .deinitEnd, .stream tid .pthreadExit]

/-- A session of one frame that the clock ends at second `sec`. -/
def wholeSession (tid len sec : ℕ) : List Label :=
  initSession tid ++ [.tick (.second sec)] ++ streamRound tid len ++
    endSession tid

end RpiUdpStream
