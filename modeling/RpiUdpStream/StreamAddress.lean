import RpiUdpStream.ServerSteps

/-!
# Where the frames of a stream thread go

`recvfrom` writes the whole of the static `client_addr` for every datagram,
whatever its content, and `udp_send_stream` overwrites its port only.  A frame
therefore goes to the IP address of the sender of the latest datagram, and to
`CLIENT_STREAM_PORT` unless a datagram arrived after the last write of the port.
-/

namespace RpiUdpStream

open LabelledRun

def Label.received? : Label → Option Datagram
  | .main (.receive received) => received
  | _ => none

def Label.isPortWrite : Label → Bool
  | .stream _ .writePort => true
  | _ => false

def lastReceived (labels : List Label) : Option Datagram :=
  labels.reverse.findSome? Label.received?

/-- The latest datagram, if it arrived after the last write of the port. -/
def receivedSincePortWrite (labels : List Label) : Option Datagram :=
  (labels.reverse.takeWhile fun label => !label.isPortWrite).findSome?
    Label.received?

theorem lastReceived_concat (labels : List Label) (label : Label) :
    lastReceived (labels ++ [label]) =
      label.received?.or (lastReceived labels) := by
  unfold lastReceived
  rw [List.reverse_concat, List.findSome?_cons]
  cases label.received? <;> rfl

theorem receivedSincePortWrite_concat (labels : List Label) (label : Label) :
    receivedSincePortWrite (labels ++ [label]) =
      if label.isPortWrite then none
      else label.received?.or (receivedSincePortWrite labels) := by
  unfold receivedSincePortWrite
  rw [List.reverse_concat, List.takeWhile_cons]
  cases hwrite : label.isPortWrite with
  | true => simp
  | false =>
      simp only [Bool.not_false, if_true, List.findSome?_cons]
      cases label.received? <;> rfl

def Datagram.streamAddress (request : Datagram) : Address :=
  ⟨request.sender.ip, clientStreamPort⟩

def FrameToRequester (s : State) (tid : ℕ) : Prop :=
  ∀ thread, s.threads[tid]? = some thread →
    s.udp.clientAddr = thread.request.streamAddress

/-- The latest datagram came from the IP address of the client of thread
`tid`, and from `CLIENT_STREAM_PORT` if it came after the last port write. -/
def RequesterHeardLast (before : List Label) (s : State) (tid : ℕ) : Prop :=
  ∀ thread, s.threads[tid]? = some thread →
    (∃ datagram, lastReceived before = some datagram ∧
      datagram.sender.ip = thread.request.sender.ip) ∧
    ∀ datagram, receivedSincePortWrite before = some datagram →
      datagram.sender.port = clientStreamPort

/-- A property of every frame that is sent in a run, in terms of the labels
before its `sendto` and the state that they lead to. -/
def AtEveryFrame (property : List Label → State → ℕ → Prop)
    (start : State) (labels : List Label) : Prop :=
  ∀ before tid after s,
    labels = before ++ .stream tid (.sendto true) :: after →
      start.run before = some s → property before s tid

structure AddressInvariant (labels : List Label) (s : State) : Prop where
  ip : ∀ datagram, lastReceived labels = some datagram →
    s.udp.clientAddr.ip = datagram.sender.ip
  port : ∀ datagram, receivedSincePortWrite labels = some datagram →
    s.udp.clientAddr.port = datagram.sender.port
  written : ∀ thread ∈ s.threads, ∀ len, thread.pc = .sendto len →
    receivedSincePortWrite labels = none →
      s.udp.clientAddr.port = clientStreamPort
  heard : s.main ≠ .setup → s.main ≠ .receiving →
    (lastReceived labels).isSome = true
  heardForThread : s.threads ≠ [] → (lastReceived labels).isSome = true

theorem PcMove.eq_writePort
    {s : State} {pc pc' : StreamPc} {action : StreamAction} {len : ℕ}
    (hmove : PcMove s pc action pc') (hpc : pc' = .sendto len) :
    action = .writePort := by
  cases hmove with
  | writePort => rfl
  | isQuit => split at hpc <;> contradiction
  | checked => split at hpc <;> contradiction
  | _ => contradiction

theorem Step.sendto_origin
    {s next : State} {label : Label} (hstep : Step s label next)
    (hwrite : label.isPortWrite = false)
    {thread : StreamThread} (hmem : thread ∈ next.threads)
    {len : ℕ} (hpc : thread.pc = .sendto len) :
    ∃ before ∈ s.threads, before.pc = .sendto len := by
  rcases List.getElem?_of_mem hmem with ⟨tid, hthread⟩
  rcases hstep.thread_origin hthread with
    ⟨before, hbefore, _, _, horigin⟩ | ⟨_, _, _, hnew⟩
  · refine ⟨before, List.mem_of_getElem? hbefore, ?_⟩
    rcases horigin with hsame | ⟨action, hlabel, hmove⟩
    · rw [← hsame, hpc]
    · have haction := hmove.eq_writePort hpc
      subst haction
      simp [hlabel, Label.isPortWrite] at hwrite
  · rw [hnew] at hpc
    contradiction

theorem Step.clientAddr_of_quiet
    {s next : State} {label : Label} (hstep : Step s label next)
    (hreceived : label.received? = none) (hwrite : label.isPortWrite = false) :
    next.udp.clientAddr = s.udp.clientAddr := by
  cases hstep with
  | received => simp [Label.received?] at hreceived
  | writePort => simp [Label.isPortWrite] at hwrite
  | _ => rfl

theorem Step.dispatching_of_quiet
    {s next : State} {label : Label} (hstep : Step s label next)
    (hreceived : label.received? = none)
    (hsetup : next.main ≠ .setup) (hreceiving : next.main ≠ .receiving) :
    s.main ≠ .setup ∧ s.main ≠ .receiving := by
  cases label with
  | tick now =>
      cases hstep
      exact ⟨hsetup, hreceiving⟩
  | stream tid action =>
      have hmain := hstep.main_of_stream.1
      rw [hmain] at hsetup hreceiving
      exact ⟨hsetup, hreceiving⟩
  | main action =>
      cases hstep <;> simp_all [Label.received?]

theorem Step.dispatching_of_new_thread
    {s next : State} {label : Label} (hstep : Step s label next)
    (hthreads : next.threads ≠ []) :
    s.threads ≠ [] ∨ s.main ≠ .setup ∧ s.main ≠ .receiving := by
  by_cases hcreate : label = .main (.create .created)
  · subst hcreate
    cases hstep with
    | created hmain => exact Or.inr (by simp [hmain])
  · left
    have hlength := hstep.length_threads
    rw [if_neg hcreate] at hlength
    rw [← List.length_pos_iff] at hthreads ⊢
    omega

theorem AddressInvariant.quiet
    {labels : List Label} {s next : State} {label : Label}
    (hinv : AddressInvariant labels s) (hstep : Step s label next)
    (hreceived : label.received? = none) (hwrite : label.isPortWrite = false) :
    AddressInvariant (labels ++ [label]) next := by
  have haddr := hstep.clientAddr_of_quiet hreceived hwrite
  have hlast : lastReceived (labels ++ [label]) = lastReceived labels := by
    rw [lastReceived_concat, hreceived, Option.none_or]
  have hsince : receivedSincePortWrite (labels ++ [label]) =
      receivedSincePortWrite labels := by
    rw [receivedSincePortWrite_concat, hwrite, hreceived, Option.none_or]
    rfl
  constructor
  · rw [hlast, haddr]
    exact hinv.ip
  · rw [hsince, haddr]
    exact hinv.port
  · rw [hsince, haddr]
    intro thread hmem len hpc
    rcases hstep.sendto_origin hwrite hmem hpc with ⟨before, hbefore, hbeforePc⟩
    exact hinv.written before hbefore len hbeforePc
  · rw [hlast]
    intro hsetup hreceiving
    have hearlier := hstep.dispatching_of_quiet hreceived hsetup hreceiving
    exact hinv.heard hearlier.1 hearlier.2
  · rw [hlast]
    intro hthreads
    rcases hstep.dispatching_of_new_thread hthreads with hold | hearlier
    · exact hinv.heardForThread hold
    · exact hinv.heard hearlier.1 hearlier.2

theorem AddressInvariant.receive
    {labels : List Label} {s next : State} {datagram : Datagram}
    (hstep : Step s (.main (.receive (some datagram))) next) :
    AddressInvariant (labels ++ [.main (.receive (some datagram))]) next := by
  have hlast : lastReceived (labels ++ [.main (.receive (some datagram))]) =
      some datagram := by
    rw [lastReceived_concat]
    rfl
  have hsince : receivedSincePortWrite
      (labels ++ [.main (.receive (some datagram))]) = some datagram := by
    rw [receivedSincePortWrite_concat]
    rfl
  cases hstep with
  | received hmain => constructor <;> simp [hlast, hsince]

theorem AddressInvariant.writePort
    {labels : List Label} {s next : State} {tid : ℕ}
    (hinv : AddressInvariant labels s)
    (hstep : Step s (.stream tid .writePort) next) :
    AddressInvariant (labels ++ [.stream tid .writePort]) next := by
  have hlast : lastReceived (labels ++ [.stream tid .writePort]) =
      lastReceived labels := by
    rw [lastReceived_concat]
    rfl
  have hsince : receivedSincePortWrite
      (labels ++ [.stream tid .writePort]) = none := by
    rw [receivedSincePortWrite_concat]
    rfl
  have hwritten : next.udp.clientAddr =
      { s.udp.clientAddr with port := clientStreamPort } ∧
      next.main = s.main ∧ s.threads ≠ [] := by
    cases hstep with
    | move hthread hadvance => simp at hadvance
    | writePort hthread hpc =>
        refine ⟨rfl, rfl, ?_⟩
        intro hnil
        simp [hnil] at hthread
  rcases hwritten with ⟨haddr, hmain, hthreads⟩
  constructor
  · rw [hlast, haddr]
    exact hinv.ip
  · simp [hsince]
  · rw [haddr]
    intro _ _ _ _ _
    rfl
  · rw [hlast, hmain]
    exact hinv.heard
  · rw [hlast]
    intro _
    exact hinv.heardForThread hthreads

theorem AddressInvariant.step
    {labels : List Label} {s next : State} {label : Label}
    (hinv : AddressInvariant labels s) (hstep : Step s label next) :
    AddressInvariant (labels ++ [label]) next := by
  cases hreceived : label.received? with
  | some datagram =>
      cases label with
      | main action =>
          cases action with
          | receive received =>
              simp only [Label.received?] at hreceived
              subst hreceived
              exact .receive hstep
          | _ => simp [Label.received?] at hreceived
      | _ => simp [Label.received?] at hreceived
  | none =>
      cases hwrite : label.isPortWrite with
      | false => exact hinv.quiet hstep hreceived hwrite
      | true =>
          cases label with
          | stream tid action =>
              cases action with
              | writePort => exact hinv.writePort hstep
              | _ => simp [Label.isPortWrite] at hwrite
          | _ => simp [Label.isPortWrite] at hwrite

theorem run_addressInvariant
    {nBufferSize : ℕ} {labels : List Label} {s : State}
    (hrun : (State.initial nBufferSize).run labels = some s) :
    AddressInvariant labels s := by
  apply runFrom_traceInvariant AddressInvariant ?_ ?_ hrun
  · constructor <;> simp [State.initial, lastReceived, receivedSincePortWrite]
  · intro trace state label next _ hinv hstep
    exact hinv.step (Step.of_step hstep).2

theorem AddressInvariant.frameToRequester_iff
    {labels : List Label} {s next : State} {tid : ℕ}
    (hinv : AddressInvariant labels s)
    (hstep : Step s (.stream tid (.sendto true)) next) :
    FrameToRequester s tid ↔ RequesterHeardLast labels s tid := by
  have hsending : ∃ thread len, s.threads[tid]? = some thread ∧
      thread.pc = .sendto len := by
    cases hstep with
    | move hthread hadvance => simp at hadvance
    | sent hthread hpc => exact ⟨_, _, hthread, hpc⟩
  rcases hsending with ⟨thread, len, hthread, hpc⟩
  have hmem : thread ∈ s.threads := List.mem_of_getElem? hthread
  have hheard : (lastReceived labels).isSome = true :=
    hinv.heardForThread (List.ne_nil_of_mem hmem)
  rcases Option.isSome_iff_exists.mp hheard with ⟨datagram, hlast⟩
  have hip := hinv.ip datagram hlast
  unfold FrameToRequester RequesterHeardLast Datagram.streamAddress
  simp only [hthread, Option.some.injEq, forall_eq', hlast, exists_eq_left']
  constructor
  · intro haddr
    rw [haddr] at hip
    constructor
    · exact hip.symm
    · intro other hsince
      rw [← hinv.port other hsince, haddr]
  · rintro ⟨hsame, hports⟩
    have hport : s.udp.clientAddr.port = clientStreamPort := by
      cases hsince : receivedSincePortWrite labels with
      | none => exact hinv.written thread hmem len hpc hsince
      | some other => rw [hinv.port other hsince, hports other hsince]
    calc
      s.udp.clientAddr = ⟨s.udp.clientAddr.ip, s.udp.clientAddr.port⟩ := rfl
      _ = ⟨thread.request.sender.ip, clientStreamPort⟩ := by
        rw [hip, hsame, hport]

/-- Every frame of a run goes to the client of its thread exactly when, at
every frame, that client was heard last. -/
theorem frames_to_requester_iff_heard_last
    {nBufferSize : ℕ} {labels : List Label} {last : State}
    (hrun : (State.initial nBufferSize).run labels = some last) :
    AtEveryFrame (fun _ s tid => FrameToRequester s tid)
        (State.initial nBufferSize) labels ↔
      AtEveryFrame RequesterHeardLast (State.initial nBufferSize) labels := by
  have hpointwise : ∀ before tid after s,
      labels = before ++ .stream tid (.sendto true) :: after →
      (State.initial nBufferSize).run before = some s →
      (FrameToRequester s tid ↔ RequesterHeardLast before s tid) := by
    intro before tid after s hsplit hbefore
    rcases step_of_split hrun hsplit hbefore with ⟨next, hnext⟩
    exact (run_addressInvariant hbefore).frameToRequester_iff
      (Step.of_step hnext).2
  constructor
  · intro hframes before tid after s hsplit hbefore
    exact (hpointwise before tid after s hsplit hbefore).mp
      (hframes before tid after s hsplit hbefore)
  · intro hheard before tid after s hsplit hbefore
    exact (hpointwise before tid after s hsplit hbefore).mpr
      (hheard before tid after s hsplit hbefore)

/-- A client asks for a stream, another host sends a byte, and the thread of
the client comes to its first `sendto`. -/
def strangerRun : List Label :=
  [.main (.setup true)] ++ serveVideoRequest ⟨1, 40000⟩ ++ initSession 0 ++
    receiveAndDispatch ⟨⟨2, 41000⟩, [0]⟩ ++
    [.stream 0 .isQuit, .stream 0 .fillStart, .stream 0 (.fillEnd 1000),
      .stream 0 .sendStart, .stream 0 .writePort]

theorem strangerRun_address :
    ((State.initial 65536).run strangerRun).map
        (fun s => (s.udp.clientAddr, s.threads[0]?.map (·.request.sender))) =
      some (⟨2, clientStreamPort⟩, some ⟨1, 40000⟩) := by
  decide +kernel

theorem strangerRun_heard_iff :
    AtEveryFrame (fun _ s tid => FrameToRequester s tid) (State.initial 65536)
        (strangerRun ++ [.stream 0 (.sendto true)]) ↔
      AtEveryFrame RequesterHeardLast (State.initial 65536)
        (strangerRun ++ [.stream 0 (.sendto true)]) :=
  frames_to_requester_iff_heard_last
    (Option.some_get (by decide +kernel)).symm

theorem frame_to_stranger :
    ((State.initial 65536).run
        (strangerRun ++ [.stream 0 (.sendto true)])).isSome = true ∧
      ¬ AtEveryFrame (fun _ s tid => FrameToRequester s tid)
        (State.initial 65536) (strangerRun ++ [.stream 0 (.sendto true)]) := by
  constructor
  · decide +kernel
  · intro hframes
    rcases Option.map_eq_some_iff.mp strangerRun_address with ⟨s, hrun, haddress⟩
    rcases Prod.mk.inj haddress with ⟨hclient, hsender⟩
    rcases Option.map_eq_some_iff.mp hsender with ⟨thread, hthread, hrequest⟩
    have hframe := hframes strangerRun 0 [] s rfl hrun thread hthread
    rw [hclient, Datagram.streamAddress, hrequest] at hframe
    revert hframe
    decide

end RpiUdpStream
