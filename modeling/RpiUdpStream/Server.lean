import RpiUdpStream.AppTimeout
import RpiUdpStream.LabelledRun
import RpiUdpStream.UdpSetup

/-!
# The main loop and its stream threads

One state holds the program counter of `main`, one record for every stream
thread that `pthread_create` has made, and the statics that they share.  A
label names the party that moves and what its environment answers: the
datagram that arrives, the outcome of `pthread_create`, `sendto` or an OpenMAX
call, the number of bytes in a frame, the new time of the clock.  Every call of
`omx_h264_init`, `fill_frame_buffer`, `udp_send_stream`, `is_timeout` and
`omx_h264_deinit` has a start and an end of its own, and inside
`udp_send_stream` the write of the port and `sendto` are two steps.
-/

namespace RpiUdpStream

open LabelledRun

inductive StreamPc where
  | created
  | initializing
  | quitTest
  | fillCall
  | filling
  | sendCall (len : ℕ)
  | portWrite (len : ℕ)
  | sendto (len : ℕ)
  | sendReturn
  | timeoutCall
  | timeoutCheck
  | deinitCall
  | deinitializing
  | exitCall
  | exited
  deriving DecidableEq, Repr

inductive StreamAction where
  | initStart
  | initEnd
  | isQuit
  | fillStart
  | fillEnd (nFilledLen : ℕ)
  | sendStart
  | writePort
  | sendto (ok : Bool)
  | sendEnd
  | timeoutStart
  | isTimeout
  | deinitStart
  | deinitEnd
  | pthreadExit
  | omxError
  deriving DecidableEq, Repr

/-- A stream thread, with the datagram whose dispatch created it and the
number of times it was joined.  The code reads neither of the two. -/
structure StreamThread where
  pc : StreamPc
  request : Datagram
  joins : ℕ
  deriving DecidableEq

inductive MainPc where
  | setup
  | receiving
  | dispatching (datagram : Datagram)
  | requestTimeout (datagram : Datagram)
  | refreshTimeout
  | creating (datagram : Datagram)
  | quitting
  | joining
  | closing
  | returning
  deriving DecidableEq

/-- The outcome of `pthread_create`.  A failed call leaves the variable for
the thread id with undefined contents. -/
inductive CreateOutcome where
  | created
  | failed (contents : Option ℕ)
  deriving DecidableEq, Repr

inductive MainAction where
  | setup (ok : Bool)
  | receive (received : Option Datagram)
  | dispatch
  | setTimeout
  | create (outcome : CreateOutcome)
  | setQuit
  | join
  | close
  | ret
  deriving DecidableEq

inductive Label where
  | tick (now : Timespec)
  | main (action : MainAction)
  | stream (tid : ℕ) (action : StreamAction)
  deriving DecidableEq

/-- `streamTid` is the variable `stream_tid` of `main`: the position of a
thread in the order of creation, or `none` while it holds no thread's id. -/
structure State where
  clock : Timespec
  timer : Timer
  quitFlag : Bool
  udp : UdpState
  socketsOpen : Bool
  nBufferSize : ℕ
  main : MainPc
  streamTid : Option ℕ
  threads : List StreamThread
  exitCode : Option ℕ
  deriving DecidableEq

def State.initial (nBufferSize : ℕ) : State where
  clock := .zero
  timer := .initial
  quitFlag := false
  udp := .initial
  socketsOpen := false
  nBufferSize := nBufferSize
  main := .setup
  streamTid := none
  threads := []
  exitCode := none

/-- The calls that drive the camera, during which an OpenMAX error ends the
process with `exit(1)`. -/
def StreamPc.inOmxCall : StreamPc → Bool
  | .initializing | .filling | .deinitializing => true
  | _ => false

/-- From the start of `omx_h264_init` to the end of `omx_h264_deinit`. -/
def StreamPc.inSession : StreamPc → Bool
  | .created | .exitCall | .exited => false
  | _ => true

def StreamPc.sessionOver : StreamPc → Bool
  | .exitCall | .exited => true
  | _ => false

/-- The steps of `stream_thread` that change its program counter only. -/
def StreamPc.advance (quitFlag : Bool) (nBufferSize : ℕ) :
    StreamPc → StreamAction → Option StreamPc
  | .created, .initStart => some .initializing
  | .initializing, .initEnd => some .quitTest
  | .quitTest, .isQuit => some (if quitFlag then .deinitCall else .fillCall)
  | .fillCall, .fillStart => some .filling
  | .filling, .fillEnd nFilledLen =>
      if nFilledLen ≤ nBufferSize then some (.sendCall nFilledLen) else none
  | .sendCall len, .sendStart => some (.portWrite len)
  | .sendReturn, .sendEnd => some .timeoutCall
  | .timeoutCall, .timeoutStart => some .timeoutCheck
  | .deinitCall, .deinitStart => some .deinitializing
  | .deinitializing, .deinitEnd => some .exitCall
  | .exitCall, .pthreadExit => some .exited
  | _, _ => none

def State.setPc (s : State) (tid : ℕ) (thread : StreamThread) (pc : StreamPc) :
    State :=
  { s with threads := s.threads.set tid { thread with pc := pc } }

def State.streamStep (s : State) (tid : ℕ) (thread : StreamThread)
    (action : StreamAction) : Option State :=
  match thread.pc, action with
  | .portWrite len, .writePort =>
      some { s.setPc tid thread (.sendto len) with udp := writeStreamPort s.udp }
  | .sendto len, .sendto true =>
      if s.socketsOpen ∧ len ≤ maxUdpPayload then
        some (s.setPc tid thread .sendReturn)
      else none
  | .sendto _, .sendto false => some { s with exitCode := some 0 }
  | .timeoutCheck, .isTimeout =>
      let (timer, expired) := isTimeout s.clock s.timer
      some { s.setPc tid thread (if expired then .deinitCall else .quitTest) with
        timer := timer }
  | pc, .omxError =>
      if pc.inOmxCall then some { s with exitCode := some 1 } else none
  | pc, action =>
      (pc.advance s.quitFlag s.nBufferSize action).map (s.setPc tid thread)

/-- `pthread_join` waits for the thread that `stream_tid` names.  On anything
else its behaviour is undefined, and here it may return at once. -/
def State.join (s : State) : Option State :=
  match s.streamTid.bind fun tid => (s.threads[tid]?).map fun t => (tid, t) with
  | some (tid, thread) =>
      if thread.joins = 0 ∧ thread.pc ≠ .exited then none
      else
        let joined := { thread with joins := thread.joins + 1 }
        some { s with main := .closing, threads := s.threads.set tid joined }
  | none => some { s with main := .closing }

def State.mainStep (s : State) (action : MainAction) : Option State :=
  match s.main, action with
  | .setup, .setup true =>
      some { s with main := .receiving, socketsOpen := true }
  | .setup, .setup false => some { s with exitCode := some 0 }
  | .receiving, .receive received =>
      let udp := (udpReceiveCommand s.udp received).1
      match received with
      | none => some { s with udp := udp }
      | some datagram => some { s with udp := udp, main := .dispatching datagram }
  | .dispatching datagram, .dispatch =>
      match dispatch s.udp with
      | .startStream => some { s with main := .requestTimeout datagram }
      | .refreshTimeout => some { s with main := .refreshTimeout }
      | .quit => some { s with main := .quitting }
      | .nothing => some { s with main := .receiving }
  | .requestTimeout datagram, .setTimeout =>
      some { s with timer := setTimeout s.clock s.timer, main := .creating datagram }
  | .refreshTimeout, .setTimeout =>
      some { s with timer := setTimeout s.clock s.timer, main := .receiving }
  | .creating datagram, .create .created =>
      some { s with
        main := .receiving
        streamTid := some s.threads.length
        threads := s.threads ++ [⟨.created, datagram, 0⟩] }
  | .creating _, .create (.failed contents) =>
      some { s with main := .receiving, streamTid := contents }
  | .quitting, .setQuit => some { s with quitFlag := true, main := .joining }
  | .joining, .join => s.join
  | .closing, .close => some { s with socketsOpen := false, main := .returning }
  | .returning, .ret => some { s with exitCode := some 0 }
  | _, _ => none

def State.step (s : State) (label : Label) : Option State :=
  if s.exitCode.isSome then none
  else
    match label with
    | .tick now => if s.clock.ms ≤ now.ms then some { s with clock := now } else none
    | .main action => s.mainStep action
    | .stream tid action =>
        match s.threads[tid]? with
        | none => none
        | some thread => s.streamStep tid thread action

abbrev State.run (s : State) (labels : List Label) : Option State :=
  runFrom State.step s labels

end RpiUdpStream
