import RpiUdpStream.ByteBuffer

/-!
# The UDP side of the server

`client_addr`, `command_len` and `command_buf` are statics of one file: the
command receiver writes them for every datagram, and the sender writes the port
of `client_addr` before each frame.  A datagram longer than the buffer is cut
by `recvfrom`; a shorter one leaves the tail of the buffer as it was.
-/

namespace RpiUdpStream

open ByteBuffer

def commandBufsize : ℕ := 20
def clientStreamPort : UInt16 := 50001

def maxUdpPayload : ℕ := 65507

structure Address where
  ip : UInt32
  port : UInt16
  deriving DecidableEq, Repr

structure Datagram where
  sender : Address
  data : List UInt8
  deriving DecidableEq, Repr

structure CommandBuf where
  bytes : List UInt8
  length_eq : bytes.length = commandBufsize
  deriving DecidableEq

def CommandBuf.zero : CommandBuf where
  bytes := List.replicate commandBufsize 0
  length_eq := List.length_replicate

def CommandBuf.store (buf : CommandBuf) (data : List UInt8) : CommandBuf where
  bytes := overlay (data.take commandBufsize) buf.bytes
  length_eq := by
    rw [overlay_length (by simp [buf.length_eq]), buf.length_eq]

structure UdpState where
  clientAddr : Address
  commandLen : ℤ
  commandBuf : CommandBuf
  deriving DecidableEq

def UdpState.initial : UdpState where
  clientAddr := ⟨0, 0⟩
  commandLen := 0
  commandBuf := .zero

/-- One call of `recvfrom` and the test of its result; `none` is a failed
receive, which returns `-1` and stores neither bytes nor an address. -/
def udpReceiveCommand (udp : UdpState) : Option Datagram → UdpState × Bool
  | none => ({ udp with commandLen := -1 }, false)
  | some datagram =>
      ({ clientAddr := datagram.sender
         commandLen := (datagram.data.take commandBufsize).length
         commandBuf := udp.commandBuf.store datagram.data }, true)

def udpCheckCommand (udp : UdpState) (cmd : List UInt8) : Bool :=
  strncmp cmd udp.commandBuf.bytes cmd.length == 0

/-- The assignment to `client_addr.sin_port` in `udp_send_stream`; the call of
`sendto` that follows it reads the whole of `client_addr`. -/
def writeStreamPort (udp : UdpState) : UdpState :=
  { udp with clientAddr := { udp.clientAddr with port := clientStreamPort } }

inductive Command where
  | videoRequest
  | setTimeout
  | quitServer
  deriving DecidableEq, Repr

def Command.name : Command → String
  | .videoRequest => "VIDEO_REQUEST"
  | .setTimeout => "SET_TIMEOUT"
  | .quitServer => "QUIT_SERVER"

def Command.text (command : Command) : List UInt8 :=
  command.name.toList.map fun char => char.toNat.toUInt8

inductive Dispatch where
  | startStream
  | refreshTimeout
  | quit
  | nothing
  deriving DecidableEq, Repr

def dispatch (udp : UdpState) : Dispatch :=
  if udpCheckCommand udp (Command.text .videoRequest) then .startStream
  else if udpCheckCommand udp (Command.text .setTimeout) then .refreshTimeout
  else if udpCheckCommand udp (Command.text .quitServer) then .quit
  else .nothing

theorem Command.text_ne_zero (command : Command) :
    ∀ byte ∈ command.text, byte ≠ 0 := by
  cases command <;> decide +kernel

theorem Command.text_length_le (command : Command) :
    command.text.length ≤ commandBufsize := by
  cases command <;> decide

theorem udpCheckCommand_iff (udp : UdpState) (command : Command) :
    udpCheckCommand udp command.text = true ↔
      command.text <+: udp.commandBuf.bytes := by
  unfold udpCheckCommand
  rw [beq_iff_eq]
  exact strncmp_length_eq_zero_iff command.text_ne_zero

@[simp] theorem udpReceiveCommand_none (udp : UdpState) :
    udpReceiveCommand udp none = ({ udp with commandLen := -1 }, false) := rfl

theorem udpReceiveCommand_some_commandBuf
    (udp : UdpState) (datagram : Datagram) :
    (udpReceiveCommand udp (some datagram)).1.commandBuf =
      udp.commandBuf.store datagram.data := rfl

@[simp] theorem udpReceiveCommand_some_clientAddr
    (udp : UdpState) (datagram : Datagram) :
    (udpReceiveCommand udp (some datagram)).1.clientAddr =
      datagram.sender := rfl

@[simp] theorem writeStreamPort_commandBuf (udp : UdpState) :
    (writeStreamPort udp).commandBuf = udp.commandBuf := rfl

end RpiUdpStream
