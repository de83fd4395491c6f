import Mathlib.Data.List.GetD
import RpiUdpStream.ServerSteps

/-!
# Which datagram a command is recognized from

The receive buffer is static, and `recvfrom` overwrites it only up to the
length of each datagram.  Byte `i` of the buffer is therefore byte `i` of the
latest datagram that was longer than `i`, and a short datagram can be completed
to a command by bytes of an earlier one.
-/

namespace RpiUdpStream

open ByteBuffer LabelledRun

def receiveAll (history : List (Option Datagram)) : UdpState :=
  history.foldl (fun udp received => (udpReceiveCommand udp received).1) .initial

/-- The byte that a history leaves at a position: the one of the latest
datagram that reaches this position. -/
def lastByte (history : List (Option Datagram)) (position : ℕ) : UInt8 :=
  history.foldl
    (fun byte received =>
      match received with
      | none => byte
      | some datagram => datagram.data.getD position byte) 0

/-- A datagram is a proper prefix of a command, and the bytes that the history
left behind it complete the command. -/
def StaleCompletes (history : List (Option Datagram)) (data : List UInt8)
    (command : Command) : Prop :=
  data.length < command.text.length ∧ data <+: command.text ∧
    ∀ position, position < command.text.length → data.length ≤ position →
      command.text[position]? = some (lastByte history position)

def StaleFree (history : List (Option Datagram)) (data : List UInt8) : Prop :=
  ∀ command, ¬ StaleCompletes history data command

/-- What the last datagram alone says: the command that its stored bytes begin
with. -/
def intendedDispatch (data : List UInt8) : Dispatch :=
  let stored := data.take commandBufsize
  if (Command.text .videoRequest).isPrefixOf stored then .startStream
  else if (Command.text .setTimeout).isPrefixOf stored then .refreshTimeout
  else if (Command.text .quitServer).isPrefixOf stored then .quit
  else .nothing

theorem receiveAll_concat
    (history : List (Option Datagram)) (received : Option Datagram) :
    receiveAll (history ++ [received]) =
      (udpReceiveCommand (receiveAll history) received).1 := by
  simp [receiveAll]

theorem lastByte_concat_some
    (history : List (Option Datagram)) (datagram : Datagram) (position : ℕ) :
    lastByte (history ++ [some datagram]) position =
      datagram.data.getD position (lastByte history position) := by
  simp [lastByte]

theorem lastByte_concat_none
    (history : List (Option Datagram)) (position : ℕ) :
    lastByte (history ++ [none]) position = lastByte history position := by
  simp [lastByte]

theorem receiveAll_getElem?
    (history : List (Option Datagram)) {position : ℕ}
    (hposition : position < commandBufsize) :
    (receiveAll history).commandBuf.bytes[position]? =
      some (lastByte history position) := by
  induction history using List.reverseRecOn with
  | nil =>
      simp [receiveAll, lastByte, UdpState.initial, CommandBuf.zero, hposition]
  | append_singleton before received ih =>
      rw [receiveAll_concat]
      cases received with
      | none =>
          rw [lastByte_concat_none]
          exact ih
      | some datagram =>
          rw [udpReceiveCommand_some_commandBuf, lastByte_concat_some]
          simp only [CommandBuf.store]
          rw [overlay_getElem?]
          split
          next hstored =>
            have hlt : position < datagram.data.length := by
              simp at hstored
              omega
            rw [List.getElem?_take_of_lt hposition, List.getElem?_eq_getElem hlt,
              List.getD_eq_getElem _ _ hlt]
          next hkept =>
            have hge : datagram.data.length ≤ position := by
              simp at hkept
              omega
            rw [ih, List.getD_eq_default _ _ hge]

/-- After a datagram, a command is recognized if its stored bytes begin with
the command, or if older bytes complete them to it. -/
theorem udpCheckCommand_receive_iff
    (history : List (Option Datagram)) (datagram : Datagram)
    (command : Command) :
    udpCheckCommand (receiveAll (history ++ [some datagram])) command.text =
        true ↔
      command.text <+: datagram.data.take commandBufsize ∨
        StaleCompletes history datagram.data command := by
  rw [udpCheckCommand_iff, receiveAll_concat,
    udpReceiveCommand_some_commandBuf]
  simp only [CommandBuf.store]
  rw [prefix_overlay_iff]
  apply or_congr Iff.rfl
  have htext := command.text_length_le
  have hbytes : ∀ position, position < command.text.length →
      (receiveAll history).commandBuf.bytes[position]? =
        some (lastByte history position) := fun position hposition =>
    receiveAll_getElem? history (hposition.trans_le htext)
  unfold StaleCompletes
  constructor
  · rintro ⟨hshort, hstarts, hold⟩
    have hlength : datagram.data.length < command.text.length := by
      simp at hshort
      omega
    have hwhole : datagram.data.take commandBufsize = datagram.data :=
      List.take_of_length_le (by omega)
    rw [hwhole] at hstarts hold
    refine ⟨hlength, hstarts, ?_⟩
    intro position hposition hle
    rw [← hold position hposition hle, hbytes position hposition]
  · rintro ⟨hlength, hstarts, hold⟩
    have hwhole : datagram.data.take commandBufsize = datagram.data :=
      List.take_of_length_le (by omega)
    rw [hwhole]
    refine ⟨hlength, hstarts, ?_⟩
    intro position hposition hle
    rw [hold position hposition hle, hbytes position hposition]

theorem StaleCompletes.not_prefix
    {history : List (Option Datagram)} {data : List UInt8} {command : Command}
    (hstale : StaleCompletes history data command) :
    ¬ command.text <+: data.take commandBufsize := by
  intro hstarts
  have hle := hstarts.length_le
  have hshort := hstale.1
  simp at hle
  omega

theorem recognized_iff_staleFree
    (history : List (Option Datagram)) (datagram : Datagram) :
    (∀ command : Command,
      udpCheckCommand (receiveAll (history ++ [some datagram])) command.text =
          true ↔
        command.text <+: datagram.data.take commandBufsize) ↔
      StaleFree history datagram.data := by
  constructor
  · intro hlaw command hstale
    have hcheck := (udpCheckCommand_receive_iff history datagram command).mpr
      (Or.inr hstale)
    exact hstale.not_prefix ((hlaw command).mp hcheck)
  · intro hfree command
    rw [udpCheckCommand_receive_iff]
    exact or_iff_left (hfree command)

theorem dispatch_eq_intendedDispatch
    {udp : UdpState} {data : List UInt8}
    (hlaw : ∀ command : Command, udpCheckCommand udp command.text = true ↔
      command.text <+: data.take commandBufsize) :
    dispatch udp = intendedDispatch data := by
  have hcheck : ∀ command : Command, udpCheckCommand udp command.text =
      command.text.isPrefixOf (data.take commandBufsize) := fun command => by
    rw [Bool.eq_iff_iff, hlaw command, List.isPrefixOf_iff_prefix]
  simp only [dispatch, intendedDispatch, hcheck]

/-! ## Runs of the server -/

def Label.receive? : Label → Option (Option Datagram)
  | .main (.receive received) => some received
  | _ => none

def receives (labels : List Label) : List (Option Datagram) :=
  labels.filterMap Label.receive?

theorem Step.commandBuf
    {s next : State} {label : Label} (hstep : Step s label next) :
    next.udp.commandBuf =
      match label.receive? with
      | none => s.udp.commandBuf
      | some result => (udpReceiveCommand s.udp result).1.commandBuf := by
  cases hstep <;> rfl

theorem receives_append (before after : List Label) :
    receives (before ++ after) = receives before ++ receives after :=
  List.filterMap_append ..

theorem run_commandBuf
    {nBufferSize : ℕ} {labels : List Label} {s : State}
    (hrun : (State.initial nBufferSize).run labels = some s) :
    s.udp.commandBuf = (receiveAll (receives labels)).commandBuf := by
  apply runFrom_traceInvariant
    (fun labels s =>
      s.udp.commandBuf = (receiveAll (receives labels)).commandBuf) rfl ?_ hrun
  intro trace state label next _ hinv hstep
  rw [(Step.of_step hstep).2.commandBuf]
  rw [receives_append]
  cases hreceive : label.receive? with
  | none => simpa [receives, hreceive] using hinv
  | some received =>
      have hlabel : receives [label] = [received] := by
        simp [receives, hreceive]
      rw [hlabel, receiveAll_concat]
      cases received with
      | none => exact hinv
      | some datagram =>
          change (udpReceiveCommand state.udp (some datagram)).1.commandBuf = _
          rw [udpReceiveCommand_some_commandBuf,
            udpReceiveCommand_some_commandBuf, hinv]

theorem dispatch_congr
    {left right : UdpState} (hbuf : left.commandBuf = right.commandBuf) :
    dispatch left = dispatch right := by
  have hcheck : ∀ cmd, udpCheckCommand left cmd = udpCheckCommand right cmd := by
    intro cmd
    rw [udpCheckCommand, udpCheckCommand, hbuf]
  simp only [dispatch, hcheck]

/-- The three command tests depend on the last datagram alone exactly when the
history does not complete it to a command, and then every run of the server
with this history and this last datagram dispatches what the datagram says. -/
theorem recognition_depends_on_last_datagram_iff
    (history : List (Option Datagram)) (datagram : Datagram) :
    ((∀ command : Command,
      udpCheckCommand (receiveAll (history ++ [some datagram])) command.text =
          true ↔
        command.text <+: datagram.data.take commandBufsize) ↔
      StaleFree history datagram.data) ∧
    ∀ nBufferSize labels s, receives labels = history →
      (State.initial nBufferSize).run
          (labels ++ [.main (.receive (some datagram))]) = some s →
        StaleFree history datagram.data →
          dispatch s.udp = intendedDispatch datagram.data := by
  constructor
  · exact recognized_iff_staleFree history datagram
  · intro nBufferSize labels s hhistory hrun hfree
    have hreceives : receives (labels ++ [.main (.receive (some datagram))]) =
        history ++ [some datagram] := by
      rw [receives_append, hhistory]
      rfl
    have hbuf := run_commandBuf hrun
    rw [hreceives] at hbuf
    rw [dispatch_congr hbuf]
    exact dispatch_eq_intendedDispatch
      ((recognized_iff_staleFree history datagram).mpr hfree)

/-- After a full `VIDEO_REQUEST` an empty datagram starts a stream again, and
as the first datagram it starts nothing. -/
theorem empty_datagram_recognized :
    let client : Address := ⟨1, 40000⟩
    let history := [some (Datagram.mk client (Command.text .videoRequest))]
    udpCheckCommand (receiveAll (history ++ [some ⟨client, []⟩]))
        (Command.text .videoRequest) = true ∧
      ¬ Command.text .videoRequest <+: ([] : List UInt8).take commandBufsize ∧
      dispatch (receiveAll (history ++ [some ⟨client, []⟩])) ≠
        dispatch (receiveAll [some ⟨client, []⟩]) := by
  decide +kernel

def refreshedRun : List Label :=
  [.main (.setup true)] ++ serveVideoRequest ⟨1, 40000⟩

theorem refreshedRun_dispatch :
    dispatch (((State.initial 65536).run (refreshedRun ++
        [.main (.receive (some ⟨⟨1, 40000⟩, Command.text .setTimeout⟩))])).get
          (by decide +kernel)).udp =
      intendedDispatch (Command.text .setTimeout) :=
  (recognition_depends_on_last_datagram_iff
      [some ⟨⟨1, 40000⟩, Command.text .videoRequest⟩]
      ⟨⟨1, 40000⟩, Command.text .setTimeout⟩).2
    65536 refreshedRun _ (by decide +kernel) (Option.some_get _).symm
    (by
      intro command hstale
      revert hstale
      unfold StaleCompletes
      cases command <;> decide +kernel)

end RpiUdpStream
