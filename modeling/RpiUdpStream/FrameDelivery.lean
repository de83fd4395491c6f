import RpiUdpStream.OneSlotBuffer
import RpiUdpStream.ServerSteps

/-!
# Every frame is sent once and in order

A stream thread takes one frame from the encoder, sends it, and takes the next.
Seen from outside, `encoder_output_buffer` is a buffer with one slot, whatever
`main` and the other threads do in between.
-/

namespace RpiUdpStream

open LabelledRun

/-- The frame that a thread has taken from the encoder and not sent. -/
def StreamPc.frameInHand : StreamPc → Option ℕ
  | .sendCall len | .portWrite len | .sendto len => some len
  | _ => none

def State.frameInHand (s : State) (tid : ℕ) : Option ℕ :=
  (s.pcOf tid).bind StreamPc.frameInHand

/-- A thread's return from `fill_frame_buffer` puts a frame of `nFilledLen`
bytes, and its `sendto` takes the frame that it is called with. -/
def State.frameEvent (tid : ℕ) (s : State) (label : Label) (_next : State) :
    Option (OneSlot.Event ℕ) :=
  match label with
  | .stream mover (.fillEnd nFilledLen) =>
      if mover = tid then some (.put nFilledLen) else none
  | .stream mover (.sendto true) =>
      if mover = tid then (s.frameInHand tid).map .take else none
  | _ => none

/-- The lengths that the encoder reported to a thread, in order. -/
def framesFilled (tid : ℕ) (labels : List Label) : List ℕ :=
  labels.filterMap fun label =>
    match label with
    | .stream mover (.fillEnd nFilledLen) =>
        if mover = tid then some nFilledLen else none
    | _ => none

def frameEvents (nBufferSize tid : ℕ) (labels : List Label) :
    List (OneSlot.Event ℕ) :=
  observe State.step (State.frameEvent tid) (State.initial nBufferSize) labels

/-- The lengths that a thread sent, in order. -/
def framesSent (nBufferSize tid : ℕ) (labels : List Label) : List ℕ :=
  OneSlot.takes (frameEvents nBufferSize tid labels)

theorem State.frameEvent_of_ne
    {s next : State} {label : Label} {tid : ℕ}
    (hother : ∀ action, label ≠ .stream tid action) :
    s.frameEvent tid label next = none := by
  unfold State.frameEvent
  split
  · rw [if_neg]
    rintro rfl
    exact hother _ rfl
  · rw [if_neg]
    rintro rfl
    exact hother _ rfl
  · rfl

theorem State.frameInHand_of_pcOf
    {s : State} {tid : ℕ} {pc : StreamPc} (hpc : s.pcOf tid = some pc) :
    s.frameInHand tid = pc.frameInHand := by
  rw [State.frameInHand, hpc, Option.bind_some]

theorem PcMove.frameEvent
    {s next : State} {tid : ℕ} {pc pc' : StreamPc} {action : StreamAction}
    (hmove : PcMove s pc action pc') (hpc : s.pcOf tid = some pc) :
    runFrom OneSlot.step pc.frameInHand
        (s.frameEvent tid (.stream tid action) next).toList =
      some pc'.frameInHand := by
  cases hmove with
  | isQuit => cases s.quitFlag <;> rfl
  | fillEnd hlen => simp [State.frameEvent, StreamPc.frameInHand, OneSlot.step]
  | sent len =>
      simp [State.frameEvent, State.frameInHand_of_pcOf hpc, StreamPc.frameInHand,
        OneSlot.step]
  | checked => cases (isTimeout s.clock s.timer).2 <;> rfl
  | _ => rfl

theorem Step.frameEvent
    {s next : State} {label : Label} (hstep : Step s label next) (tid : ℕ) :
    runFrom OneSlot.step (s.frameInHand tid) (s.frameEvent tid label next).toList =
      some (next.frameInHand tid) := by
  by_cases hmine : ∃ action, label = .stream tid action
  · rcases hmine with ⟨action, rfl⟩
    rcases hstep.stream_cases with
      ⟨pc, pc', hpc, hpc', hmove⟩ | ⟨hfails, _, hthreads, _⟩
    · rw [State.frameInHand_of_pcOf hpc, State.frameInHand_of_pcOf hpc']
      exact hmove.frameEvent hpc
    · have hsame : next.frameInHand tid = s.frameInHand tid := by
        unfold State.frameInHand State.pcOf
        rw [hthreads]
      rw [hsame]
      rcases hfails with rfl | rfl <;> rfl
  · push Not at hmine
    rw [State.frameEvent_of_ne hmine]
    rcases hstep.pcOf_of_other hmine with hsame | ⟨hnone, hcreated⟩
    · unfold State.frameInHand
      rw [hsame]
      rfl
    · rw [State.frameInHand_of_pcOf hcreated, State.frameInHand, hnone]
      rfl

theorem puts_frameEvent (s next : State) (label : Label) (tid : ℕ) :
    OneSlot.puts (s.frameEvent tid label next).toList =
      framesFilled tid [label] := by
  cases label with
  | tick now => rfl
  | main action => rfl
  | stream mover action =>
      cases action with
      | fillEnd nFilledLen =>
          by_cases hmover : mover = tid <;>
            simp [State.frameEvent, OneSlot.puts, framesFilled, hmover]
      | sendto ok =>
          cases ok with
          | false => rfl
          | true =>
              simp only [State.frameEvent]
              split
              · cases s.frameInHand tid <;> rfl
              · rfl
      | _ => rfl

theorem puts_observe
    {tid : ℕ} {labels : List Label} {start s : State}
    (hrun : start.run labels = some s) :
    OneSlot.puts (observe State.step (State.frameEvent tid) start labels) =
      framesFilled tid labels := by
  apply runFrom_traceInvariant
    (fun trace _ =>
      OneSlot.puts (observe State.step (State.frameEvent tid) start trace) =
        framesFilled tid trace) rfl ?_ hrun
  intro trace state label next htrace hinv hnext
  calc
    OneSlot.puts (observe State.step (State.frameEvent tid) start
          (trace ++ [label]))
        = OneSlot.puts (observe State.step (State.frameEvent tid) start trace) ++
            OneSlot.puts (state.frameEvent tid label next).toList := by
      rw [observe_concat htrace hnext, OneSlot.puts_append]
    _ = framesFilled tid trace ++ framesFilled tid [label] := by
      rw [hinv, puts_frameEvent]
    _ = framesFilled tid (trace ++ [label]) := (List.filterMap_append ..).symm

/-- Every thread sends the frames that it takes from the encoder, in order and
once each; at most the frame in its hand is still to be sent. -/
theorem frames_sent_once_in_order
    {nBufferSize : ℕ} {labels : List Label} {s : State}
    (hrun : (State.initial nBufferSize).run labels = some s) (tid : ℕ) :
    framesFilled tid labels =
      framesSent nBufferSize tid labels ++ (s.frameInHand tid).toList := by
  have hslot : ∃ slot,
      runFrom OneSlot.step none (frameEvents nBufferSize tid labels) = some slot ∧
        s.frameInHand tid = slot := by
    apply runFrom_simulation (fun state slot => state.frameInHand tid = slot)
      ?_ ?_ (fun _ _ => rfl : ∀ label ∈ labels, (fun _ => true) label = true) hrun
    · rfl
    · rintro state label next slot rfl _ hstep
      exact ⟨_, (Step.of_step hstep).2.frameEvent tid, rfl⟩
  rcases hslot with ⟨slot, hevents, hslot⟩
  have hconserved := OneSlot.puts_eq_takes_append hevents
  rw [← hslot, frameEvents, puts_observe hrun] at hconserved
  exact hconserved

def oneFrameRun : List Label :=
  [.main (.setup true)] ++ serveVideoRequest ⟨1, 40000⟩ ++ wholeSession 0 1000 3

theorem oneFrameRun_sent :
    ∃ s, (State.initial 65536).run oneFrameRun = some s ∧
      framesFilled 0 oneFrameRun =
        framesSent 65536 0 oneFrameRun ++ (s.frameInHand 0).toList := by
  refine ⟨((State.initial 65536).run oneFrameRun).get (by decide +kernel),
    (Option.some_get _).symm, ?_⟩
  exact frames_sent_once_in_order (Option.some_get _).symm 0

end RpiUdpStream
