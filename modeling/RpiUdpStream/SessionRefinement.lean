import RpiUdpStream.SyncSession

/-!
# The session thread refines the synchronous program

Under any interleaving with callbacks, the session with its components is in
step with the synchronous program.  The link between the two is a phase of the
handshake: nothing requested, a request issued, or a request answered, with its
effect carried out and its event pending and no other event of the handshake.
-/

namespace RpiUdpStream

namespace Omx

open LabelledRun

def handshakeFlags : Flags := 0x100F

theorem flag_and_handshakeFlags_of_completion
    {event : ComponentEvent} (hcompletion : event.isCompletion = true) :
    event.flag &&& handshakeFlags = event.flag := by
  cases event <;> first | contradiction | rfl

theorem flag_and_handshakeFlags_of_other
    {event : ComponentEvent} (hcompletion : event.isCompletion = false)
    (herror : event ≠ .error) : event.flag &&& handshakeFlags = 0 := by
  cases event <;> first | contradiction | rfl

theorem error_and_handshakeFlags :
    ComponentEvent.error.flag &&& handshakeFlags = ComponentEvent.error.flag := rfl

theorem Order.isCompletion_completion (order : Order) :
    order.completion.isCompletion = true := by
  cases order <;> rfl

theorem ne_error_of_completion
    {event : ComponentEvent} (hcompletion : event.isCompletion = true) :
    event ≠ .error := by
  rintro rfl
  contradiction

/-- A step under components that answer each request once, and report neither
errors nor completions besides. -/
def Label.honest : Label → Bool
  | .callback _ notice => notice.unsolicited
  | _ => true

/-! ## The handshake -/

inductive Handshake where
  | idle
  | issued (request : Request)
  | answered (request : Request)
  deriving DecidableEq

inductive HandshakeEvent where
  | issue (request : Request)
  | answer (request : Request)
  | waited (component : Component) (event : ComponentEvent)
  deriving DecidableEq

/-- One request at a time, answered once, and then waited for with its own
completion event on its own component. -/
def Handshake.step : Handshake → HandshakeEvent → Option Handshake
  | .idle, .issue request => some (.issued request)
  | .issued request, .answer other =>
      if other = request then some (.answered request) else none
  | .answered request, .waited component event =>
      if request.component = component ∧ request.order.completion = event then
        some .idle
      else none
  | _, _ => none

def Call.shows (next : State) : Call → Option HandshakeEvent
  | .request made => some (.issue made)
  | .wait component event =>
      if event.isCompletion = true ∧ next.exitCode = none then
        some (.waited component event)
      else none
  | _ => none

def State.shows (s : State) (label : Label) (next : State) :
    Option HandshakeEvent :=
  match label with
  | .call .failed => none
  | .call (.returned _) => s.calls.head?.bind (Call.shows next)
  | .answer index => s.outstanding[index]?.map .answer
  | .callback _ _ => none

def Handshake.request : Handshake → Option Request
  | .idle => none
  | .issued request | .answered request => some request

def Handshake.outstanding : Handshake → List Request
  | .issued request => [request]
  | _ => []

def Handshake.carryOut (setup : Setup) : Handshake → Setup
  | .answered request => request.carryOut setup
  | _ => setup

def Handshake.flags (component : Component) : Handshake → Flags
  | .answered request =>
      if request.component = component then request.order.completion.flag else 0
  | _ => 0

theorem Handshake.eq_idle {phase : Handshake} (hrequest : phase.request = none) :
    phase = .idle := by
  cases phase <;> first | rfl | contradiction

/-! ## The relation -/

structure Refines (s : State) (sync : Sync) (phase : Handshake) : Prop where
  pending : sync.pending = phase.request
  outstanding : s.outstanding = phase.outstanding
  setup : s.setup = phase.carryOut sync.setup
  flags : ∀ component,
    (s.flags.get component).map (· &&& handshakeFlags) =
      if sync.flagged.get component = true then some (phase.flags component)
      else none
  live : ∀ request, phase.request = some request →
    sync.flagged.get request.component = true ∧
      sync.setup.handle request.component = .held ∧ request.InOrder sync.setup

theorem Refines.get_flags
    {s : State} {sync : Sync} {phase : Handshake} (hrefines : Refines s sync phase)
    {component : Component} (hflagged : sync.flagged.get component = true) :
    ∃ flags, s.flags.get component = some flags ∧
      flags &&& handshakeFlags = phase.flags component := by
  have hflags := hrefines.flags component
  rw [if_pos hflagged] at hflags
  exact Option.map_eq_some_iff.mp hflags

theorem refines_initial (sessions : List Session) :
    Refines (State.initial sessions) .initial .idle := by
  constructor <;> simp [State.initial, Sync.initial, Handshake.request,
    Handshake.outstanding, Handshake.carryOut]

theorem Refines.issue
    {s : State} {sync : Sync} {phase : Handshake} {request : Request}
    (hrefines : Refines s sync phase) (hallows : sync.Allows (.request request)) :
    phase = .idle ∧
      Refines { s with outstanding := s.outstanding ++ [request] }
        (sync.perform (.request request)) (.issued request) := by
  rcases hallows with ⟨_, hpending, hflagged, hhandle, horder⟩
  have hidle : phase = .idle := Handshake.eq_idle (hrefines.pending ▸ hpending)
  subst hidle
  constructor
  · rfl
  · constructor
    · rfl
    · simp [hrefines.outstanding, Handshake.outstanding]
    · exact hrefines.setup
    · exact hrefines.flags
    · intro other hother
      cases hother
      exact ⟨hflagged, hhandle, horder⟩

theorem deliver_callback (order : Order) (flags : Flags) :
    order.callback.deliver flags = wake flags order.completion := by
  unfold Callback.deliver
  rw [order.wakes_callback]

theorem deliver_unsolicited
    {callback : Callback} (hunsolicited : callback.unsolicited = true)
    (flags : Flags) :
    callback.deliver flags &&& handshakeFlags = flags &&& handshakeFlags := by
  unfold Callback.unsolicited at hunsolicited
  unfold Callback.deliver
  cases hwakes : callback.wakes with
  | none => rfl
  | some event =>
      simp only [hwakes, Bool.and_eq_true, Bool.not_eq_true',
        decide_eq_true_eq] at hunsolicited
      exact EventFlags.set_and_of_disjoint
        (flag_and_handshakeFlags_of_other hunsolicited.1 hunsolicited.2)

theorem State.get_flags_deliver (s : State) (component other : Component)
    (callback : Callback) :
    (s.deliver component callback).flags.get other =
      if other = component then (s.flags.get component).map callback.deliver
      else s.flags.get other :=
  PerComponent.get_set _ _ _ _

theorem Refines.callback
    {s : State} {sync : Sync} {phase : Handshake} {component : Component}
    {callback : Callback} (hrefines : Refines s sync phase)
    (hunsolicited : callback.unsolicited = true) :
    Refines (s.deliver component callback) sync phase := by
  constructor
  · exact hrefines.pending
  · exact hrefines.outstanding
  · exact hrefines.setup
  · intro other
    rw [← hrefines.flags other, State.get_flags_deliver]
    by_cases heq : other = component
    · rw [if_pos heq, heq, Option.map_map]
      congr 1
      funext flags
      exact deliver_unsolicited hunsolicited flags
    · rw [if_neg heq]
  · exact hrefines.live

theorem Refines.answer
    {s : State} {sync : Sync} {phase : Handshake} {index : ℕ} {request : Request}
    (hrefines : Refines s sync phase)
    (hrequest : s.outstanding[index]? = some request) :
    phase = .issued request ∧
      Refines
        { s.deliver request.component request.order.callback with
          setup := request.carryOut s.setup
          outstanding := s.outstanding.eraseIdx index }
        sync (.answered request) := by
  rw [hrefines.outstanding] at hrequest
  cases phase with
  | idle => simp [Handshake.outstanding] at hrequest
  | answered other => simp [Handshake.outstanding] at hrequest
  | issued other =>
      have hfirst : index = 0 ∧ other = request := by
        simpa [Handshake.outstanding, List.getElem?_singleton] using hrequest
      rcases hfirst with ⟨hindex, hother⟩
      subst hindex hother
      have hflagged := (hrefines.live other rfl).1
      refine ⟨rfl, hrefines.pending, ?_, ?_, ?_, hrefines.live⟩
      · simp [hrefines.outstanding, Handshake.outstanding]
      · rw [hrefines.setup]
        rfl
      · intro component
        change ((s.deliver other.component other.order.callback).flags.get
          component).map _ = _
        rw [State.get_flags_deliver]
        by_cases heq : component = other.component
        · subst heq
          rcases hrefines.get_flags hflagged with ⟨flags, hflags, hquiet⟩
          have hnone : flags &&& handshakeFlags = 0 := hquiet
          have hset : wake flags other.order.completion &&& handshakeFlags =
              other.order.completion.flag := by
            unfold wake
            rw [EventFlags.set_and_of_subset (flag_and_handshakeFlags_of_completion
              other.order.isCompletion_completion), hnone]
            simp
          rw [if_pos rfl, hflags, if_pos hflagged]
          simp [deliver_callback, hset, Handshake.flags]
        · rw [if_neg heq]
          have hsame := hrefines.flags component
          simpa [Handshake.flags, Ne.symm heq] using hsame

/-! ## The waits -/

theorem perform_wait_eq_some
    {s next : State} {extra : Flags} {component : Component}
    {event : ComponentEvent}
    (hperform : s.perform extra (.wait component event) = some next) :
    ∃ flags result rest, s.flags.get component = some flags ∧
      wait flags event.flag (.returned extra) = some (result, rest) ∧
      next = { s with
        flags := s.flags.set component (some rest)
        exitCode := result.exitCode } := by
  simp only [State.perform, Option.bind_eq_some_iff,
    Option.map_eq_some_iff] at hperform
  rcases hperform with ⟨flags, hflags, ⟨result, rest⟩, hwait, hnext⟩
  exact ⟨flags, result, rest, hflags, hwait, hnext.symm⟩

theorem Refines.waitOther
    {s next : State} {sync : Sync} {phase : Handshake} {extra : Flags}
    {component : Component} {event : ComponentEvent}
    (hrefines : Refines s sync phase) (hpending : sync.pending = none)
    (hperform : s.perform extra (.wait component event) = some next) :
    phase = .idle ∧ Refines next sync .idle := by
  have hidle : phase = .idle := Handshake.eq_idle (hrefines.pending ▸ hpending)
  subst hidle
  obtain ⟨flags, result, rest, hflags, hwait, hnext⟩ :=
    perform_wait_eq_some hperform
  rcases wait_returned_eq_some_iff.mp hwait with ⟨_, hresult⟩
  have hrest := (Prod.mk.inj hresult).2
  subst next
  refine ⟨rfl, hrefines.pending, hrefines.outstanding, hrefines.setup, ?_,
    hrefines.live⟩
  intro other
  by_cases heq : other = component
  · subst heq
    have hquiet := hrefines.flags other
    rw [hflags] at hquiet
    have hzero : flags &&& handshakeFlags = 0 := by
      split at hquiet
      · exact Option.some.inj hquiet
      · contradiction
    rw [PerComponent.get_set_self, ← hquiet, hrest]
    simp only [Option.map_some, EventFlags.consume_and_right, hzero]
    simp
  · rw [PerComponent.get_set, if_neg heq]
    exact hrefines.flags other

theorem afterGet_returns
    {flags : Flags} {event : ComponentEvent} (hne : event ≠ .error)
    (hpending : flags &&& event.flag = event.flag) (extra : Flags) :
    (afterGet (flags &&& (event.flag ||| ComponentEvent.error.flag) |||
      extra)).exitCode = none := by
  have hreported : (flags &&& (event.flag ||| ComponentEvent.error.flag) |||
      extra) &&& event.flag = event.flag :=
    EventFlags.report_and_of_pending hpending EventFlags.and_or_left_self
  unfold afterGet
  split
  · rename_i herror
    rw [herror, ComponentEvent.flag_and_flag (Ne.symm hne)] at hreported
    exact absurd hreported.symm event.flag_ne_zero
  · rfl

theorem Refines.completion_pending
    {s : State} {sync : Sync} {request : Request}
    (hrefines : Refines s sync (.answered request)) :
    ∃ flags, s.flags.get request.component = some flags ∧
      flags &&& handshakeFlags = request.order.completion.flag ∧
      flags &&& request.order.completion.flag =
        request.order.completion.flag := by
  obtain ⟨flags, hflags, hphase⟩ :=
    hrefines.get_flags (hrefines.live request rfl).1
  have hset : flags &&& handshakeFlags = request.order.completion.flag := by
    simpa [Handshake.flags] using hphase
  refine ⟨flags, hflags, hset, ?_⟩
  rw [EventFlags.and_of_subset (flag_and_handshakeFlags_of_completion
    request.order.isCompletion_completion), hset]
  simp

theorem Refines.waitCompletion
    {s next : State} {sync : Sync} {phase : Handshake} {extra : Flags}
    {request : Request} (hrefines : Refines s sync phase)
    (hpending : sync.pending = some request)
    (hperform : s.perform extra
      (.wait request.component request.order.completion) = some next) :
    phase = .answered request ∧ next.exitCode = none ∧
      Refines next
        { sync with setup := request.carryOut sync.setup, pending := none }
        .idle := by
  have hrequest : phase.request = some request := hrefines.pending ▸ hpending
  have hflagged := (hrefines.live request hrequest).1
  obtain ⟨flags, result, rest, hflags, hwait, hnext⟩ :=
    perform_wait_eq_some hperform
  rcases wait_returned_eq_some_iff.mp hwait with ⟨hany, hresult⟩
  have hcompletion := request.order.isCompletion_completion
  have hawaited : request.order.completion.flag ||| ComponentEvent.error.flag =
      (request.order.completion.flag ||| ComponentEvent.error.flag) &&&
        handshakeFlags :=
    (EventFlags.or_and_of_subset
      (flag_and_handshakeFlags_of_completion hcompletion)
      error_and_handshakeFlags).symm
  cases phase with
  | idle => contradiction
  | issued other =>
      rcases hrefines.get_flags hflagged with ⟨found, hfound, hphase⟩
      rw [hflags] at hfound
      cases hfound
      have hnone : flags &&& handshakeFlags = 0 := hphase
      rw [EventFlags.and_of_subset hawaited.symm, hnone] at hany
      simp at hany
  | answered other =>
      cases hrequest
      rcases hrefines.completion_pending with ⟨found, hsame, hset, hfound⟩
      rw [hflags] at hsame
      cases hsame
      rcases Prod.mk.inj hresult with ⟨hcode, hrest⟩
      have hreturns : result.exitCode = none := by
        rw [hcode]
        exact afterGet_returns (ne_error_of_completion hcompletion) hfound extra
      subst next
      refine ⟨rfl, hreturns, rfl, hrefines.outstanding,
        hrefines.setup, ?_, by simp [Handshake.request]⟩
      intro component
      by_cases heq : component = request.component
      · subst heq
        rw [PerComponent.get_set_self, if_pos hflagged, hrest]
        simp only [Option.map_some, EventFlags.consume_and_right, hset,
          EventFlags.and_not_or_left]
        rfl
      · rw [PerComponent.get_set, if_neg heq, hrefines.flags component]
        simp [Handshake.flags, Ne.symm heq]

/-! ## The other calls -/

theorem Refines.setFlags
    {s : State} {sync : Sync} (hrefines : Refines s sync .idle)
    (component : Component) {value : Option Flags} {flagged : Bool}
    (hvalue : value.map (· &&& handshakeFlags) =
      if flagged = true then some 0 else none) :
    Refines { s with flags := s.flags.set component value }
      { sync with flagged := sync.flagged.set component flagged } .idle := by
  constructor
  · exact hrefines.pending
  · exact hrefines.outstanding
  · exact hrefines.setup
  · intro other
    by_cases heq : other = component
    · subst heq
      rw [PerComponent.get_set_self, PerComponent.get_set_self]
      exact hvalue
    · rw [PerComponent.get_set, PerComponent.get_set, if_neg heq, if_neg heq]
      exact hrefines.flags other
  · simp [Handshake.request]

theorem Refines.instant
    {s : State} {sync : Sync} {phase : Handshake} {call : Call}
    (hrefines : Refines s sync phase)
    (hcommute : call.perform (phase.carryOut sync.setup) =
      phase.carryOut (call.perform sync.setup))
    (hcomponent : ∀ request, phase.request = some request →
      (call.perform sync.setup).component = sync.setup.component) :
    Refines { s with setup := call.perform s.setup }
      { sync with setup := call.perform sync.setup } phase := by
  constructor
  · exact hrefines.pending
  · exact hrefines.outstanding
  · simp only [hrefines.setup, hcommute]
  · exact hrefines.flags
  · intro request hrequest
    have hlive := hrefines.live request hrequest
    simp only [Setup.handle, Request.InOrder] at hlive ⊢
    rw [hcomponent request hrequest]
    exact hlive

theorem Refines.instant_idle
    {s : State} {sync : Sync} (hrefines : Refines s sync .idle) (call : Call) :
    Refines { s with setup := call.perform s.setup }
      { sync with setup := call.perform sync.setup } .idle :=
  hrefines.instant rfl (by simp [Handshake.request])

/-- Every call of the session thread that the synchronous program allows is
matched there, and is a step of the handshake. -/
theorem Refines.perform
    {s next : State} {sync : Sync} {phase : Handshake} {extra : Flags} {call : Call}
    (hrefines : Refines s sync phase) (hallows : sync.Allows call)
    (hperform : s.perform extra call = some next) :
    ∃ phase', runFrom Handshake.step phase (call.shows next).toList = some phase' ∧
      Refines next (sync.perform call) phase' := by
  have hidle : sync.pending = none → phase = .idle := by
    intro hpending
    exact Handshake.eq_idle (hrefines.pending ▸ hpending)
  have hcall := hallows.2
  cases call with
  | request request =>
      cases hperform
      rcases hrefines.issue hallows with ⟨hphase, hnext⟩
      subst hphase
      exact ⟨.issued request, rfl, hnext⟩
  | wait component event =>
      cases hpending : sync.pending with
      | none =>
          rcases hcall with ⟨_, hwaits⟩
          rw [hpending] at hwaits
          rcases hrefines.waitOther hpending hperform with ⟨hphase, hnext⟩
          subst hphase
          refine ⟨.idle, by simp [Call.shows, hwaits.1], ?_⟩
          simpa [Sync.perform, hpending] using hnext
      | some request =>
          rcases hcall with ⟨_, hwaits⟩
          rw [hpending] at hwaits
          rcases hwaits with ⟨hcomponent, hevent⟩
          subst hcomponent hevent
          obtain ⟨hphase, hreturns, hnext⟩ :=
            hrefines.waitCompletion hpending hperform
          subst hphase
          refine ⟨.idle, ?_, ?_⟩
          · simp [Call.shows, request.order.isCompletion_completion, hreturns,
              Handshake.step]
          · simpa [Sync.perform, hpending] using hnext
  | flagsCreate component =>
      cases hperform
      cases hidle hcall.1
      exact ⟨.idle, rfl, hrefines.setFlags component rfl⟩
  | flagsDelete component =>
      cases hperform
      cases hidle hcall.1
      exact ⟨.idle, rfl, hrefines.setFlags component rfl⟩
  | getHandleStart component =>
      cases hperform
      cases hidle hcall.1
      exact ⟨.idle, rfl, hrefines.instant_idle _⟩
  | getHandleEnd component enabledPorts =>
      cases hperform
      cases hidle hcall.1
      exact ⟨.idle, rfl, hrefines.instant_idle _⟩
  | freeHandleStart component =>
      cases hperform
      cases hidle hcall.1
      exact ⟨.idle, rfl, hrefines.instant_idle _⟩
  | freeHandleEnd component =>
      cases hperform
      cases hidle hcall.1
      have hnext := hrefines.instant_idle (.freeHandleEnd component)
      refine ⟨.idle, rfl, hnext.pending, ?_, hnext.setup, hnext.flags, hnext.live⟩
      simp [hrefines.outstanding, Handshake.outstanding]
  | allocateBuffer component port =>
      cases hperform
      exact ⟨phase, rfl, hrefines.instant (by cases phase <;> rfl) (fun _ _ => rfl)⟩
  | freeBuffer component port =>
      cases hperform
      exact ⟨phase, rfl, hrefines.instant (by cases phase <;> rfl) (fun _ _ => rfl)⟩
  | setPortCapturing component port enabled =>
      cases hperform
      exact ⟨phase, rfl, hrefines.instant (by cases phase <;> rfl) (fun _ _ => rfl)⟩
  | _ =>
      cases hperform
      exact ⟨phase, rfl, hrefines.instant rfl (fun _ _ => rfl)⟩

/-! ## Positions in the program -/

/-- The session thread has made the calls of the program before `s.calls`, and
they take the synchronous program to `sync`. -/
def Follows (program : List Call) (s : State) (sync : Sync) : Prop :=
  ∃ executed, program = executed ++ s.calls ∧
    Sync.initial.run executed = some sync

theorem follows_initial (sessions : List Session) :
    Follows (sessions.flatMap Session.calls) (State.initial sessions) .initial :=
  ⟨[], rfl, rfl⟩

theorem Follows.advance
    {program : List Call} {s : State} {sync final : Sync} {call : Call}
    {rest : List Call} (hfollows : Follows program s sync)
    (hprogram : Sync.initial.run program = some final)
    (hcalls : s.calls = call :: rest) :
    sync.Allows call ∧
      ∀ next : State, next.calls = rest →
        Follows program next (sync.perform call) := by
  rcases hfollows with ⟨executed, hsplit, hexecuted⟩
  rw [hsplit, hcalls] at hprogram
  rcases runFrom_append_eq_some.mp hprogram with ⟨middle, hmiddle, hrest⟩
  rw [Sync.run, hmiddle] at hexecuted
  cases hexecuted
  rcases runFrom_cons_eq_some.mp hrest with ⟨after, hafter, _⟩
  rcases Sync.step_eq_some_iff.mp hafter with ⟨hallows, hperform⟩
  constructor
  · exact hallows
  · intro next hnext
    refine ⟨executed ++ [call], by rw [hsplit, hcalls, hnext]; simp, ?_⟩
    rw [hperform]
    exact runFrom_concat_eq_some.mpr ⟨sync, hmiddle, hafter⟩

theorem run_program (sessions : List Session) :
    Sync.initial.run (sessions.flatMap Session.calls) =
      some ⟨setupAfter .initial sessions, .const false, none⟩ :=
  Sync.rests_initial.run_sessions sessions

def InStep (program : List Call) (s : State) (phase : Handshake) : Prop :=
  ∃ sync, Follows program s sync ∧ Refines s sync phase

theorem InStep.step
    {program : List Call} {s next : State} {phase : Handshake} {label : Label}
    {final : Sync} (hinv : InStep program s phase)
    (hprogram : Sync.initial.run program = some final)
    (hhonest : label.honest = true) (hstep : s.step label = some next) :
    ∃ phase', runFrom Handshake.step phase (s.shows label next).toList =
      some phase' ∧ InStep program next phase' := by
  rcases hinv with ⟨sync, hfollows, hrefines⟩
  cases (Step.of_step hstep).2 with
  | failed hcalls hchecked =>
      exact ⟨phase, rfl, sync, hfollows, hrefines.pending, hrefines.outstanding,
        hrefines.setup, hrefines.flags, hrefines.live⟩
  | @performed call rest extra performed hcalls hperform =>
      rcases hfollows.advance hprogram hcalls with ⟨hallows, hadvance⟩
      rcases hrefines.perform hallows hperform with ⟨phase', hphase, hnext⟩
      refine ⟨phase', ?_, sync.perform call, hadvance _ rfl, hnext.pending,
        hnext.outstanding, hnext.setup, hnext.flags, hnext.live⟩
      rw [← hphase]
      simp [State.shows, hcalls, Call.shows]
  | @answered index request hrequest hhandle =>
      rcases hrefines.answer hrequest with ⟨hphase, hnext⟩
      subst hphase
      refine ⟨.answered request, ?_, sync, hfollows, hnext⟩
      simp [State.shows, hrequest, Handshake.step]
  | calledBack hhandle =>
      exact ⟨phase, rfl, sync, hfollows, hrefines.callback hhonest⟩

end Omx

end RpiUdpStream
