import RpiUdpStream.EventFlags

/-!
# Components, their callbacks and the events they wake

`event_handler` and `fill_buffer_done` run on a thread of the component and
turn a callback into an event of the component's flag group.  `wait` collects
such an event on the session thread.
-/

namespace RpiUdpStream

inductive Component where
  | camera
  | encoder
  | nullSink
  deriving DecidableEq, Repr

structure PerComponent (α : Type*) where
  camera : α
  encoder : α
  nullSink : α
  deriving DecidableEq

namespace PerComponent

variable {α : Type*}

def const (value : α) : PerComponent α := ⟨value, value, value⟩

def get (values : PerComponent α) : Component → α
  | .camera => values.camera
  | .encoder => values.encoder
  | .nullSink => values.nullSink

def set (values : PerComponent α) (component : Component) (value : α) :
    PerComponent α :=
  match component with
  | .camera => { values with camera := value }
  | .encoder => { values with encoder := value }
  | .nullSink => { values with nullSink := value }

@[simp] theorem get_const (value : α) (component : Component) :
    (const value).get component = value := by
  cases component <;> rfl

theorem get_set (values : PerComponent α) (component other : Component)
    (value : α) :
    (values.set component value).get other =
      if other = component then value else values.get other := by
  cases component <;> cases other <;> rfl

@[simp] theorem get_set_self (values : PerComponent α) (component : Component)
    (value : α) :
    (values.set component value).get component = value := by
  rw [get_set, if_pos rfl]

@[simp] theorem set_get (values : PerComponent α) (component : Component) :
    values.set component (values.get component) = values := by
  cases component <;> rfl

@[simp] theorem set_set (values : PerComponent α) (component : Component)
    (value other : α) :
    (values.set component value).set component other =
      values.set component other := by
  cases component <;> rfl

@[ext] theorem ext {values others : PerComponent α}
    (hget : ∀ component, values.get component = others.get component) :
    values = others := by
  have hcamera := hget .camera
  have hencoder := hget .encoder
  have hnullSink := hget .nullSink
  cases values
  cases others
  simp_all [get]

end PerComponent

abbrev Flags := BitVec 32

inductive ComponentEvent where
  | error
  | portEnable
  | portDisable
  | stateSet
  | flush
  | markBuffer
  | mark
  | portSettingsChanged
  | paramOrConfigChanged
  | bufferFlag
  | resourcesAcquired
  | dynamicResourcesAvailable
  | fillBufferDone
  | emptyBufferDone
  deriving DecidableEq, Repr

def ComponentEvent.flag : ComponentEvent → Flags
  | .error => 0x1
  | .portEnable => 0x2
  | .portDisable => 0x4
  | .stateSet => 0x8
  | .flush => 0x10
  | .markBuffer => 0x20
  | .mark => 0x40
  | .portSettingsChanged => 0x80
  | .paramOrConfigChanged => 0x100
  | .bufferFlag => 0x200
  | .resourcesAcquired => 0x400
  | .dynamicResourcesAvailable => 0x800
  | .fillBufferDone => 0x1000
  | .emptyBufferDone => 0x2000

theorem ComponentEvent.flag_ne_zero (event : ComponentEvent) :
    event.flag ≠ 0 := by
  cases event <;> decide

theorem ComponentEvent.flag_and_flag {event other : ComponentEvent}
    (hne : event ≠ other) : event.flag &&& other.flag = 0 := by
  cases event <;> cases other <;> first | rfl | exact absurd rfl hne

def ComponentEvent.isCompletion : ComponentEvent → Bool
  | .stateSet | .portEnable | .portDisable | .fillBufferDone => true
  | _ => false

inductive OmxCommand where
  | stateSet
  | portDisable
  | portEnable
  | flush
  | markBuffer
  | other
  deriving DecidableEq, Repr

inductive OmxEvent where
  | cmdComplete (data1 : OmxCommand)
  | error
  | mark
  | portSettingsChanged
  | paramOrConfigChanged
  | bufferFlag
  | resourcesAcquired
  | dynamicResourcesAvailable
  | other
  deriving DecidableEq, Repr

/-- The event that `event_handler` wakes the component with, if any. -/
def eventHandler : OmxEvent → Option ComponentEvent
  | .cmdComplete .stateSet => some .stateSet
  | .cmdComplete .portDisable => some .portDisable
  | .cmdComplete .portEnable => some .portEnable
  | .cmdComplete .flush => some .flush
  | .cmdComplete .markBuffer => some .markBuffer
  | .cmdComplete .other => none
  | .error => some .error
  | .mark => some .mark
  | .portSettingsChanged => some .portSettingsChanged
  | .paramOrConfigChanged => some .paramOrConfigChanged
  | .bufferFlag => some .bufferFlag
  | .resourcesAcquired => some .resourcesAcquired
  | .dynamicResourcesAvailable => some .dynamicResourcesAvailable
  | .other => none

def fillBufferDone : ComponentEvent := .fillBufferDone

inductive Callback where
  | eventHandler (event : OmxEvent)
  | fillBufferDone
  deriving DecidableEq, Repr

def Callback.wakes : Callback → Option ComponentEvent
  | .eventHandler event => RpiUdpStream.eventHandler event
  | .fillBufferDone => some RpiUdpStream.fillBufferDone

/-- The callbacks that answer no request and report no error. -/
def Callback.unsolicited (callback : Callback) : Bool :=
  match callback.wakes with
  | none => true
  | some event => !event.isCompletion && decide (event ≠ .error)

def wake (flags : Flags) (event : ComponentEvent) : Flags :=
  EventFlags.set flags event.flag

def Callback.deliver (callback : Callback) (flags : Flags) : Flags :=
  match callback.wakes with
  | none => flags
  | some event => wake flags event

/-- What a call of OpenMAX or vcos reports back.  `extra` matters to
`vcos_event_flags_get` alone: the bits that it reports beyond the requested
ones that were pending. -/
inductive CallOutcome where
  | failed
  | returned (extra : Flags)
  deriving DecidableEq

inductive WaitResult where
  | exits (code : ℕ)
  | returns (retrievedEvents : Flags)
  deriving DecidableEq

def WaitResult.exitCode : WaitResult → Option ℕ
  | .exits code => some code
  | .returns _ => none

/-- `wait` after `vcos_event_flags_get` has stored `set`. -/
def afterGet (set : Flags) : WaitResult :=
  if set = ComponentEvent.error.flag then .exits 1 else .returns set

/-- The result of `wait` and the flags that it leaves, or `none` while it is
blocked. -/
def wait (flags events : Flags) : CallOutcome → Option (WaitResult × Flags)
  | .failed => some (.exits 1, flags)
  | .returned extra =>
      (EventFlags.getConsume flags (events ||| ComponentEvent.error.flag)
        extra).map fun (set, rest) => (afterGet set, rest)

theorem wait_eq_none_iff {flags events extra : Flags} :
    wait flags events (.returned extra) = none ↔
      flags &&& (events ||| ComponentEvent.error.flag) = 0 := by
  simp [wait, EventFlags.getConsume_eq_none_iff]

theorem wait_returned_eq_some_iff
    {flags events extra : Flags} {result : WaitResult × Flags} :
    wait flags events (.returned extra) = some result ↔
      flags &&& (events ||| ComponentEvent.error.flag) ≠ 0 ∧
        result =
          (afterGet
            (flags &&& (events ||| ComponentEvent.error.flag) ||| extra),
            flags &&& ~~~(events ||| ComponentEvent.error.flag)) := by
  simp only [wait, Option.map_eq_some_iff, EventFlags.getConsume_eq_some_iff]
  constructor
  · rintro ⟨collected, ⟨hpending, rfl⟩, rfl⟩
    exact ⟨hpending, rfl⟩
  · rintro ⟨hpending, rfl⟩
    exact ⟨_, ⟨hpending, rfl⟩, rfl⟩

end RpiUdpStream
