import RpiUdpStream.ComponentEvents

/-!
# The calls of a stream session

The functions of `h264.cpp` as the lists of the OpenMAX, vcos and bcm calls that
they make, in order.  A call carries what its component answers where the
following calls or their effects depend on it: the ports that `OMX_GetHandle`
leaves enabled and the port ranges of the four domains.  The values written by
the configuration calls are left out; every call of them is kept.

`OMX_GetHandle` and `OMX_FreeHandle` take time in which the component may call
back, so each of them is a start and an end.
-/

namespace RpiUdpStream

namespace Omx

inductive OmxState where
  | loaded
  | idle
  | executing
  deriving DecidableEq, Repr

def OmxState.adjacent : OmxState → OmxState → Bool
  | .loaded, .idle | .idle, .loaded | .idle, .executing | .executing, .idle => true
  | _, _ => false

inductive Order where
  | stateSet (state : OmxState)
  | portEnable (port : UInt32)
  | portDisable (port : UInt32)
  | fillThisBuffer
  deriving DecidableEq

structure Request where
  component : Component
  order : Order
  deriving DecidableEq

inductive OmxIndex where
  | configRequestCallback
  | paramCameraDeviceNumber
  | paramPortDefinition
  | configVideoFramerate
  | configCommonSharpness
  | configCommonContrast
  | configCommonSaturation
  | configCommonBrightness
  | configCommonExposureValue
  | configCommonExposure
  | configCommonFrameStabilisation
  | configCommonWhiteBalance
  | configCustomAwbGains
  | configCommonImageFilter
  | configCommonMirror
  | configCommonRotate
  | configCommonColorEnhancement
  | configStillColourDenoiseEnable
  | configInputCropPercentages
  | configDynamicRangeExpansion
  | paramVideoBitrate
  | paramVideoQuantization
  | paramVideoPortFormat
  | configVideoAVCIntraPeriod
  | paramBrcmVideoAVCSEIEnable
  | paramBrcmEEDEEnable
  | paramBrcmEEDELossRate
  | paramVideoAvc
  | paramBrcmVideoAVCInlineHeaderEnable
  deriving DecidableEq

inductive Access where
  | getParameter
  | setParameter
  | getConfig
  | setConfig
  deriving DecidableEq

/-- The four indices of the array `types` in `init_component`. -/
inductive PortDomain where
  | audio
  | video
  | image
  | other
  deriving DecidableEq

inductive Call where
  | bcmHostInit
  | omxInit
  | flagsCreate (component : Component)
  | getHandleStart (component : Component)
  | getHandleEnd (component : Component) (enabledPorts : Finset UInt32)
  | getPortParam (component : Component) (domain : PortDomain)
  | request (request : Request)
  | wait (component : Component) (event : ComponentEvent)
  | configure (access : Access) (component : Component) (index : OmxIndex)
  | setupTunnel (output : Component) (outputPort : UInt32) (input : Component)
      (inputPort : UInt32)
  | allocateBuffer (component : Component) (port : UInt32)
  | freeBuffer (component : Component) (port : UInt32)
  | setPortCapturing (component : Component) (port : UInt32) (enabled : Bool)
  | flagsDelete (component : Component)
  | freeHandleStart (component : Component)
  | freeHandleEnd (component : Component)
  | omxDeinit
  | bcmHostDeinit
  deriving DecidableEq

/-- The calls whose result the program checks, ending with `exit(1)`. -/
def Call.checked : Call → Bool
  | .bcmHostInit | .getHandleStart _ | .flagsDelete _ | .freeHandleStart _
  | .bcmHostDeinit => false
  | _ => true

structure PortRange where
  nStartPortNumber : UInt32
  nPorts : UInt32
  deriving DecidableEq

structure DeviceReport where
  enabledPorts : PerComponent (Finset UInt32)
  portRange : Component → PortDomain → PortRange

/-! ## The port loop -/

def portsBelow (stop : UInt32) : ℕ → UInt32 → List UInt32
  | 0, _ => []
  | fuel + 1, port =>
      if port < stop then port :: portsBelow stop fuel (port + 1) else []

/-- The values of `port` in `for (port = start; port < stop; port++)`. -/
def portLoop (start stop : UInt32) : List UInt32 :=
  portsBelow stop (stop.toNat - start.toNat) start

def PortRange.ports (range : PortRange) : List UInt32 :=
  portLoop range.nStartPortNumber (range.nStartPortNumber + range.nPorts)

/-! ## The functions of h264.cpp -/

def changeState (component : Component) (state : OmxState) : List Call :=
  [.request ⟨component, .stateSet state⟩]

def enablePort (component : Component) (port : UInt32) : List Call :=
  [.request ⟨component, .portEnable port⟩]

def disablePort (component : Component) (port : UInt32) : List Call :=
  [.request ⟨component, .portDisable port⟩]

def changeStateAndWait (component : Component) (state : OmxState) : List Call :=
  changeState component state ++ [.wait component .stateSet]

def enablePortAndWait (component : Component) (port : UInt32) : List Call :=
  enablePort component port ++ [.wait component .portEnable]

def disablePortAndWait (component : Component) (port : UInt32) : List Call :=
  disablePort component port ++ [.wait component .portDisable]

def disablePorts (component : Component) (ports : List UInt32) : List Call :=
  ports.flatMap (disablePortAndWait component)

def initComponentDomain (report : DeviceReport) (component : Component)
    (domain : PortDomain) : List Call :=
  [.getPortParam component domain] ++
    disablePorts component (report.portRange component domain).ports

def initComponent (report : DeviceReport) (component : Component) : List Call :=
  [.flagsCreate component, .getHandleStart component,
    .getHandleEnd component (report.enabledPorts.get component)] ++
    [PortDomain.audio, .video, .image, .other].flatMap
      (initComponentDomain report component)

def deinitComponent (component : Component) : List Call :=
  [.flagsDelete component, .freeHandleStart component, .freeHandleEnd component]

def loadCameraDrivers (component : Component) : List Call :=
  [.configure .setConfig component .configRequestCallback,
    .configure .setParameter component .paramCameraDeviceNumber,
    .wait component .paramOrConfigChanged]

def enableEncoderOutputPort (component : Component) : List Call :=
  enablePort component 201 ++
    [.configure .getParameter component .paramPortDefinition,
      .allocateBuffer component 201, .wait component .portEnable]

def disableEncoderOutputPort (component : Component) : List Call :=
  disablePort component 201 ++
    [.freeBuffer component 201, .wait component .portDisable]

/-- The constant `CAM_WHITE_BALANCE` is `OMX_WhiteBalControlAuto`, not off. -/
def camWhiteBalanceOff : Bool := false

def videoQp : Bool := false

def setCameraSettings (component : Component) : List Call :=
  List.flatten
    [[.configure .setConfig component .configCommonSharpness,
        .configure .setConfig component .configCommonContrast,
        .configure .setConfig component .configCommonSaturation,
        .configure .setConfig component .configCommonBrightness,
        .configure .setConfig component .configCommonExposureValue,
        .configure .setConfig component .configCommonExposure,
        .configure .setConfig component .configCommonFrameStabilisation,
        .configure .setConfig component .configCommonWhiteBalance],
      if camWhiteBalanceOff then
        [.configure .setConfig component .configCustomAwbGains] else [],
      [.configure .setConfig component .configCommonImageFilter,
        .configure .setConfig component .configCommonMirror,
        .configure .setConfig component .configCommonRotate,
        .configure .setConfig component .configCommonColorEnhancement,
        .configure .setConfig component .configStillColourDenoiseEnable,
        .configure .setConfig component .configInputCropPercentages,
        .configure .setConfig component .configDynamicRangeExpansion]]

def setH264Settings (component : Component) : List Call :=
  List.flatten
    [if videoQp then [.configure .setParameter component .paramVideoQuantization]
      else [.configure .setParameter component .paramVideoBitrate],
      [.configure .setParameter component .paramVideoPortFormat,
        .configure .getConfig component .configVideoAVCIntraPeriod,
        .configure .setConfig component .configVideoAVCIntraPeriod,
        .configure .setParameter component .paramBrcmVideoAVCSEIEnable,
        .configure .setParameter component .paramBrcmEEDEEnable,
        .configure .setParameter component .paramBrcmEEDELossRate,
        .configure .getParameter component .paramVideoAvc,
        .configure .setParameter component .paramVideoAvc,
        .configure .setParameter component .paramBrcmVideoAVCInlineHeaderEnable]]

/-- `omx_h264_init` up to the initialisation of the three components. -/
def initComponents (report : DeviceReport) : List Call :=
  [.bcmHostInit, .omxInit] ++ initComponent report .camera ++
    initComponent report .encoder ++ initComponent report .nullSink

/-- `omx_h264_init` from the loading of the camera drivers on. -/
def startComponents : List Call :=
  List.flatten
    [loadCameraDrivers .camera,
      [.configure .getParameter .camera .paramPortDefinition,
        .configure .setParameter .camera .paramPortDefinition,
        .configure .setParameter .camera .paramPortDefinition,
        .configure .setConfig .camera .configVideoFramerate,
        .configure .setConfig .camera .configVideoFramerate],
      setCameraSettings .camera,
      [.configure .getParameter .encoder .paramPortDefinition,
        .configure .setParameter .encoder .paramPortDefinition],
      setH264Settings .encoder,
      [.setupTunnel .camera 71 .encoder 200,
        .setupTunnel .camera 70 .nullSink 240],
      changeStateAndWait .camera .idle,
      changeStateAndWait .encoder .idle,
      changeStateAndWait .nullSink .idle,
      enablePortAndWait .camera 71,
      enablePortAndWait .camera 70,
      enablePortAndWait .nullSink 240,
      enablePortAndWait .encoder 200,
      enableEncoderOutputPort .encoder,
      changeStateAndWait .camera .executing,
      changeStateAndWait .encoder .executing,
      [.wait .encoder .portSettingsChanged],
      changeStateAndWait .nullSink .executing,
      [.setPortCapturing .camera 71 true]]

def omxH264Init (report : DeviceReport) : List Call :=
  initComponents report ++ startComponents

def omxH264Deinit : List Call :=
  List.flatten
    [[.setPortCapturing .camera 71 false],
      changeStateAndWait .camera .idle,
      changeStateAndWait .encoder .idle,
      changeStateAndWait .nullSink .idle,
      disablePortAndWait .camera 71,
      disablePortAndWait .camera 70,
      disablePortAndWait .nullSink 240,
      disablePortAndWait .encoder 200,
      disableEncoderOutputPort .encoder,
      changeStateAndWait .camera .loaded,
      changeStateAndWait .encoder .loaded,
      changeStateAndWait .nullSink .loaded,
      deinitComponent .camera,
      deinitComponent .encoder,
      deinitComponent .nullSink,
      [.omxDeinit, .bcmHostDeinit]]

def fillFrameBuffer : List Call :=
  [.request ⟨.encoder, .fillThisBuffer⟩, .wait .encoder .fillBufferDone]

/-- A run of `stream_thread` through `frames` passes of its loop. -/
structure Session where
  report : DeviceReport
  frames : ℕ

def Session.callsAfterInit (session : Session) : List Call :=
  (List.replicate session.frames fillFrameBuffer).flatten ++ omxH264Deinit

def Session.calls (session : Session) : List Call :=
  omxH264Init session.report ++ session.callsAfterInit

/-! ## The ports that the loop visits -/

theorem toNat_add_one_of_lt {port stop : UInt32} (hlt : port < stop) :
    (port + 1).toNat = port.toNat + 1 := by
  have hbound := stop.toNat_lt
  rw [UInt32.lt_iff_toNat_lt] at hlt
  rw [UInt32.toNat_add]
  have hone : (1 : UInt32).toNat = 1 := rfl
  omega

/-- The loop of the source: test, body, increment modulo `2 ^ 32`, repeat. -/
theorem portLoop_eq (port stop : UInt32) :
    portLoop port stop =
      if port < stop then port :: portLoop (port + 1) stop else [] := by
  by_cases hlt : port < stop
  · have hnext := toNat_add_one_of_lt hlt
    rw [if_pos hlt]
    rw [UInt32.lt_iff_toNat_lt] at hlt
    have hfuel : stop.toNat - port.toNat =
        stop.toNat - (port + 1).toNat + 1 := by
      omega
    rw [portLoop, hfuel, portsBelow, if_pos (UInt32.lt_iff_toNat_lt.mpr hlt)]
    rfl
  · rw [if_neg hlt]
    rw [UInt32.lt_iff_toNat_lt] at hlt
    have hfuel : stop.toNat - port.toNat = 0 := by
      omega
    rw [portLoop, hfuel, portsBelow]

theorem mem_portsBelow {stop port start : UInt32} {fuel : ℕ}
    (hfuel : stop.toNat - start.toNat ≤ fuel) :
    port ∈ portsBelow stop fuel start ↔
      start.toNat ≤ port.toNat ∧ port.toNat < stop.toNat := by
  induction fuel generalizing start with
  | zero =>
      simp only [portsBelow, List.not_mem_nil, false_iff]
      omega
  | succ fuel ih =>
      rw [portsBelow]
      by_cases hlt : start < stop
      · have hnext := toNat_add_one_of_lt hlt
        rw [if_pos hlt, List.mem_cons, ih (by omega), ← UInt32.toNat_inj]
        rw [UInt32.lt_iff_toNat_lt] at hlt
        omega
      · rw [if_neg hlt]
        rw [UInt32.lt_iff_toNat_lt] at hlt
        simp only [List.not_mem_nil, false_iff]
        omega

def PortRange.Fits (range : PortRange) : Prop :=
  range.nStartPortNumber.toNat + range.nPorts.toNat < 2 ^ 32

def PortRange.Covers (range : PortRange) (port : UInt32) : Prop :=
  range.nStartPortNumber.toNat ≤ port.toNat ∧
    port.toNat < range.nStartPortNumber.toNat + range.nPorts.toNat

instance (range : PortRange) : Decidable range.Fits :=
  inferInstanceAs (Decidable (_ < _))

instance (range : PortRange) (port : UInt32) : Decidable (range.Covers port) :=
  inferInstanceAs (Decidable (_ ∧ _))

theorem PortRange.mem_ports
    {range : PortRange} (hfits : range.Fits) (port : UInt32) :
    port ∈ range.ports ↔ range.Covers port := by
  have hend : (range.nStartPortNumber + range.nPorts).toNat =
      range.nStartPortNumber.toNat + range.nPorts.toNat := by
    rw [UInt32.toNat_add, Nat.mod_eq_of_lt hfits]
  rw [PortRange.ports, portLoop, mem_portsBelow (le_refl _), hend]
  rfl

end Omx

end RpiUdpStream
