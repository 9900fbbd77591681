import Mathlib.Data.List.Basic
import Mathlib.Data.BitVec
import Mathlib.Tactic.Common
import A9GTracker.CString

/-! Network management of `app/src/network.c` with the status byte of `app/src/system.h`
and the event arms of `app/src/system.c` that touch either. The answers of the modem are
inputs, the calls made to it are recorded in a trace. -/
namespace A9GTracker
namespace Network

open CString

/-! ### The status byte -/

abbrev statusInitialized : BitVec 8 := 1
abbrev statusGpsOn : BitVec 8 := 2
abbrev statusGsmActive : BitVec 8 := 4
abbrev statusGsmRegistered : BitVec 8 := 8

def flagOn (systemStatus flag : BitVec 8) : BitVec 8 := systemStatus ||| flag
def flagOff (systemStatus flag : BitVec 8) : BitVec 8 := systemStatus &&& ~~~flag
def isFlag (systemStatus flag : BitVec 8) : Bool := systemStatus &&& flag != 0

theorem isFlag_flagOff_self (s f : BitVec 8) : isFlag (flagOff s f) f = false := by
  simp [isFlag,flagOff,BitVec.and_assoc]

theorem isFlag_flagOn_self (s : BitVec 8) {f : BitVec 8} (hf : f ≠ 0) :
    isFlag (flagOn s f) f = true := by
  have h : (s ||| f) &&& f = f := by
    ext i hi
    simp only [BitVec.getElem_and,BitVec.getElem_or]
    cases f[i] <;> simp
  simpa [isFlag,flagOn,h] using hf

theorem isFlag_flagOff_of_disjoint (s : BitVec 8) {f g : BitVec 8} (h : f &&& g = 0) :
    isFlag (flagOff s f) g = isFlag s g := by
  have hg : ~~~f &&& g = g := by
    ext i hi
    have hbit : (f &&& g)[i] = (0 : BitVec 8)[i] := by rw [h]
    simp only [BitVec.getElem_and,BitVec.getElem_not] at hbit ⊢
    cases hf : f[i] <;> simp_all
  simp only [isFlag,flagOff,BitVec.and_assoc,hg]

theorem isFlag_flagOn_of_disjoint (s : BitVec 8) {f g : BitVec 8} (h : f &&& g = 0) :
    isFlag (flagOn s f) g = isFlag s g := by
  simp [isFlag,flagOn,BitVec.and_or_distrib_right,h]

/-! ### State -/

inductive NetworkStatus
  | offline | registering | registered | detached | attaching | attached | deactived
  | activating | activated | attachFailed | activateFailed
  | other (n : ℕ)
  deriving DecidableEq

structure PdpContext where
  apn : List UInt8
  userName : List UInt8
  userPasswd : List UInt8
  deriving DecidableEq

structure ApnSettings where
  apn : List UInt8
  apnUser : List UInt8
  apnPass : List UInt8
  deriving DecidableEq

structure Location where
  sMcc : UInt8 × UInt8 × UInt8
  sMnc : UInt8 × UInt8 × UInt8
  sLac : UInt16
  sCellID : UInt16
  iRxLev : ℤ
  deriving DecidableEq

/-- The answers of the modem to the queries and requests of one `NetworkAttachActivate`. -/
structure ModemAnswers where
  attachRet : Bool
  attachStatus : UInt8
  startAttachRet : Bool
  activeRet : Bool
  activeStatus : UInt8
  startActiveRet : Bool
  deriving DecidableEq

/-- What happens at the border to the firmware, oldest first. -/
inductive NetAction
  | callback (status : NetworkStatus)
  | startAttach (ret : Bool)
  | startActive (context : PdpContext) (ret : Bool)
  | startDeactive
  | cellInfoRequest (ret : Bool)
  deriving DecidableEq

structure NetState where
  systemStatus : BitVec 8
  networkStatus : NetworkStatus
  apnWorkaroundPending : Bool
  realContext : PdpContext
  dummyContext : PdpContext
  trackerloopTick : ℕ
  cellInfo : List Location
  cellInfoCount : ℕ
  cellInfoStr : List UInt8
  trace : List NetAction
  deriving DecidableEq

def NetState.emit (st : NetState) (a : NetAction) : NetState := { st with trace := st.trace++[a] }

def gsmActiveOn (st : NetState) : NetState :=
  { st with systemStatus := flagOn st.systemStatus statusGsmActive }
def gsmActiveOff (st : NetState) : NetState :=
  { st with systemStatus := flagOff st.systemStatus statusGsmActive }
def isGsmActive (st : NetState) : Bool := isFlag st.systemStatus statusGsmActive
def gsmRegisteredOn (st : NetState) : NetState :=
  { st with systemStatus := flagOn st.systemStatus statusGsmRegistered }
def gsmRegisteredOff (st : NetState) : NetState :=
  { st with systemStatus := flagOff st.systemStatus statusGsmRegistered }
def isGsmRegistered (st : NetState) : Bool := isFlag st.systemStatus statusGsmRegistered

@[simp] theorem isGsmActive_gsmActiveOff (st : NetState) : isGsmActive (gsmActiveOff st) = false :=
  isFlag_flagOff_self _ _
@[simp] theorem isGsmActive_gsmRegisteredOn (st : NetState) :
    isGsmActive (gsmRegisteredOn st) = isGsmActive st :=
  isFlag_flagOn_of_disjoint _ (by decide)
@[simp] theorem isGsmActive_gsmRegisteredOff (st : NetState) :
    isGsmActive (gsmRegisteredOff st) = isGsmActive st :=
  isFlag_flagOff_of_disjoint _ (by decide)
@[simp] theorem isGsmRegistered_gsmRegisteredOn (st : NetState) :
    isGsmRegistered (gsmRegisteredOn st) = true :=
  isFlag_flagOn_self _ (by decide)
@[simp] theorem isGsmRegistered_gsmActiveOff (st : NetState) :
    isGsmRegistered (gsmActiveOff st) = isGsmRegistered st :=
  isFlag_flagOff_of_disjoint _ (by decide)

def networkInit : NetState where
  systemStatus := 0
  networkStatus := .offline
  apnWorkaroundPending := false
  realContext := ⟨[],[],[]⟩
  dummyContext := ⟨lit "dummy_apn",[],[]⟩
  trackerloopTick := 0
  cellInfo := List.replicate 8 ⟨(0,0,0),(0,0,0),0,0,0⟩
  cellInfoCount := 0
  cellInfoStr := []
  trace := []

/-! ### `NetworkUpdateStatus` and `NetworkAttachActivate` -/

/-- The body of `NetworkUpdateStatus`, with the call of `NetworkAttachActivate` that three
of its arms make as a parameter. -/
def updateStatusWith (attachActivate : NetState → NetState) (status : NetworkStatus)
    (st : NetState) : NetState :=
  let st := match status with
    | .offline => st
    | .registering => gsmRegisteredOff st
    | .registered => attachActivate (gsmRegisteredOn st)
    | .detached => gsmActiveOff st
    | .attaching => gsmActiveOff st
    | .attached => attachActivate (gsmActiveOff st)
    | .deactived => attachActivate (gsmActiveOff st)
    | .activating => gsmActiveOff st
    | .activated => gsmActiveOn st
    | .attachFailed => gsmActiveOff st
    | .activateFailed => st
    | .other _ => st
  { st with networkStatus := status }

def setApnContext (cfg : ApnSettings) (st : NetState) : NetState :=
  { st with realContext := ⟨cfg.apn.take 63,cfg.apnUser.take 63,cfg.apnPass.take 63⟩ }

/-- The two statuses it reports itself have arms that call nothing, so the recursion of the
source ends there. -/
def networkAttachActivate (cfg : ApnSettings) (a : ModemAnswers) (st : NetState) :
    NetState × Bool :=
  if ¬ isGsmRegistered st then (st,false)
  else if ¬ a.attachRet then (st,false)
  else if a.attachStatus = 0 then
    let st := updateStatusWith id .attaching st
    (st.emit (.startAttach a.startAttachRet),a.startAttachRet)
  else if st.networkStatus = .activating then (st,false)
  else if ¬ a.activeRet then (st,false)
  else if a.activeStatus = 0 then
    if ¬ st.apnWorkaroundPending then
      let st := updateStatusWith id .activating (setApnContext cfg st)
      let st := st.emit (.startActive st.realContext a.startActiveRet)
      ({ st with apnWorkaroundPending := true },a.startActiveRet)
    else
      let st := updateStatusWith id .activating st
      let st := st.emit (.startActive st.dummyContext a.startActiveRet)
      ({ st with apnWorkaroundPending := false },a.startActiveRet)
  else (st,true)

def networkUpdateStatus (cfg : ApnSettings) (a : ModemAnswers) (status : NetworkStatus)
    (st : NetState) : NetState :=
  updateStatusWith (fun s => (networkAttachActivate cfg a s).1) status st

/-! ### The monitor and the cell information -/

/-- The first half of `NetworkMonitor`: the watchdog or an activation, once the tracker runs. -/
def monitorConnection (cfg : ApnSettings) (a : ModemAnswers) (now : ℕ) (st : NetState) :
    NetState :=
  if 0 < st.trackerloopTick then
    if isGsmActive st then
      if (((now : ℤ)-st.trackerloopTick) % 4294967296).toNat > 20 then st.emit .startDeactive
      else st
    else (networkAttachActivate cfg a st).1
  else st

/-- The second half, with the answer to the cell information request. -/
def requestCellInfo (cellRet : Bool) (st : NetState) : NetState :=
  if isGsmRegistered st then
    let st := st.emit (.cellInfoRequest cellRet)
    if ¬ cellRet then { st with cellInfoStr := [] } else st
  else { st with cellInfoStr := [] }

def networkMonitor (cfg : ApnSettings) (a : ModemAnswers) (now : ℕ) (cellRet : Bool)
    (st : NetState) : NetState :=
  requestCellInfo cellRet (monitorConnection cfg a now st)

def printNat (n : ℕ) : List UInt8 := (Nat.toDigits 10 n).map fun c => UInt8.ofNat c.toNat
def printInt (n : ℤ) : List UInt8 := if n < 0 then 45::printNat n.natAbs else printNat n.natAbs

def printLocation (l : Location) : List UInt8 :=
  printNat l.sMcc.1.toNat++printNat l.sMcc.2.1.toNat++printNat l.sMcc.2.2.toNat++lit ","++
  printNat l.sMnc.1.toNat++printNat l.sMnc.2.1.toNat++printNat l.sMnc.2.2.toNat++lit ","++
  printNat l.sLac.toNat++lit ","++printNat l.sCellID.toNat++lit ","++printInt l.iRxLev

def networkCellInfoCallback (loc : List Location) (number : ℤ) (st : NetState) : NetState :=
  let st := { st with cellInfoStr := [], cellInfoCount := 0 }
  if number ≤ 0 then st
  else
    let count := min number.toNat 8
    let cellInfo := loc.take count++st.cellInfo.drop count
    { st with
      cellInfo := cellInfo
      cellInfoCount := count
      cellInfoStr := ((cellInfo.head?.map printLocation).getD []).take 127 }

/-! ### Events -/

/-- The arms of `EventHandler` that reach this state. -/
inductive ApiEvent
  | noSimcard | simcardDrop | networkRegisterDenied | networkRegisterNo | networkDetached
  | networkCellInfo (loc : List Location) (number : ℤ)
  | systemReady | gpsUartReceived
  | other (id : ℕ)

def eventHandler (st : NetState) : ApiEvent → NetState
  | .noSimcard => gsmActiveOff st
  | .simcardDrop => gsmActiveOff st
  | .networkRegisterDenied => gsmRegisteredOff st
  | .networkRegisterNo => gsmRegisteredOff st
  | .networkDetached => st
  | .networkCellInfo loc number => networkCellInfoCallback loc number st
  | .systemReady => { st with systemStatus := flagOn st.systemStatus statusInitialized }
  | .gpsUartReceived => { st with systemStatus := flagOn st.systemStatus statusGpsOn }
  | .other _ => st

/-- One atomic event: a status callback of the firmware, a monitor tick, the command
`net activate`, an API event, or a round of the tracker task that stores the clock. Each
comes with the APN configured at that moment and the answers the modem gives. -/
inductive NetEvent
  | statusCallback (cfg : ApnSettings) (a : ModemAnswers) (status : NetworkStatus)
  | monitor (cfg : ApnSettings) (a : ModemAnswers) (now : ℕ) (cellRet : Bool)
  | netActivate (cfg : ApnSettings) (a : ModemAnswers)
  | api (e : ApiEvent)
  | trackerLoop (now : ℕ)

def netStep (st : NetState) : NetEvent → NetState
  | .statusCallback cfg a status => networkUpdateStatus cfg a status (st.emit (.callback status))
  | .monitor cfg a now cellRet => networkMonitor cfg a now cellRet st
  | .netActivate cfg a => (networkAttachActivate cfg a st).1
  | .api e => eventHandler st e
  | .trackerLoop now => { st with trackerloopTick := now }

end Network
end A9GTracker
