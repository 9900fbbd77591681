import Mathlib.Data.List.Basic
import Mathlib.Tactic.Common
import A9GTracker.Loop
import A9GTracker.RingBuffer
import A9GTracker.GpsParse

/-! The UART receive path of `libs/gps/src/gps.c`. -/
namespace A9GTracker
namespace Gps

open CString RingBuffer GpsParse

/-- The log file path of the driver. The only pointer the program ever passes to
`GPS_SaveLog` is the address of `g_ConfigStore.gps_log_file`. -/
inductive LogPath
  | null | gpsLogFile
  deriving DecidableEq

structure LogSetting where
  isSaveLog : Bool
  gpsLogPath : LogPath
  deriving DecidableEq

def gpsSaveLog (save : Bool) (path : LogPath) : LogSetting := ⟨save,path⟩

/-- What became of `gpsAckMsg`: untouched, a copy handed to the waiting command, a failed
allocation, or a copy from a null pointer when the header is not found again in `tmp`. -/
inductive AckMsg
  | unchanged
  | delivered (bytes : List UInt8)
  | noMemory
  | wild
  deriving DecidableEq

/-- The statics of `gps.c` the receive path works on. `saved` and `parsed` record the texts
given to `SaveToTFCard` and the blocks taken out for `GPS_Parse`. -/
structure GpsState where
  gpsNmeaBuffer : Buffer
  cmdPending : Bool
  log : LogSetting
  parse : ParseState
  ack : AckMsg
  saved : List (List UInt8)
  parsed : List (List UInt8)

/-- The statics before the first call, the queue being set up by `GPS_Init`. -/
def gpsBoot (log : LogSetting) : GpsState where
  gpsNmeaBuffer := bufferInit 2048
  cmdPending := false
  log := log
  parse := parseInit
  ack := .unchanged
  saved := []
  parsed := []

/-- The length taken out of the queue, capped at the frame buffer. -/
def frameLen (b : Buffer) (index : ℤ) : ℕ :=
  let len := bufferSize2 b index.toNat+1
  if len > 1024 then 1024 else len

def parseBlock (st : GpsState) (b' : Buffer) (tmp : List UInt8) : GpsState :=
  { st with
    gpsNmeaBuffer := b'
    saved := if st.log.isSaveLog then st.saved++[cstring tmp] else st.saved
    parsed := st.parsed++[tmp]
    parse := (gpsParse st.parse (cstring tmp)).1 }

/-- One round of the `while(1)` loop. Its only exits are the missing `VTG` and a failing
`Buffer_Gets`. -/
def frameStep (st : GpsState) : Loop.Step GpsState GpsState :=
  let b := st.gpsNmeaBuffer
  let index := bufferQuery b (lit "VTG") 3 (bufferStartPostion b)
  if index ≥ 0 then
    let index := bufferQuery b (lit "\r\n") 2 (u16 index.toNat)
    if index ≥ 0 then
      match bufferGets b (frameLen b index) with
      | (_,none) => .done st
      | (b',some tmp) => .next (parseBlock st b' tmp)
    else .next st
  else .done st

def deliverAck (st : GpsState) (b' : Buffer) (tmp : List UInt8) (index0 : Option ℕ)
    (mallocOk : Bool) : GpsState :=
  match index0 with
  | none => { st with gpsNmeaBuffer := b', ack := .wild }
  | some i =>
    { st with
      gpsNmeaBuffer := b'
      ack := if mallocOk then .delivered (tmp.drop i) else .noMemory }

def ackUpdate (st : GpsState) (mallocOk : Bool) : GpsState :=
  let b := st.gpsNmeaBuffer
  let index := bufferQuery b (lit "$PGKC") 5 (bufferStartPostion b)
  if index ≥ 0 then
    let index2 := bufferQuery b (lit "\r\n") 2 (u16 index.toNat)
    if index2 ≥ 0 then
      match bufferGets b (frameLen b index2) with
      | (_,none) => st
      | (b',some tmp) => deliverAck st b' tmp (strstr (cstring tmp) (lit "$PGKC")) mallocOk
    else st
  else
    let index := bufferQuery b [0xaa,0xf0] 2 (bufferStartPostion b)
    if index ≥ 0 then
      let index2 := bufferQuery b (lit "\r\n") 2 (u16 index.toNat)
      if index2 ≥ 0 then
        match bufferGets b (frameLen b index2) with
        | (_,none) => st
        | (b',some tmp) => deliverAck st b' tmp (Search.find [0xaa,0xf0] tmp) mallocOk
      else st
    else st

/-- `Buffer_Puts` takes the length as `uint16_t`; a refused chunk is dropped. -/
def receive (st : GpsState) (data : List UInt8) : GpsState :=
  { st with gpsNmeaBuffer := (bufferPuts st.gpsNmeaBuffer data (u16 data.length)).1 }

/-- `GPS_Update`, or `none` when the fuel is used up inside the loop. -/
def gpsUpdate (fuel : ℕ) (st : GpsState) (data : List UInt8) (mallocOk : Bool) :
    Option GpsState :=
  let st := receive st data
  if st.cmdPending then some (ackUpdate st mallocOk) else Loop.run frameStep fuel st

end Gps
end A9GTracker
