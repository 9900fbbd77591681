import Mathlib.Data.List.Basic
import Mathlib.Tactic.Common
import A9GTracker.CString

/-! The commands of `libs/gps/src/gps.c` and the check of their acknowledgements. The
message handed over by the receive path is not terminated, so the functions see the memory
that begins with it. -/
namespace A9GTracker
namespace GpsCommand

open CString

inductive GpsCmd
  | fail | ack | ackGpd | reboot | eraseInfoInFlash | standbyMode | nmeaOutputInterval | lpMode
  | nmeaOutputQzss | qzss | searchMode | format | sbas | nmeaOutputFreq | setRtcTime | getVersion
  | ackVersion | gpdPack | setLocationTime | fixMode | max
  deriving DecidableEq

def GpsCmd.toNat : GpsCmd → ℕ
  | .fail => 0
  | .ack => 1
  | .ackGpd => 3
  | .reboot => 30
  | .eraseInfoInFlash => 40
  | .standbyMode => 51
  | .nmeaOutputInterval => 101
  | .lpMode => 105
  | .nmeaOutputQzss => 113
  | .qzss => 114
  | .searchMode => 115
  | .format => 149
  | .sbas => 239
  | .nmeaOutputFreq => 242
  | .setRtcTime => 278
  | .getVersion => 462
  | .ackVersion => 463
  | .gpdPack => 614
  | .setLocationTime => 639
  | .fixMode => 786
  | .max => 787

/-- `GPS_CMD_ACK_FAIL` and `GPS_CMD_ACK_EXEC_SUCCESS` of `GPS_CMD_Ack_t`. -/
def gpsCmdAckFail : ℕ := 0
def gpsCmdAckExecSuccess : ℕ := 3

inductive GpsFormat
  | nmea | binary
  deriving DecidableEq

/-- The value of a `char`, which is signed here. -/
def charVal (b : UInt8) : ℤ := if b.toNat < 128 then b.toNat else (b.toNat : ℤ)-256

def toU16 (n : ℤ) : ℕ := (n % 65536).toNat

def toU8 (n : ℤ) : ℕ := (n % 256).toNat

def hexDigit (n : ℕ) : UInt8 := (lit "0123456789ABCDEF").getD n 0

/-- `Hex_Str[i]`. The shift of a negative `char` gives a negative index; `below k` is the byte
that stands `k` places in front of the table. -/
def hexStr (below : ℕ → UInt8) (i : ℤ) : UInt8 :=
  if 0 ≤ i then hexDigit i.toNat else below i.natAbs

/-- A byte of `Hex_Str` against a `char`: one is unsigned, the other signed. -/
def hexMatches (digit c : UInt8) : Bool := (digit.toNat : ℤ) = charVal c

def gpsCheckParity (below : ℕ → UInt8) (str : List UInt8) : Bool :=
  match strstr (cstring str) (lit "*") with
  | none => false
  | some _ =>
    let body := (str.drop 2).takeWhile (· ≠ 42)
    let result := body.foldl (· ^^^ ·) (str.getD 1 0)
    let i := body.length+2
    hexMatches (hexStr below (charVal result / 16)) (str.getD (i+1) 0) &&
      hexMatches (hexDigit (result.toNat % 16)) (str.getD (i+2) 0)

def gpsCheckParityBinary (data : List UInt8) : Bool :=
  let len := toU16 ((data.getD 2 0).toNat+256*(data.getD 3 0).toNat-3)
  let result := ((List.range len).drop 3).foldl (fun r i => r ^^^ data.getD i 0) (data.getD 2 0)
  result = data.getD len 0

def gpsIsCmdValid (cmd : ℕ) : Bool :=
  [GpsCmd.ack,.ackGpd,.reboot,.eraseInfoInFlash,.standbyMode,.nmeaOutputInterval,.lpMode,
    .nmeaOutputQzss,.qzss,.searchMode,.format,.sbas,.nmeaOutputFreq,.setRtcTime,.getVersion,
    .ackVersion,.gpdPack,.setLocationTime,.fixMode].any fun c => cmd = c.toNat

def gpsIsCmdAckValid (ack : ℕ) : Bool := ack = 0 || ack = 1 || ack = 2 || ack = 3

def sentenceNumber (index : List UInt8) : ℕ :=
  toU16 ((charVal (index.getD 5 0)-48)*100+(charVal (index.getD 6 0)-48)*10+
    (charVal (index.getD 7 0)-48))

def gpsGetAckCmd (str : List UInt8) : ℕ :=
  match strstr (cstring str) (lit "$PGKC") with
  | none => GpsCmd.fail.toNat
  | some index =>
    let ackCmd0 := sentenceNumber (str.drop index)
    if gpsIsCmdValid ackCmd0 then ackCmd0 else GpsCmd.fail.toNat

def isBinary (data : List UInt8) : Bool := data.getD 0 0 = 0xaa && data.getD 1 0 = 0xf0

def gpsGetAckCmdBinary (data : List UInt8) : ℕ :=
  if ¬ isBinary data then GpsCmd.fail.toNat
  else
    let ackCmd0 := (data.getD 4 0).toNat+256*(data.getD 5 0).toNat
    if gpsIsCmdValid ackCmd0 then ackCmd0 else GpsCmd.fail.toNat

/-- The loop of `GPS_AckCheck` over the first field. -/
def fieldNumber (field : List UInt8) : ℕ :=
  field.foldl (fun (ackCmd : ℕ) c => toU16 (ackCmd*10+(charVal c-48))) 0

def ackResult (ackCmd result cmdSend : ℕ) : ℕ :=
  if ¬ gpsIsCmdValid ackCmd then gpsCmdAckFail
  else if ackCmd ≠ cmdSend then gpsCmdAckFail
  else if ¬ gpsIsCmdAckValid result then gpsCmdAckFail
  else result

def gpsAckCheck (ackStr : List UInt8) (cmdSend : ℕ) : ℕ :=
  if isBinary ackStr then
    ackResult ((ackStr.getD 6 0).toNat+256*(ackStr.getD 7 0).toNat) (ackStr.getD 8 0).toNat cmdSend
  else
    match strstr (cstring ackStr) (lit "$PGKC") with
    | none => GpsCmd.fail.toNat
    | some header =>
      match strstr ((cstring ackStr).drop (header+5)) (lit ",") with
      | none => GpsCmd.fail.toNat
      | some comma =>
        let index := header+5+comma
        match strstr ((cstring ackStr).drop (index+1)) (lit ",") with
        | none => GpsCmd.fail.toNat
        | some length =>
          ackResult (fieldNumber (((cstring ackStr).drop (index+1)).take length))
            (toU8 (charVal (ackStr.getD (index+1+length+1) 0)-48)) cmdSend

/-- What `GPS_CMDSend` makes of the command before it is sent. -/
def gpsCmdSend (below : ℕ → UInt8) (str : List UInt8) : GpsFormat → List UInt8
  | .nmea =>
    let result := (str.drop 2).foldl (· ^^^ ·) (str.getD 1 0)
    str++[42,hexStr below (charVal result / 16),hexDigit (result.toNat % 16),13,10]
  | .binary =>
    let len := toU16 ((str.getD 2 0).toNat+256*(str.getD 3 0).toNat-3)
    let result := ((List.range len).drop 3).foldl (fun r i => r ^^^ str.getD i 0) (str.getD 2 0)
    ((str.set len result).set (len+1) 13).set (len+2) 10

/-- `GPS_SendCMDWaitAck`: the number of the acknowledgement and where it stands. `gpsAckMsg`
is the memory that begins with the message, or `none` after a time-out. -/
def gpsSendCmdWaitAck (below : ℕ → UInt8) (gpsAckMsg : Option (List UInt8)) :
    ℕ × List UInt8 :=
  match gpsAckMsg with
  | none => (GpsCmd.fail.toNat,[])
  | some mem =>
    if isBinary mem then
      if ¬ gpsCheckParityBinary mem then (GpsCmd.fail.toNat,[])
      else (gpsGetAckCmdBinary mem,mem)
    else
      match strstr (cstring mem) (lit "$PGKC") with
      | none => (GpsCmd.fail.toNat,[])
      | some index =>
        let ack := mem.drop index
        if ¬ gpsCheckParity below ack then (GpsCmd.fail.toNat,[]) else (gpsGetAckCmd ack,ack)

/-- The decision of `GPS_SendWaiteNormalAck` on the acknowledgement it got. -/
def normalAck (cmdSend : ℕ) (cmdStr : List UInt8) (ackCmd : ℕ) (ackStr : List UInt8) : Bool :=
  if ackCmd ≠ GpsCmd.ack.toNat ∧ ackCmd ≠ GpsCmd.ackGpd.toNat then false
  else if ackCmd = GpsCmd.ackGpd.toNat then
    ¬ (cmdStr.getD 6 0 ≠ ackStr.getD 6 0 ∨ cmdStr.getD 7 0 ≠ ackStr.getD 7 0 ∨
      ackStr.getD 8 0 ≠ 1)
  else gpsAckCheck ackStr cmdSend = gpsCmdAckExecSuccess

def gpsSendWaiteNormalAck (below : ℕ → UInt8) (cmdSend : GpsCmd) (cmdStr : List UInt8)
    (format : GpsFormat) (gpsAckMsg : Option (List UInt8)) : Bool :=
  let r := gpsSendCmdWaitAck below gpsAckMsg
  normalAck cmdSend.toNat (gpsCmdSend below cmdStr format) r.1 r.2

end GpsCommand
end A9GTracker
