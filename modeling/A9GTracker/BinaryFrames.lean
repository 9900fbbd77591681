import Mathlib.Data.List.Basic
import A9GTracker.Chop
import A9GTracker.CommandChecksum

/-! The binary commands of `libs/gps/src/gps.c` on the wire. They are put together in a buffer
on the stack, of which no byte that the command does not set goes out. -/
namespace A9GTracker
namespace BinaryFrames

open CString GpsCommand AckCheck CommandChecksum Chop

/-! ### The commands -/

def le16 (n : ℕ) : List UInt8 := [UInt8.ofNat n,UInt8.ofNat (n/256)]

def gpdPackStr (temp : List UInt8) (index : UInt16) (pack : Option (List UInt8)) : List UInt8 :=
  let len := if index = 0xffff then 0x000b else 523
  [0xaa,0xf0]++le16 len++le16 GpsCmd.gpdPack.toNat++le16 index.toNat++
    match pack with
    | some pack => pack.take 512++temp.drop 520
    | none => temp.drop 8

/-- The bytes that `GPS_SetNMEAMode` sets in `temp`, and the rest of it. -/
def nmeaModeStr (temp : List UInt8) : List UInt8 :=
  [0xaa,0xf0]++le16 14++le16 GpsCmd.format.toNat++0::(le16 9600++le16 0)++temp.drop 11

def gpsSendGpdPack (below : ℕ → UInt8) (gpsAckMsg : Option (List UInt8)) (temp : List UInt8)
    (index : UInt16) (pack : Option (List UInt8)) : Bool :=
  gpsSendWaiteNormalAck below .gpdPack (gpdPackStr temp index pack) .binary gpsAckMsg

def gpsSetNmeaMode (below : ℕ → UInt8) (gpsAckMsg : Option (List UInt8)) (temp : List UInt8) :
    Bool :=
  gpsSendWaiteNormalAck below .format (nmeaModeStr temp) .binary gpsAckMsg

/-- The binary commands as they are given: a pack, the end of the packs, the switch back. -/
inductive BinaryCommand
  | pack (index : UInt16) (hindex : index ≠ 0xffff) (bytes : List UInt8)
    (hbytes : bytes.length = 512)
  | packsEnd
  | nmeaMode

/-- The buffer when it is handed to `GPS_SendWaiteNormalAck`. -/
def BinaryCommand.str (temp : List UInt8) : BinaryCommand → List UInt8
  | .pack index _ bytes _ => gpdPackStr temp index (some bytes)
  | .packsEnd => gpdPackStr temp 0xffff none
  | .nmeaMode => nmeaModeStr temp

def BinaryCommand.number : BinaryCommand → GpsCmd
  | .pack .. | .packsEnd => .gpdPack
  | .nmeaMode => .format

/-- The call of the driver that gives the command. -/
def BinaryCommand.run (below : ℕ → UInt8) (gpsAckMsg : Option (List UInt8)) (temp : List UInt8) :
    BinaryCommand → Bool
  | .pack index _ bytes _ => gpsSendGpdPack below gpsAckMsg temp index (some bytes)
  | .packsEnd => gpsSendGpdPack below gpsAckMsg temp 0xffff none
  | .nmeaMode => gpsSetNmeaMode below gpsAckMsg temp

theorem BinaryCommand.run_eq (below : ℕ → UInt8) (gpsAckMsg : Option (List UInt8))
    (temp : List UInt8) (c : BinaryCommand) :
    c.run below gpsAckMsg temp =
      gpsSendWaiteNormalAck below c.number (c.str temp) .binary gpsAckMsg := by
  cases c <;> rfl

def BinaryCommand.payload : BinaryCommand → List UInt8
  | .pack index _ bytes _ => le16 index.toNat++bytes
  | .packsEnd => [0xff,0xff]
  | .nmeaMode => [0,0x80,0x25,0,0]

def BinaryCommand.head (c : BinaryCommand) : List UInt8 :=
  [0xaa,0xf0]++le16 (c.payload.length+9)++le16 c.number.toNat

theorem BinaryCommand.length_payload (c : BinaryCommand) : c.payload.length ≤ 514 := by
  cases c with
  | pack index _ bytes hbytes => simp [payload,le16,hbytes]
  | packsEnd => decide
  | nmeaMode => decide

theorem BinaryCommand.str_eq {temp : List UInt8} (htemp : temp.length = 536) (c : BinaryCommand) :
    ∃ rest, c.str temp = c.head++c.payload++rest ∧ 3 ≤ rest.length := by
  cases c with
  | pack index hindex bytes hbytes =>
    refine ⟨temp.drop 520,?_,by rw [List.length_drop]; omega⟩
    have hlength : (le16 index.toNat++bytes).length+9 = 523 := by simp [le16,hbytes]
    simp only [str,gpdPackStr,head,payload,number,hlength]
    rw [if_neg hindex,List.take_of_length_le (by omega)]
    simp
  | packsEnd =>
    refine ⟨temp.drop 8,?_,by rw [List.length_drop]; omega⟩
    rfl
  | nmeaMode =>
    refine ⟨temp.drop 11,?_,by rw [List.length_drop]; omega⟩
    rfl

theorem BinaryCommand.length_front (c : BinaryCommand) :
    (c.head++c.payload).length = c.payload.length+6 := by
  rw [List.length_append,Nat.add_comm]
  rfl

theorem le16_value {n : ℕ} (h : n < 65536) :
    (UInt8.ofNat n).toNat+256*(UInt8.ofNat (n/256)).toNat = n := by
  rw [UInt8.toNat_ofNat',UInt8.toNat_ofNat']
  omega

def BinaryCommand.sent (below : ℕ → UInt8) (temp : List UInt8) (c : BinaryCommand) : List UInt8 :=
  binaryFrame below (c.str temp)

/-- The checksum is taken from the length field on. -/
def BinaryCommand.sum (c : BinaryCommand) : UInt8 := (c.head.drop 2++c.payload).foldl (· ^^^ ·) 0

theorem BinaryCommand.declaredLength_str {temp : List UInt8} (htemp : temp.length = 536)
    (c : BinaryCommand) : declaredLength (c.str temp) = c.payload.length+9 := by
  obtain ⟨rest,hstr,-⟩ := c.str_eq htemp
  have hle := c.length_payload
  rw [hstr]
  exact le16_value (by omega)

theorem BinaryCommand.sent_eq (below : ℕ → UInt8) {temp : List UInt8} (htemp : temp.length = 536)
    (c : BinaryCommand) : c.sent below temp = c.head++c.payload++[c.sum,13,10] := by
  obtain ⟨rest,hstr,hrest⟩ := c.str_eq htemp
  have hdeclared := c.declaredLength_str htemp
  have hhead := c.length_front
  have hlength : (c.str temp).length = c.payload.length+6+rest.length := by
    rw [hstr,List.length_append,hhead]
  have htake : (c.str temp).take (c.payload.length+6) = c.head++c.payload := by
    rw [hstr,List.take_left' hhead]
  have hsum : binarySum (c.str temp) (c.payload.length+6) = c.sum := by
    rw [binarySum,htake]
    have hfirst : (c.str temp).getD 2 0 = (0 : UInt8) ^^^ UInt8.ofNat (c.payload.length+9) := by
      rw [hstr,UInt8.zero_xor]
      rfl
    rw [hfirst]
    rfl
  rw [sent,binaryFrame_eq below (by omega) (by omega),hdeclared]
  change (c.str temp).take (c.payload.length+6)++[binarySum (c.str temp) (c.payload.length+6),13,10]
    = _
  rw [htake,hsum]

/-! ### Reading a stream of frames -/

def frameLength (xs : List UInt8) : ℕ :=
  if isBinary xs ∧ 9 ≤ declaredLength xs ∧ declaredLength xs ≤ xs.length then declaredLength xs
  else 0

/-- A receiver of one frame: the number and the payload, if the frame carries its checksum. -/
def readBinary (frame : List UInt8) : Option (ℕ × List UInt8) :=
  let body := frame.take (frame.length-3)
  if frame.drop (frame.length-3) = [(body.drop 2).foldl (· ^^^ ·) 0,13,10] then
    some (declaredLength (body.drop 2),body.drop 6)
  else none

def readFrames (xs : List UInt8) : List (Option (ℕ × List UInt8)) :=
  (chop frameLength xs.length xs).map readBinary

theorem frameLength_le (xs : List UInt8) : frameLength xs ≤ xs.length := by
  rw [frameLength]
  split_ifs with h
  · exact h.2.2
  · exact Nat.zero_le _

theorem BinaryCommand.number_lt (c : BinaryCommand) :
    c.number.toNat < 65536 ∧ gpsIsCmdValid c.number.toNat = true := by
  cases c <;> (simp only [number]; decide)

section
variable (below : ℕ → UInt8) {temp : List UInt8} (htemp : temp.length = 536) (c : BinaryCommand)
include htemp

theorem BinaryCommand.length_sent : (c.sent below temp).length = c.payload.length+9 := by
  rw [c.sent_eq below htemp,List.length_append,List.length_append,Nat.add_comm c.head.length]
  rfl

theorem BinaryCommand.declaredLength_sent (ys : List UInt8) :
    declaredLength (c.sent below temp++ys) = c.payload.length+9 := by
  have hle := c.length_payload
  rw [c.sent_eq below htemp]
  exact le16_value (by omega)

theorem BinaryCommand.frameLength_sent (ys : List UInt8) :
    frameLength (c.sent below temp++ys) = (c.sent below temp).length := by
  have hlength := c.length_sent below htemp
  have hdeclared := c.declaredLength_sent below htemp ys
  have hbinary : isBinary (c.sent below temp++ys) = true := by
    rw [c.sent_eq below htemp]
    rfl
  rw [frameLength,if_pos ⟨hbinary,by omega,by rw [List.length_append]; omega⟩]
  omega

theorem BinaryCommand.frameLength_take {n : ℕ} (hn : n < (c.sent below temp).length) :
    frameLength ((c.sent below temp).take n) = 0 := by
  have hlength := c.length_sent below htemp
  have hdeclared := c.declaredLength_sent below htemp []
  rw [List.append_nil] at hdeclared
  rw [frameLength]
  split_ifs with h
  · obtain ⟨-,hnine,hle⟩ := h
    rw [List.length_take] at hle
    -- the length field is in the part that is there
    have hget : ∀ k < 4, ((c.sent below temp).take n).getD k 0 = (c.sent below temp).getD k 0 := by
      intro k hk
      rw [List.getD_eq_getElem?_getD,List.getElem?_take_of_lt (by omega),
        List.getD_eq_getElem?_getD]
    have hsame : declaredLength ((c.sent below temp).take n) = c.payload.length+9 := by
      rw [← hdeclared,declaredLength,hget 2 (by decide),hget 3 (by decide)]
      rfl
    omega
  · rfl

theorem BinaryCommand.readBinary_sent :
    readBinary (c.sent below temp) = some (c.number.toNat,c.payload) := by
  have hnumber := c.number_lt.1
  have hbody : (c.head++c.payload).length = (c.sent below temp).length-3 := by
    rw [c.length_front,c.length_sent below htemp]
    rfl
  have hframe := c.sent_eq below htemp
  have htake : (c.sent below temp).take ((c.sent below temp).length-3) = c.head++c.payload := by
    rw [← hbody,hframe,List.take_left]
  have hdrop : (c.sent below temp).drop ((c.sent below temp).length-3) = [c.sum,13,10] := by
    rw [← hbody,hframe,List.drop_left]
  have hvalue : declaredLength ((c.head++c.payload).drop 2) = c.number.toNat := le16_value hnumber
  have hsum : [c.sum,13,10] = [((c.head++c.payload).drop 2).foldl (· ^^^ ·) 0,13,10] := rfl
  rw [readBinary,htake,hdrop]
  simp only [if_pos hsum,hvalue]
  rfl

end

/-- The bytes of `temp` in `GPS_SendGPDPack` and `GPS_SetNMEAMode` before they are set. -/
structure Temp where
  bytes : List UInt8
  size : bytes.length = 536

/-- A frame fits `temp`, and the driver's own check and number are those of the command. -/
structure Framed (below : ℕ → UInt8) (temp : Temp) (c : BinaryCommand) : Prop where
  fits : (c.sent below temp.bytes).length ≤ 536
  checked : gpsCheckParityBinary (c.sent below temp.bytes) = true
  number : gpsGetAckCmdBinary (c.sent below temp.bytes) = c.number.toNat

theorem BinaryCommand.framed (below : ℕ → UInt8) (temp : Temp) (c : BinaryCommand) :
    Framed below temp c := by
  have hlength := c.length_sent below temp.size
  have hle := c.length_payload
  refine ⟨by omega,?_,?_⟩
  · have hdeclared := c.declaredLength_str temp.size
    obtain ⟨rest,hstr,hrest⟩ := c.str_eq temp.size
    have hhead := c.length_front
    have hstrlen : (c.str temp.bytes).length = c.payload.length+6+rest.length := by
      rw [hstr,List.length_append,hhead]
    exact (binary_checked below (by omega) (by omega)).accepted
  · have hbinary : isBinary (c.sent below temp.bytes) = true := by
      rw [c.sent_eq below temp.size]
      rfl
    have hvalue : ((c.sent below temp.bytes).getD 4 0).toNat+
        256*((c.sent below temp.bytes).getD 5 0).toNat = c.number.toNat := by
      rw [c.sent_eq below temp.size]
      exact le16_value c.number_lt.1
    simp only [gpsGetAckCmdBinary,hbinary,hvalue,c.number_lt.2,not_true_eq_false,if_false,if_true]

theorem le16_inj {n m : ℕ} (hn : n < 65536) (hm : m < 65536) (h : le16 n = le16 m) : n = m := by
  obtain ⟨hlow,hrest⟩ := List.cons.inj h
  have hhigh := (List.cons.inj hrest).1
  rw [← le16_value hn,hlow,hhigh,le16_value hm]

theorem BinaryCommand.payload_injective : Function.Injective payload := by
  intro c d h
  have hlength := congrArg List.length h
  cases c with
  | pack index hindex bytes hbytes =>
    cases d with
    | pack index' hindex' bytes' hbytes' =>
      obtain ⟨hle,rfl⟩ := List.append_inj h rfl
      have hvalue := le16_inj index.toNat_lt index'.toNat_lt hle
      obtain rfl := UInt16.toNat_inj.1 hvalue
      rfl
    | packsEnd | nmeaMode => simp [payload,le16,hbytes] at hlength
  | packsEnd =>
    cases d with
    | pack index hindex bytes hbytes => simp [payload,le16,hbytes] at hlength
    | packsEnd => rfl
    | nmeaMode => simp [payload] at hlength
  | nmeaMode =>
    cases d with
    | pack index hindex bytes hbytes => simp [payload,le16,hbytes] at hlength
    | packsEnd => simp [payload] at hlength
    | nmeaMode => rfl

def stream (below : ℕ → UInt8) (cs : List (BinaryCommand × Temp)) : List UInt8 :=
  (cs.map fun c => c.1.sent below c.2.bytes).flatten

def fields (cs : List (BinaryCommand × Temp)) : List (Option (ℕ × List UInt8)) :=
  cs.map fun c => some (c.1.number.toNat,c.1.payload)

theorem map_readBinary (below : ℕ → UInt8) (cs : List (BinaryCommand × Temp)) :
    (cs.map fun c => c.1.sent below c.2.bytes).map readBinary = fields cs := by
  rw [List.map_map,fields]
  exact List.map_congr_left fun c _ => c.1.readBinary_sent below c.2.size

/-- The frames of a stream of binary commands, however much of it has arrived, are those of the
first commands; the whole of it gives all of them back. -/
theorem binary_commands_read (below : ℕ → UInt8) :
    (∀ temp c, Framed below temp c) ∧
    (∀ cs n, readFrames ((stream below cs).take n) <+: fields cs) ∧
    (∀ cs, readFrames (stream below cs) = fields cs) ∧
      ∀ cs ds, stream below cs = stream below ds → cs.map Prod.fst = ds.map Prod.fst := by
  have hwhole : ∀ cs, readFrames (stream below cs) = fields cs := by
    intro cs
    have hpieces : ∀ p ∈ cs.map fun c => c.1.sent below c.2.bytes,
        p ≠ [] ∧ ∀ ys, frameLength (p++ys) = p.length := by
      intro p hp
      obtain ⟨c,-,rfl⟩ := List.mem_map.1 hp
      have hlength := c.1.length_sent below c.2.size
      exact ⟨List.ne_nil_of_length_pos (by omega),c.1.frameLength_sent below c.2.size⟩
    have hchop := chop_flatten frameLength_le hpieces []
    rw [List.append_nil] at hchop
    rw [readFrames,stream,hchop,← map_readBinary below]
    simp [chop]
  refine ⟨fun temp c => c.framed below temp,fun cs n => ?_,hwhole,fun cs ds h => ?_⟩
  · rw [readFrames,stream,← map_readBinary below]
    refine List.IsPrefix.map _ (chop_take frameLength_le ?_ n)
    intro p hp
    obtain ⟨c,-,rfl⟩ := List.mem_map.1 hp
    have hlength := c.1.length_sent below c.2.size
    exact ⟨List.ne_nil_of_length_pos (by omega),c.1.frameLength_sent below c.2.size,
      fun n hn => c.1.frameLength_take below c.2.size hn⟩
  · have hfields : fields cs = fields ds := by rw [← hwhole cs,h,hwhole ds]
    have hpayload : (cs.map Prod.fst).map BinaryCommand.payload =
        (ds.map Prod.fst).map BinaryCommand.payload := by
      have hsnd := congrArg (List.map fun r => (r.map Prod.snd).getD []) hfields
      simpa [fields,Function.comp_def] using hsnd
    exact List.map_injective_iff.2 BinaryCommand.payload_injective hpayload

end BinaryFrames
end A9GTracker
