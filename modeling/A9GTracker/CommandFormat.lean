import Mathlib.Data.List.Basic
import A9GTracker.CommandChecksum
import A9GTracker.PrintedNumbers

/-! The text commands of `libs/gps/src/gps.c` on the wire: whatever their arguments are, they
fit the buffer, pass the checks and are read back as they were given. -/
namespace A9GTracker
namespace CommandFormat

open CString Utils ConfigStore Decimal Network GpsCommand AckCheck CommandChecksum PrintedNumbers

/-! ### The commands -/

inductive GpsRebootMode
  | hot | warm | cold
  deriving DecidableEq

def GpsRebootMode.toNat : GpsRebootMode → ℕ
  | .hot => 1
  | .warm => 2
  | .cold => 3

inductive GpsStandbyMode
  | stop | sleep
  deriving DecidableEq

def GpsStandbyMode.toNat : GpsStandbyMode → ℕ
  | .stop => 0
  | .sleep => 1

inductive GpsLpMode
  | normal | lp | supperLp
  deriving DecidableEq

def GpsLpMode.toNat : GpsLpMode → ℕ
  | .normal => 0
  | .lp => 8
  | .supperLp => 9

inductive GpsFixMode
  | normal | lowSpeed | highSpeed | elevation
  deriving DecidableEq

def GpsFixMode.toNat : GpsFixMode → ℕ
  | .normal => 0
  | .lowSpeed => 1
  | .highSpeed => 2
  | .elevation => 3

structure GpsNmeaOutputFreq where
  gll : UInt8
  rmc : UInt8
  vtg : UInt8
  gga : UInt8
  gsa : UInt8
  gsv : UInt8
  grs : UInt8
  gst : UInt8
  deriving DecidableEq

/-- `RTC_Time_t` as far as the driver reads it. -/
structure RtcTime where
  year : UInt16
  month : UInt8
  day : UInt8
  hour : UInt8
  minute : UInt8
  second : UInt8
  deriving DecidableEq

def RtcTime.fields (t : RtcTime) : List ℕ :=
  [t.year.toNat,t.month.toNat,t.day.toNat,t.hour.toNat,t.minute.toNat,t.second.toNat]

def FieldChar (c : UInt8) : Prop := CommandChar c ∧ c ≠ 44

instance (c : UInt8) : Decidable (FieldChar c) :=
  inferInstanceAs (Decidable ((c.toNat < 128 ∧ c ≠ 42 ∧ c ≠ 0) ∧ c ≠ 44))

/-- The text of a number fits the 11 bytes that `gcvt` is given. Six digits can need 12 characters,
as in `-1.23456e-05`. -/
structure GcvtFits (text : List UInt8) : Prop where
  short : text.length ≤ 10
  chars : ∀ c ∈ text, FieldChar c

/-- What `snprintf` leaves in `temp`, of which it may use 530 bytes. -/
def commandText (cmdSend : GpsCmd) (args : List (List UInt8)) : List UInt8 :=
  (lit "$PGKC"++printNat3 cmdSend.toNat++args.flatMap (44::·)).take 529

/-- The common shape of the commands: format, send and wait for the acknowledgement. -/
def sendText (below : ℕ → UInt8) (gpsAckMsg : Option (List UInt8)) (cmdSend : GpsCmd)
    (args : List (List UInt8)) : Bool :=
  gpsSendWaiteNormalAck below cmdSend (commandText cmdSend args) .nmea gpsAckMsg

section commands
variable (below : ℕ → UInt8) (gpsAckMsg : Option (List UInt8))

def gpsReboot (mode : GpsRebootMode) : Bool :=
  sendText below gpsAckMsg .reboot ([mode.toNat,1].map printNat)

def gpsClearInfoInFlash : Bool := sendText below gpsAckMsg .eraseInfoInFlash []

def gpsSetStandbyMode (mode : GpsStandbyMode) : Bool :=
  sendText below gpsAckMsg .standbyMode ([mode.toNat].map printNat)

def gpsSetOutputInterval (intervalMs : UInt16) : Bool :=
  sendText below gpsAckMsg .nmeaOutputInterval ([intervalMs.toNat].map printNat)

def gpsSetLpMode (mode : GpsLpMode) : Bool :=
  sendText below gpsAckMsg .lpMode ([mode.toNat].map printNat)

def gpsSetQzssOutput (openOutput : Bool) : Bool :=
  sendText below gpsAckMsg .nmeaOutputQzss ([openOutput.toNat].map printNat)

def gpsSetQzssEnable (enable : Bool) : Bool :=
  sendText below gpsAckMsg .qzss ([enable.toNat].map printNat)

def gpsSetSearchMode (gps glonass beidou galieo : Bool) : Bool :=
  sendText below gpsAckMsg .searchMode
    ([gps.toNat,glonass.toNat,beidou.toNat,galieo.toNat].map printNat)

def gpsSetSbasEnable (enable : Bool) : Bool :=
  sendText below gpsAckMsg .sbas ([enable.toNat].map printNat)

/-- The arguments of `GPS_SetNmeaOutputFreq`, ten of which are constant. -/
def GpsNmeaOutputFreq.fields (config : GpsNmeaOutputFreq) : List ℕ :=
  [config.gll.toNat,config.rmc.toNat,config.vtg.toNat,config.gga.toNat,config.gsa.toNat,
    config.gsv.toNat,config.grs.toNat,config.gst.toNat,0,0,0,0,0,0,0,0,0,0]

def gpsSetNmeaOutputFreq (config : GpsNmeaOutputFreq) : Bool :=
  sendText below gpsAckMsg .nmeaOutputFreq (config.fields.map printNat)

def gpsSetRtcTime (t : RtcTime) : Bool :=
  sendText below gpsAckMsg .setRtcTime (t.fields.map printNat)

/-- `GPS_GetVersion`: the version, or `none` on failure. Without a comma the star is searched for
from the null pointer, and there is no outcome. -/
def gpsGetVersion (len : UInt8) : Option (Option (List UInt8)) :=
  let r := gpsSendCmdWaitAck below gpsAckMsg
  if r.1 ≠ GpsCmd.ackVersion.toNat then some none
  else
    match strstr (cstring r.2) (lit ",") with
    | none => none
    | some index =>
      match strstr ((cstring r.2).drop index) (lit "*") with
      | none => some none
      | some index2 => some (some ((((cstring r.2).drop index).take index2).take (len.toNat-1)))

/-- `GPS_SetLocationTime`; the three numbers are the texts that `gcvt` writes. -/
def gpsSetLocationTime (latitude longitude altitude : List UInt8) (t : RtcTime) : Bool :=
  sendText below gpsAckMsg .setLocationTime
    ([latitude,longitude,altitude]++t.fields.map printNat)

def gpsSetFixMode (mode : GpsFixMode) : Bool :=
  sendText below gpsAckMsg .fixMode ([mode.toNat].map printNat)

def gpsSetBinaryMode : Bool := sendText below gpsAckMsg .format ([1,9600].map printNat)

end commands

inductive Command
  | reboot (mode : GpsRebootMode)
  | clearInfoInFlash
  | setStandbyMode (mode : GpsStandbyMode)
  | setOutputInterval (intervalMs : UInt16)
  | setLpMode (mode : GpsLpMode)
  | setQzssOutput (openOutput : Bool)
  | setQzssEnable (enable : Bool)
  | setSearchMode (gps glonass beidou galieo : Bool)
  | setSbasEnable (enable : Bool)
  | setNmeaOutputFreq (config : GpsNmeaOutputFreq)
  | setRtcTime (t : RtcTime)
  | getVersion
  | setLocationTime (latitude longitude altitude : List UInt8) (t : RtcTime)
  | setFixMode (mode : GpsFixMode)
  | setBinaryMode

def Command.number : Command → GpsCmd
  | .reboot _ => .reboot
  | .clearInfoInFlash => .eraseInfoInFlash
  | .setStandbyMode _ => .standbyMode
  | .setOutputInterval _ => .nmeaOutputInterval
  | .setLpMode _ => .lpMode
  | .setQzssOutput _ => .nmeaOutputQzss
  | .setQzssEnable _ => .qzss
  | .setSearchMode .. => .searchMode
  | .setSbasEnable _ => .sbas
  | .setNmeaOutputFreq _ => .nmeaOutputFreq
  | .setRtcTime _ => .setRtcTime
  | .getVersion => .getVersion
  | .setLocationTime .. => .setLocationTime
  | .setFixMode _ => .fixMode
  | .setBinaryMode => .format

def Command.args : Command → List (List UInt8)
  | .reboot mode => [mode.toNat,1].map printNat
  | .clearInfoInFlash | .getVersion => []
  | .setStandbyMode mode => [mode.toNat].map printNat
  | .setOutputInterval intervalMs => [intervalMs.toNat].map printNat
  | .setLpMode mode => [mode.toNat].map printNat
  | .setQzssOutput b | .setQzssEnable b | .setSbasEnable b => [b.toNat].map printNat
  | .setSearchMode gps glonass beidou galieo =>
    [gps.toNat,glonass.toNat,beidou.toNat,galieo.toNat].map printNat
  | .setNmeaOutputFreq config => config.fields.map printNat
  | .setRtcTime t => t.fields.map printNat
  | .setLocationTime latitude longitude altitude t =>
    [latitude,longitude,altitude]++t.fields.map printNat
  | .setFixMode mode => [mode.toNat].map printNat
  | .setBinaryMode => [1,9600].map printNat

def Command.run (below : ℕ → UInt8) (gpsAckMsg : Option (List UInt8)) (len : UInt8) :
    Command → Option Bool
  | .reboot mode => some (gpsReboot below gpsAckMsg mode)
  | .clearInfoInFlash => some (gpsClearInfoInFlash below gpsAckMsg)
  | .setStandbyMode mode => some (gpsSetStandbyMode below gpsAckMsg mode)
  | .setOutputInterval intervalMs => some (gpsSetOutputInterval below gpsAckMsg intervalMs)
  | .setLpMode mode => some (gpsSetLpMode below gpsAckMsg mode)
  | .setQzssOutput b => some (gpsSetQzssOutput below gpsAckMsg b)
  | .setQzssEnable b => some (gpsSetQzssEnable below gpsAckMsg b)
  | .setSearchMode gps glonass beidou galieo =>
    some (gpsSetSearchMode below gpsAckMsg gps glonass beidou galieo)
  | .setSbasEnable b => some (gpsSetSbasEnable below gpsAckMsg b)
  | .setNmeaOutputFreq config => some (gpsSetNmeaOutputFreq below gpsAckMsg config)
  | .setRtcTime t => some (gpsSetRtcTime below gpsAckMsg t)
  | .getVersion => (gpsGetVersion below gpsAckMsg len).map Option.isSome
  | .setLocationTime latitude longitude altitude t =>
    some (gpsSetLocationTime below gpsAckMsg latitude longitude altitude t)
  | .setFixMode mode => some (gpsSetFixMode below gpsAckMsg mode)
  | .setBinaryMode => some (gpsSetBinaryMode below gpsAckMsg)

theorem Command.run_eq (below : ℕ → UInt8) (gpsAckMsg : Option (List UInt8)) (len : UInt8)
    {c : Command} (h : c.number ≠ .getVersion) :
    c.run below gpsAckMsg len = some (sendText below gpsAckMsg c.number c.args) := by
  cases c <;> first | rfl | exact absurd rfl h

/-- The buffers of the call hold what is written to them. -/
def Command.Fits : Command → Prop
  | .setLocationTime latitude longitude altitude _ =>
    GcvtFits latitude ∧ GcvtFits longitude ∧ GcvtFits altitude
  | _ => True

/-! ### Arguments -/

/-- At most 18 arguments of at most 10 characters each. -/
structure ArgsFit (args : List (List UInt8)) : Prop where
  count : args.length ≤ 18
  short : ∀ a ∈ args, a.length ≤ 10
  chars : ∀ a ∈ args, ∀ c ∈ a, FieldChar c

theorem fieldChar_of_isDigits {text : List UInt8} (h : IsDigits text) :
    ∀ c ∈ text, FieldChar c := by
  intro c hc
  have hrange := toNat_of_isdigit (h c hc)
  have hne : ∀ b : UInt8, b.toNat < 48 → c ≠ b := by
    rintro b hb rfl
    omega
  exact ⟨⟨by omega,hne 42 (by decide),hne 0 (by decide)⟩,hne 44 (by decide)⟩

theorem argsFit_numbers {ns : List ℕ} (hcount : ns.length ≤ 18) (h : ∀ n ∈ ns, n < 65536) :
    ArgsFit (ns.map printNat) where
  count := by simpa using hcount
  short a ha := by
    obtain ⟨n,hn,rfl⟩ := List.mem_map.1 ha
    have hlt := h n hn
    exact CellInfo.printNat_length_le (by decide) (by omega)
  chars a ha := by
    obtain ⟨n,-,rfl⟩ := List.mem_map.1 ha
    exact fieldChar_of_isDigits (isDigits_printNat n)

theorem RtcTime.fields_count (t : RtcTime) : t.fields.length ≤ 18 := by simp [RtcTime.fields]

theorem RtcTime.fields_lt (t : RtcTime) : ∀ n ∈ t.fields, n < 65536 := by
  have hyear := t.year.toNat_lt
  have h8 : ∀ x : UInt8, x.toNat < 65536 := fun x => x.toNat_lt.trans (by decide)
  simp only [RtcTime.fields,List.forall_mem_cons]
  exact ⟨hyear,h8 _,h8 _,h8 _,h8 _,h8 _,by simp⟩

theorem GpsNmeaOutputFreq.fields_lt (config : GpsNmeaOutputFreq) :
    ∀ n ∈ config.fields, n < 65536 := by
  have h8 : ∀ x : UInt8, x.toNat < 65536 := fun x => x.toNat_lt.trans (by decide)
  simp only [GpsNmeaOutputFreq.fields,List.forall_mem_cons]
  exact ⟨h8 _,h8 _,h8 _,h8 _,h8 _,h8 _,h8 _,h8 _,by decide,by decide,by decide,by decide,
    by decide,by decide,by decide,by decide,by decide,by decide,by simp⟩

theorem toNat_le_one (b : Bool) : b.toNat < 65536 := by cases b <;> decide

theorem Command.argsFit {c : Command} (h : c.Fits) : ArgsFit c.args := by
  cases c with
  | reboot mode => exact argsFit_numbers (by simp) (by cases mode <;> decide)
  | clearInfoInFlash | getVersion => exact ⟨by decide,by decide,by decide⟩
  | setStandbyMode mode => exact argsFit_numbers (by simp) (by cases mode <;> decide)
  | setOutputInterval intervalMs =>
    exact argsFit_numbers (by simp) (by simpa using intervalMs.toNat_lt)
  | setLpMode mode => exact argsFit_numbers (by simp) (by cases mode <;> decide)
  | setQzssOutput b | setQzssEnable b | setSbasEnable b =>
    exact argsFit_numbers (by simp) (by simpa using toNat_le_one b)
  | setSearchMode gps glonass beidou galieo =>
    exact argsFit_numbers (by simp) (by simp [toNat_le_one])
  | setNmeaOutputFreq config => exact argsFit_numbers (le_refl 18) config.fields_lt
  | setRtcTime t => exact argsFit_numbers t.fields_count t.fields_lt
  | setLocationTime latitude longitude altitude t =>
    have htime := argsFit_numbers t.fields_count t.fields_lt
    obtain ⟨hlat,hlon,halt⟩ := h
    refine ⟨by simp [Command.args,RtcTime.fields],?_,?_⟩
    · intro a ha
      simp only [Command.args,List.cons_append,List.nil_append,List.mem_cons] at ha
      rcases ha with rfl | rfl | rfl | ha
      · exact hlat.short
      · exact hlon.short
      · exact halt.short
      · exact htime.short a ha
    · intro a ha
      simp only [Command.args,List.cons_append,List.nil_append,List.mem_cons] at ha
      rcases ha with rfl | rfl | rfl | ha
      · exact hlat.chars
      · exact hlon.chars
      · exact halt.chars
      · exact htime.chars a ha
  | setFixMode mode => exact argsFit_numbers (by simp) (by cases mode <;> decide)
  | setBinaryMode => exact argsFit_numbers (by decide) (by decide)

/-! ### The text on the wire -/

theorem intercalate_cons (name : List UInt8) (args : List (List UInt8)) :
    [44].intercalate (name::args) = name++args.flatMap (44::·) := by
  induction args generalizing name with
  | nil => simp
  | cons a args ih => rw [List.intercalate_cons_cons,ih,List.flatMap_cons]; simp

theorem length_flatMap_le {args : List (List UInt8)} (h : ∀ a ∈ args, a.length ≤ 10) :
    (args.flatMap (44::·)).length ≤ 11*args.length := by
  induction args with
  | nil => simp
  | cons a args ih =>
    have ha := h a (by simp)
    have hargs := ih fun b hb => h b (by simp [hb])
    simp only [List.flatMap_cons,List.length_append,List.length_cons]
    omega

theorem Command.number_valid (c : Command) :
    gpsIsCmdValid c.number.toNat = true ∧ c.number.toNat < 1000 := by
  cases c <;> (simp only [number]; decide)

def commandName (cmdSend : GpsCmd) : List UInt8 := lit "PGKC"++printNat3 cmdSend.toNat

theorem commandName_chars (cmdSend : GpsCmd) : ∀ x ∈ commandName cmdSend, FieldChar x := by
  intro x hx
  rcases List.mem_append.1 hx with hx | hx
  · exact (by decide +kernel : ∀ x ∈ lit "PGKC", FieldChar x) x hx
  · exact fieldChar_of_isDigits (isDigits_printNat3 _) x hx

theorem Command.length_name (c : Command) : (commandName c.number).length = 7 := by
  rw [commandName,List.length_append,length_printNat3 c.number_valid.2]
  rfl

def Command.body (c : Command) : List UInt8 := [44].intercalate (commandName c.number::c.args)

theorem Command.length_body {c : Command} (h : c.Fits) : c.body.length ≤ 205 := by
  have hargs := argsFit h
  have hlength := length_flatMap_le hargs.short
  have hname := c.length_name
  have hcount := hargs.count
  rw [body,intercalate_cons,List.length_append,hname]
  omega

theorem Command.text_eq {c : Command} (h : c.Fits) :
    commandText c.number c.args = 36::c.body := by
  have hlength := length_body h
  have hwhole : lit "$PGKC"++printNat3 c.number.toNat++c.args.flatMap (44::·) = 36::c.body := by
    rw [body,intercalate_cons]
    rfl
  rw [commandText,hwhole,List.take_of_length_le]
  rw [List.length_cons]
  omega

theorem Command.body_chars {c : Command} (h : c.Fits) : ∀ x ∈ c.body, CommandChar x := by
  intro x hx
  rw [body,intercalate_cons,List.mem_append,List.mem_flatMap] at hx
  rcases hx with hx | ⟨a,ha,hx⟩
  · exact (commandName_chars _ x hx).1
  · rcases List.mem_cons.1 hx with rfl | hx
    · exact ⟨by decide,by decide,by decide⟩
    · exact ((argsFit h).chars a ha x hx).1

theorem Command.body_ne_nil (c : Command) : c.body ≠ [] := by
  rw [body,intercalate_cons,commandName]
  simp [lit]

def Command.sent (below : ℕ → UInt8) (c : Command) : List UInt8 :=
  gpsCmdSend below (commandText c.number c.args) .nmea

theorem Command.sent_eq (below : ℕ → UInt8) {c : Command} (h : c.Fits) :
    c.sent below = 36::(c.body++[42,hexDigit ((checksum c.body).toNat/16),
      hexDigit ((checksum c.body).toNat%16),13,10]) := by
  rw [sent,text_eq h,gpsCmdSend_nmea below 36 c.body_ne_nil,checksumDigits,
    hexStr_checksum below fun x hx => (body_chars h x hx).1]

/-! ### Reading a command -/

end CommandFormat
end A9GTracker
