import Mathlib.Data.List.Basic
import Mathlib.Data.Rat.Defs
import Mathlib.Tactic.Common
import A9GTracker.Gps
import A9GTracker.Network

/-! The position data of `app/src/gps_tracker.c` with the calendar of `app/src/utils.c` and
the request body of the tracker task. -/
namespace A9GTracker
namespace Tracker

open CString Utils Minmea GpsParse Gps Network

/-! ### Numbers -/

/-- A `float` without its rounding; NaN is apart from all numbers. -/
inductive FloatVal
  | nan
  | num (q : ℚ)
  deriving DecidableEq

def FloatVal.mul : FloatVal → FloatVal → FloatVal
  | .num p, .num q => .num (p*q)
  | _, _ => .nan

def minmeaTofloat (f : MinmeaFloat) : FloatVal :=
  if f.scale = 0 then .nan else .num (f.value / f.scale)

/-- `minmea_tocoord`; the products are 32-bit integers and the divisions round towards zero.
Where the product has wrapped to zero the division traps. -/
def minmeaTocoord (f : MinmeaFloat) : Option FloatVal :=
  if f.scale = 0 then some .nan
  else if wrap32 (f.scale*100) = 0 then none
  else
    let degrees := f.value.tdiv (wrap32 (f.scale*100))
    let minutes := f.value.tmod (wrap32 (f.scale*100))
    some (.num (degrees+minutes / wrap32 (60*f.scale)))

/-- The products of the conversion do not wrap to zero. -/
def Convertible (f : MinmeaFloat) : Prop := f.scale = 0 ∨ ¬ 1073741824 ∣ f.scale

theorem minmeaTocoord_eq_none {f : MinmeaFloat} : minmeaTocoord f = none ↔ ¬ Convertible f := by
  have hwrap : wrap32 (f.scale*100) = 0 ↔ 1073741824 ∣ f.scale := by
    unfold wrap32
    omega
  unfold minmeaTocoord Convertible
  rw [← hwrap]
  split_ifs with hzero hdvd
  · simp [hzero]
  · simp [hzero,hdvd]
  · simp [hzero,hdvd]

/-! ### The calendar -/

def isLeapYear (year : ℤ) : Bool :=
  let year := year+1900
  year % 4 = 0 && (year % 100 ≠ 0 || year % 400 = 0)

def daysInMonth (month : ℕ) (year : ℤ) : ℤ :=
  if month = 1 ∧ isLeapYear year then 29
  else [31,28,31,30,31,30,31,31,30,31,30,31].getD month 0

/-- `mk_time` in exact arithmetic. The two loops that bring the month into the year are one
division. -/
def mkTime (date : MinmeaDate) (time : MinmeaTime) : ℤ :=
  let year := if date.year < 70 then date.year+100 else date.year
  let month := (date.month-1) % 12
  let year := year+(date.month-1) / 12
  let years := ((List.range (year-70).toNat).map fun (y : ℕ) =>
    if isLeapYear (70+y) then (366 : ℤ) else 365).sum
  let months := ((List.range month.toNat).map fun m => daysInMonth m year).sum
  let days := years+months+(date.day-1)
  days*86400+time.hours*3600+time.minutes*60+time.seconds

/-! ### The last position -/

structure GpsTrackerData where
  timestamp : ℤ
  latitude : FloatVal
  longitude : FloatVal
  speed : FloatVal
  bearing : FloatVal
  altitude : FloatVal
  accuracy : FloatVal
  deriving DecidableEq

def trackerDataInit : GpsTrackerData := ⟨0,.num 0,.num 0,.num 0,.num 0,.num 0,.num 0⟩

/-- `gps_Process`, which does not look at what it overwrites. `now` is the answer of
`time(NULL)`; all integers of the calendar have 32 bits. -/
def gpsProcess (gpsInfo : GpsInfo) (gpsUere : FloatVal) (now : ℤ) : Option GpsTrackerData := do
  let latitude ← minmeaTocoord gpsInfo.rmc.latitude
  let longitude ← minmeaTocoord gpsInfo.rmc.longitude
  return {
    timestamp :=
      if gpsInfo.rmc.valid then wrap32 (mkTime gpsInfo.rmc.date gpsInfo.rmc.time) else now
    latitude := latitude
    longitude := longitude
    speed := minmeaTofloat gpsInfo.rmc.speed
    bearing := minmeaTofloat gpsInfo.rmc.course
    altitude := minmeaTofloat gpsInfo.gga.altitude
    accuracy := (minmeaTofloat (gpsInfo.gsa 0).hdop).mul gpsUere }

/-- The data of a call that does not trap. -/
structure Processed (gpsInfo : GpsInfo) (gpsUere : FloatVal) (now : ℤ) (data : GpsTrackerData) :
    Prop where
  timestamp : data.timestamp =
    if gpsInfo.rmc.valid then wrap32 (mkTime gpsInfo.rmc.date gpsInfo.rmc.time) else now
  latitude : minmeaTocoord gpsInfo.rmc.latitude = some data.latitude
  longitude : minmeaTocoord gpsInfo.rmc.longitude = some data.longitude
  speed : data.speed = minmeaTofloat gpsInfo.rmc.speed
  bearing : data.bearing = minmeaTofloat gpsInfo.rmc.course
  altitude : data.altitude = minmeaTofloat gpsInfo.gga.altitude
  accuracy : data.accuracy = (minmeaTofloat (gpsInfo.gsa 0).hdop).mul gpsUere

theorem gpsProcess_eq_some {gpsInfo : GpsInfo} {gpsUere : FloatVal} {now : ℤ}
    {data : GpsTrackerData} :
    gpsProcess gpsInfo gpsUere now = some data ↔ Processed gpsInfo gpsUere now data := by
  constructor
  · intro h
    obtain ⟨latitude,hlat,h⟩ := Option.bind_eq_some_iff.1 h
    obtain ⟨longitude,hlon,h⟩ := Option.bind_eq_some_iff.1 h
    obtain rfl := Option.some.inj h
    exact ⟨rfl,hlat,hlon,rfl,rfl,rfl,rfl⟩
  · rintro ⟨hstamp,hlat,hlon,hspeed,hbearing,haltitude,haccuracy⟩
    obtain ⟨timestamp,latitude,longitude,speed,bearing,altitude,accuracy⟩ := data
    simp only at hstamp hlat hlon hspeed hbearing haltitude haccuracy
    subst hstamp hspeed hbearing haltitude haccuracy
    simp [gpsProcess,hlat,hlon]

theorem exists_gpsProcess {gpsInfo : GpsInfo} (gpsUere : FloatVal) (now : ℤ)
    {latitude longitude : FloatVal} (hlat : minmeaTocoord gpsInfo.rmc.latitude = some latitude)
    (hlon : minmeaTocoord gpsInfo.rmc.longitude = some longitude) :
    ∃ data, gpsProcess gpsInfo gpsUere now = some data ∧ data.latitude = latitude ∧
      data.longitude = longitude :=
  ⟨⟨_,latitude,longitude,_,_,_,_⟩,gpsProcess_eq_some.2 ⟨rfl,hlat,hlon,rfl,rfl,rfl,rfl⟩,rfl,rfl⟩

theorem processed_of_convertible {gpsInfo : GpsInfo} (gpsUere : FloatVal) (now : ℤ)
    (hlat : Convertible gpsInfo.rmc.latitude) (hlon : Convertible gpsInfo.rmc.longitude) :
    ∃ data, gpsProcess gpsInfo gpsUere now = some data ∧
      Processed gpsInfo gpsUere now data := by
  obtain ⟨latitude,hlat'⟩ := Option.ne_none_iff_exists'.1
    fun h => minmeaTocoord_eq_none.1 h hlat
  obtain ⟨longitude,hlon'⟩ := Option.ne_none_iff_exists'.1
    fun h => minmeaTocoord_eq_none.1 h hlon
  obtain ⟨data,hdata,-⟩ := exists_gpsProcess gpsUere now hlat' hlon'
  exact ⟨data,hdata,gpsProcess_eq_some.1 hdata⟩

def gpsGetLastLatitude (data : GpsTrackerData) : FloatVal := data.latitude

def gpsGetLastLongitude (data : GpsTrackerData) : FloatVal := data.longitude

structure TrackerState where
  gps : GpsState
  data : GpsTrackerData

def trackerBoot (log : LogSetting) : TrackerState := ⟨gpsBoot log,trackerDataInit⟩

/-- `API_EVENT_ID_GPS_UART_RECEIVED`: the chunk goes to `GPS_Update`, then `gps_Process`
follows. -/
def gpsUartReceived (fuel : ℕ) (st : TrackerState) (data : List UInt8) (mallocOk : Bool)
    (gpsUere : FloatVal) (now : ℤ) : Option TrackerState :=
  (gpsUpdate fuel st.gps data mallocOk).bind fun gps =>
    (gpsProcess gps.parse.info gpsUere now).map fun processed => ⟨gps,processed⟩

theorem gpsUartReceived_eq_some {fuel : ℕ} {st st' : TrackerState} {data : List UInt8}
    {mallocOk : Bool} {gpsUere : FloatVal} {now : ℤ} :
    gpsUartReceived fuel st data mallocOk gpsUere now = some st' ↔
      gpsUpdate fuel st.gps data mallocOk = some st'.gps ∧
        Processed st'.gps.parse.info gpsUere now st'.data := by
  rw [← gpsProcess_eq_some]
  constructor
  · intro h
    obtain ⟨gps,hgps,h⟩ := Option.bind_eq_some_iff.1 h
    obtain ⟨processed,hprocessed,rfl⟩ := Option.map_eq_some_iff.1 h
    exact ⟨hgps,hprocessed⟩
  · rintro ⟨hgps,hprocessed⟩
    simp only [gpsUartReceived,hgps,Option.bind_some,hprocessed,Option.map_some]

/-! ### The request body -/

/-- The numbers of a report as `snprintf` prints them. -/
structure ReportNumbers (T : Type) where
  valid : T
  timestamp : T
  latitude : T
  longitude : T
  speed : T
  bearing : T
  altitude : T
  accuracy : T
  percent : T

/-- `responseBuffer` with the cell information in it. -/
def cellParameter (cellInfoStr : List UInt8) : List UInt8 :=
  if cellInfoStr = [] then [] else (lit "&cell="++cellInfoStr).take 1023

def reportText (deviceName cellInfoStr : List UInt8) (n : ReportNumbers (List UInt8)) :
    List UInt8 :=
  lit "id="++deviceName++lit "&valid="++n.valid++lit "&timestamp="++n.timestamp++
  lit "&lat="++n.latitude++lit "&lon="++n.longitude++lit "&speed="++n.speed++
  lit "&bearing="++n.bearing++lit "&altitude="++n.altitude++lit "&accuracy="++n.accuracy++
  cellParameter cellInfoStr++lit "&batt="++n.percent

/-- `requestBuffer`, 400 bytes with the terminator. -/
def requestBody (deviceName cellInfoStr : List UInt8) (n : ReportNumbers (List UInt8)) :
    List UInt8 :=
  (reportText deviceName cellInfoStr n).take 399

example : minmeaTocoord ⟨2234775,10000⟩ = some (.num (2 + 23.4775/60)) := by decide +kernel

end Tracker
end A9GTracker
