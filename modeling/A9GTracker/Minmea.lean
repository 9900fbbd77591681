import Mathlib.Data.List.Basic
import Mathlib.Tactic.Common
import A9GTracker.Utils

/-! The NMEA sentence library `libs/gps/minmea`. A scan delivers the values it stores
one by one, so that what a failing scan leaves behind in the frame stays visible. -/
namespace A9GTracker
namespace Minmea

open CString Utils

structure MinmeaFloat where
  value : ℤ
  scale : ℤ
  deriving DecidableEq, Inhabited

structure MinmeaDate where
  day : ℤ
  month : ℤ
  year : ℤ
  deriving DecidableEq, Inhabited

structure MinmeaTime where
  hours : ℤ
  minutes : ℤ
  seconds : ℤ
  microseconds : ℤ
  deriving DecidableEq, Inhabited

inductive SentenceId
  | invalid | unknown | rmc | gga | gsa | gll | gst | gsv | vtg | zda
  deriving DecidableEq

/-! ### Sentence check -/

def hex2int (c : UInt8) : ℤ :=
  if 48 ≤ c ∧ c ≤ 57 then (c.toNat : ℤ)-48
  else if 65 ≤ c ∧ c ≤ 70 then (c.toNat : ℤ)-65+10
  else if 97 ≤ c ∧ c ≤ 102 then (c.toNat : ℤ)-97+10
  else -1

def minmeaCheck (sentence : List UInt8) (strict : Bool) : Bool :=
  if sentence.length > 80+3 then false
  else
    match sentence with
    | [] => false
    | dollar::rest =>
      if dollar ≠ 36 then false
      else
        let inChecksum := fun c => c ≠ 42 && isprint c
        let checksum := (rest.takeWhile inChecksum).foldl (· ^^^ ·) 0
        match rest.dropWhile inChecksum with
        | 42::upper::lower::tail =>
          if hex2int upper = -1 ∨ hex2int lower = -1 then false
          else if (checksum.toNat : ℤ) ≠ hex2int upper*16+hex2int lower then false
          else tail = [] || tail = lit "\n" || tail = lit "\r\n"
        | 42::_ => false
        | tail => if strict then false else tail = [] || tail = lit "\n" || tail = lit "\r\n"

/-! ### `minmea_scan` -/

def minmeaIsfield (c : UInt8) : Bool := isprint c && c != 44 && c != 42

inductive ScanValue
  | char (c : UInt8)
  | direction (d : ℤ)
  | float (f : MinmeaFloat)
  | int (i : ℤ)
  | string (s : List UInt8)
  | type (t : List UInt8)
  | date (d : MinmeaDate)
  | time (t : MinmeaTime)
  | ignored
  deriving DecidableEq

def scanChar : Option (List UInt8) → UInt8
  | some (c::_) => if minmeaIsfield c then c else 0
  | _ => 0

def scanDirection : Option (List UInt8) → Option ℤ
  | some (c::_) =>
    if minmeaIsfield c then
      if c = 78 ∨ c = 69 then some 1 else if c = 83 ∨ c = 87 then some (-1) else none
    else some 0
  | _ => some 0

/-- The accumulators of the fractional conversion; `value` is -1 before the first digit. -/
structure FloatAcc where
  sign : ℤ
  value : ℤ
  scale : ℤ

/-- The digit loop of the fractional conversion, with the parse error as `none`. -/
def scanFloatLoop : List UInt8 → FloatAcc → Option FloatAcc
  | [], a => some a
  | c::field, a =>
    if ¬ minmeaIsfield c then some a
    else if c = 43 ∧ a.sign = 0 ∧ a.value = -1 then scanFloatLoop field { a with sign := 1 }
    else if c = 45 ∧ a.sign = 0 ∧ a.value = -1 then scanFloatLoop field { a with sign := -1 }
    else if isdigit c then
      let digit := (c.toNat : ℤ)-48
      let value := if a.value = -1 then 0 else a.value
      if value > (2147483647-digit) / 10 then
        -- out of bits: extra precision is cut off, an integer overflow is an error
        if a.scale ≠ 0 then some { a with value := value } else none
      else
        scanFloatLoop field { a with
          value := 10*value+digit
          scale := if a.scale ≠ 0 then wrap32 (a.scale*10) else a.scale }
    else if c = 46 ∧ a.scale = 0 then scanFloatLoop field { a with scale := 1 }
    else if c = 32 then
      if a.sign ≠ 0 ∨ a.value ≠ -1 ∨ a.scale ≠ 0 then none else scanFloatLoop field a
    else none

def scanFloat (field : Option (List UInt8)) : Option MinmeaFloat :=
  match scanFloatLoop (field.getD []) ⟨0,-1,0⟩ with
  | none => none
  | some a =>
    if (a.sign ≠ 0 ∨ a.scale ≠ 0) ∧ a.value = -1 then none
    else
      let value := if a.value = -1 then 0 else a.value
      let scale := if a.value = -1 then 0 else if a.scale = 0 then 1 else a.scale
      some ⟨if a.sign ≠ 0 then value*a.sign else value,scale⟩

def scanInt : Option (List UInt8) → Option ℤ
  | none => some 0
  | some field =>
    let r := strtol field
    if minmeaIsfield (r.2.headD 0) then none else some r.1

def scanType : Option (List UInt8) → Option (List UInt8)
  | none => none
  | some field =>
    if field.headD 0 ≠ 36 then none
    else if ¬ (List.range 5).all fun f => minmeaIsfield (field.getD (1+f) 0) then none
    else some ((field.drop 1).take 5)

def twoDigits (field : List UInt8) (i : ℕ) : ℤ := (strtol ((field.drop i).take 2)).1

def scanDate : Option (List UInt8) → Option MinmeaDate
  | none => some ⟨-1,-1,-1⟩
  | some field =>
    if minmeaIsfield (field.headD 0) then
      if (List.range 6).all fun f => isdigit (field.getD f 0) then
        some ⟨twoDigits field 0,twoDigits field 2,twoDigits field 4⟩
      else none
    else some ⟨-1,-1,-1⟩

/-- The microsecond loop: `value` and `scale` after the digits, at most six of them. -/
def scanMicros : List UInt8 → ℕ → ℕ → ℕ × ℕ
  | [], value, scale => (value,scale)
  | c::field, value, scale =>
    if isdigit c ∧ 1 < scale then scanMicros field (value*10+(c.toNat-48)) (scale / 10)
    else (value,scale)

def scanTime : Option (List UInt8) → Option MinmeaTime
  | none => some ⟨-1,-1,-1,-1⟩
  | some field =>
    if minmeaIsfield (field.headD 0) then
      if (List.range 6).all fun f => isdigit (field.getD f 0) then
        let u := match field.drop 6 with
          | 46::fraction =>
            let r := scanMicros fraction 0 1000000
            ((r.1*r.2 : ℕ) : ℤ)
          | _ => 0
        some ⟨twoDigits field 0,twoDigits field 2,twoDigits field 4,u⟩
      else none
    else some ⟨-1,-1,-1,-1⟩

/-- The conversion selected by one format character, with a parse error as `none`. -/
def scanField (type : Char) (field : Option (List UInt8)) : Option ScanValue :=
  match type with
  | 'c' => some (.char (scanChar field))
  | 'd' => (scanDirection field).map .direction
  | 'f' => (scanFloat field).map .float
  | 'i' => (scanInt field).map .int
  | 's' => some (.string ((field.getD []).takeWhile minmeaIsfield))
  | 't' => (scanType field).map .type
  | 'D' => (scanDate field).map .date
  | 'T' => (scanTime field).map .time
  | '_' => some .ignored
  | _ => none

/-- `next_field`: the rest of the sentence, and the next field if a comma opens one. -/
def nextField (sentence : List UInt8) : List UInt8 × Option (List UInt8) :=
  match sentence.dropWhile minmeaIsfield with
  | 44::rest => (rest,some rest)
  | rest => (rest,none)

/-- The scan loop: the values stored until it stops, and whether it reached the end of
the format. -/
def scanLoop : List Char → List UInt8 → Option (List UInt8) → Bool → List ScanValue × Bool
  | [], _, _, _ => ([],true)
  | type::format, sentence, field, optional =>
    if type = ';' then scanLoop format sentence field true
    else if field = none ∧ ¬ optional then ([],false)
    else
      match scanField type field with
      | none => ([],false)
      | some v =>
        let next := nextField sentence
        let r := scanLoop format next.1 next.2 optional
        (v::r.1,r.2)

def minmeaScan (sentence : List UInt8) (format : String) : List ScanValue × Bool :=
  scanLoop format.toList sentence (some sentence) false

def typeOf (values : List ScanValue) : List UInt8 :=
  match values.head? with
  | some (.type t) => t.drop 2
  | _ => []

def minmeaSentenceId (sentence : List UInt8) (strict : Bool) : SentenceId :=
  if ¬ minmeaCheck sentence strict then .invalid
  else
    let r := minmeaScan sentence "t"
    if ¬ r.2 then .invalid
    else if typeOf r.1 = lit "RMC" then .rmc
    else if typeOf r.1 = lit "GGA" then .gga
    else if typeOf r.1 = lit "GSA" then .gsa
    else if typeOf r.1 = lit "GLL" then .gll
    else if typeOf r.1 = lit "GST" then .gst
    else if typeOf r.1 = lit "GSV" then .gsv
    else if typeOf r.1 = lit "VTG" then .vtg
    else if typeOf r.1 = lit "ZDA" then .zda
    else .unknown

/-! ### Storing into a frame -/

/-- Where a scanned value goes: a local variable of the parser or a field of its frame. -/
inductive Target (S : Type)
  | scratch
  | char (set : UInt8 → S → S)
  | float (set : MinmeaFloat → S → S)
  | int (set : ℤ → S → S)
  | date (set : MinmeaDate → S → S)
  | time (set : MinmeaTime → S → S)

def Target.store {S : Type} : Target S → ScanValue → S → S
  | .char set, .char c, s => set c s
  | .float set, .float f, s => set f s
  | .int set, .int i, s => set i s
  | .date set, .date d, s => set d s
  | .time set, .time t, s => set t s
  | _, _, s => s

def storeAll {S : Type} : List (Target S) → List ScanValue → S → S
  | t::ts, v::vs, s => storeAll ts vs (t.store v s)
  | _, _, s => s

/-- A sentence parser: the format it scans, the targets of the conversions, and what it
does after a complete scan, from the values of its local variables. -/
structure SentenceParser (S : Type) where
  format : String
  targets : List (Target S)
  finish : List ScanValue → S → S × Bool

/-- The common shape of the `minmea_parse_*` functions: scan into the live frame, give up
with what is stored so far, or finish. -/
def SentenceParser.parse {S : Type} (p : SentenceParser S) (frame : S) (sentence : List UInt8) :
    S × Bool :=
  let r := minmeaScan sentence p.format
  let frame := storeAll p.targets r.1 frame
  if ¬ r.2 then (frame,false) else p.finish r.1 frame

def charAt (values : List ScanValue) (i : ℕ) : UInt8 :=
  match values[i]? with
  | some (.char c) => c
  | _ => 0

def directionAt (values : List ScanValue) (i : ℕ) : ℤ :=
  match values[i]? with
  | some (.direction d) => d
  | _ => 0

/-- `f.value *= direction`. -/
def MinmeaFloat.orient (f : MinmeaFloat) (direction : ℤ) : MinmeaFloat :=
  { f with value := wrap32 (f.value*direction) }

structure Rmc where
  time : MinmeaTime
  valid : Bool
  latitude : MinmeaFloat
  longitude : MinmeaFloat
  speed : MinmeaFloat
  course : MinmeaFloat
  date : MinmeaDate
  variation : MinmeaFloat
  deriving DecidableEq, Inhabited

def rmcParser : SentenceParser Rmc where
  format := "tTcfdfdffDfd"
  targets := [
    .scratch,
    .time fun t f => { f with time := t },
    .scratch,
    .float fun x f => { f with latitude := x }, .scratch,
    .float fun x f => { f with longitude := x }, .scratch,
    .float fun x f => { f with speed := x },
    .float fun x f => { f with course := x },
    .date fun d f => { f with date := d },
    .float fun x f => { f with variation := x }, .scratch]
  finish values frame :=
    if typeOf values ≠ lit "RMC" then (frame,false)
    else
      ({ frame with
        valid := charAt values 2 = 65
        latitude := frame.latitude.orient (directionAt values 4)
        longitude := frame.longitude.orient (directionAt values 6)
        variation := frame.variation.orient (directionAt values 11) },true)

def minmeaParseRmc : Rmc → List UInt8 → Rmc × Bool := rmcParser.parse

structure Gga where
  time : MinmeaTime
  latitude : MinmeaFloat
  longitude : MinmeaFloat
  fixQuality : ℤ
  satellitesTracked : ℤ
  hdop : MinmeaFloat
  altitude : MinmeaFloat
  altitudeUnits : UInt8
  height : MinmeaFloat
  heightUnits : UInt8
  dgpsAge : MinmeaFloat
  deriving DecidableEq, Inhabited

def ggaParser : SentenceParser Gga where
  format := "tTfdfdiiffcfcf_"
  targets := [
    .scratch,
    .time fun t f => { f with time := t },
    .float fun x f => { f with latitude := x }, .scratch,
    .float fun x f => { f with longitude := x }, .scratch,
    .int fun i f => { f with fixQuality := i },
    .int fun i f => { f with satellitesTracked := i },
    .float fun x f => { f with hdop := x },
    .float fun x f => { f with altitude := x }, .char fun c f => { f with altitudeUnits := c },
    .float fun x f => { f with height := x }, .char fun c f => { f with heightUnits := c },
    .float fun x f => { f with dgpsAge := x }]
  finish values frame :=
    if typeOf values ≠ lit "GGA" then (frame,false)
    else
      ({ frame with
        latitude := frame.latitude.orient (directionAt values 3)
        longitude := frame.longitude.orient (directionAt values 5) },true)

def minmeaParseGga : Gga → List UInt8 → Gga × Bool := ggaParser.parse

structure Gsa where
  mode : UInt8
  fixType : ℤ
  sats : Fin 12 → ℤ
  pdop : MinmeaFloat
  hdop : MinmeaFloat
  vdop : MinmeaFloat
  deriving DecidableEq, Inhabited

def gsaParser : SentenceParser Gsa where
  format := "tciiiiiiiiiiiiifff"
  targets := [
    .scratch,
    .char fun c f => { f with mode := c },
    .int fun i f => { f with fixType := i }] ++
    (List.finRange 12).map (fun n => .int fun i f => { f with sats := Function.update f.sats n i }) ++ [
    .float fun x f => { f with pdop := x },
    .float fun x f => { f with hdop := x },
    .float fun x f => { f with vdop := x }]
  finish values frame := (frame,typeOf values = lit "GSA")

def minmeaParseGsa : Gsa → List UInt8 → Gsa × Bool := gsaParser.parse

structure Gll where
  latitude : MinmeaFloat
  longitude : MinmeaFloat
  time : MinmeaTime
  status : UInt8
  mode : UInt8
  deriving DecidableEq, Inhabited

def gllParser : SentenceParser Gll where
  format := "tfdfdTc;c"
  targets := [
    .scratch,
    .float fun x f => { f with latitude := x }, .scratch,
    .float fun x f => { f with longitude := x }, .scratch,
    .time fun t f => { f with time := t },
    .char fun c f => { f with status := c },
    .char fun c f => { f with mode := c }]
  finish values frame :=
    if typeOf values ≠ lit "GLL" then (frame,false)
    else
      ({ frame with
        latitude := frame.latitude.orient (directionAt values 2)
        longitude := frame.longitude.orient (directionAt values 4) },true)

def minmeaParseGll : Gll → List UInt8 → Gll × Bool := gllParser.parse

structure Gst where
  time : MinmeaTime
  rmsDeviation : MinmeaFloat
  semiMajorDeviation : MinmeaFloat
  semiMinorDeviation : MinmeaFloat
  semiMajorOrientation : MinmeaFloat
  latitudeErrorDeviation : MinmeaFloat
  longitudeErrorDeviation : MinmeaFloat
  altitudeErrorDeviation : MinmeaFloat
  deriving DecidableEq, Inhabited

def gstParser : SentenceParser Gst where
  format := "tTfffffff"
  targets := [
    .scratch,
    .time fun t f => { f with time := t },
    .float fun x f => { f with rmsDeviation := x },
    .float fun x f => { f with semiMajorDeviation := x },
    .float fun x f => { f with semiMinorDeviation := x },
    .float fun x f => { f with semiMajorOrientation := x },
    .float fun x f => { f with latitudeErrorDeviation := x },
    .float fun x f => { f with longitudeErrorDeviation := x },
    .float fun x f => { f with altitudeErrorDeviation := x }]
  finish values frame := (frame,typeOf values = lit "GST")

def minmeaParseGst : Gst → List UInt8 → Gst × Bool := gstParser.parse

structure SatInfo where
  nr : ℤ
  elevation : ℤ
  azimuth : ℤ
  snr : ℤ
  deriving DecidableEq, Inhabited

structure Gsv where
  totalMsgs : ℤ
  msgNr : ℤ
  totalSats : ℤ
  sats : Fin 4 → SatInfo
  deriving DecidableEq, Inhabited

/-- `frame->sats[n]`, changed by `g`. -/
def Gsv.updateSat (f : Gsv) (n : Fin 4) (g : SatInfo → SatInfo) : Gsv :=
  { f with sats := Function.update f.sats n (g (f.sats n)) }

def gsvParser : SentenceParser Gsv where
  format := "tiii;iiiiiiiiiiiiiiii"
  targets := [
    .scratch,
    .int fun i f => { f with totalMsgs := i },
    .int fun i f => { f with msgNr := i },
    .int fun i f => { f with totalSats := i }] ++
    (List.finRange 4).flatMap fun n => [
      .int fun i f => f.updateSat n fun s => { s with nr := i },
      .int fun i f => f.updateSat n fun s => { s with elevation := i },
      .int fun i f => f.updateSat n fun s => { s with azimuth := i },
      .int fun i f => f.updateSat n fun s => { s with snr := i }]
  finish values frame := (frame,typeOf values = lit "GSV")

def minmeaParseGsv : Gsv → List UInt8 → Gsv × Bool := gsvParser.parse

structure Vtg where
  trueTrackDegrees : MinmeaFloat
  magneticTrackDegrees : MinmeaFloat
  speedKnots : MinmeaFloat
  speedKph : MinmeaFloat
  faaMode : UInt8
  deriving DecidableEq, Inhabited

def vtgParser : SentenceParser Vtg where
  format := "tfcfcfcfc;c"
  targets := [
    .scratch,
    .float fun x f => { f with trueTrackDegrees := x }, .scratch,
    .float fun x f => { f with magneticTrackDegrees := x }, .scratch,
    .float fun x f => { f with speedKnots := x }, .scratch,
    .float fun x f => { f with speedKph := x }, .scratch,
    .scratch]
  finish values frame :=
    if typeOf values ≠ lit "VTG" then (frame,false)
    else if charAt values 2 ≠ 84 ∨ charAt values 4 ≠ 77 ∨ charAt values 6 ≠ 78 ∨
        charAt values 8 ≠ 75 then (frame,false)
    else ({ frame with faaMode := charAt values 9 },true)

def minmeaParseVtg : Vtg → List UInt8 → Vtg × Bool := vtgParser.parse

structure Zda where
  time : MinmeaTime
  date : MinmeaDate
  hourOffset : ℤ
  minuteOffset : ℤ
  deriving DecidableEq, Inhabited

def zdaParser : SentenceParser Zda where
  format := "tTiiiii"
  targets := [
    .scratch,
    .time fun t f => { f with time := t },
    .int fun i f => { f with date := { f.date with day := i } },
    .int fun i f => { f with date := { f.date with month := i } },
    .int fun i f => { f with date := { f.date with year := i } },
    .int fun i f => { f with hourOffset := i },
    .int fun i f => { f with minuteOffset := i }]
  finish values frame :=
    if typeOf values ≠ lit "ZDA" then (frame,false)
    else
      (frame,decide (¬ (wrap32 |frame.hourOffset| > 13 ∨ frame.minuteOffset > 59 ∨
        frame.minuteOffset < 0)))

def minmeaParseZda : Zda → List UInt8 → Zda × Bool := zdaParser.parse

end Minmea
end A9GTracker
