import Mathlib.Data.List.Basic
import Mathlib.Tactic.Common
import A9GTracker.Minmea

/-! `libs/gps/src/gps_parse.c`: sentences are parsed straight into the one global
`g_gps_info`, and the static counters select the slots of repeated sentences. -/
namespace A9GTracker
namespace GpsParse

open CString Minmea

structure GpsInfo where
  rmc : Rmc
  gsa : Fin 2 → Gsa
  gga : Gga
  gll : Gll
  gst : Gst
  gsv : Fin 20 → Gsv
  vtg : Vtg
  zda : Zda
  deriving DecidableEq, Inhabited

/-- `g_gps_info` with the statics of `ParseOneNmea` and the frame flag of `GPS_Parse`. -/
structure ParseState where
  info : GpsInfo
  flagOld : ℕ
  gsvCount : ℕ
  gsaCount : ℕ
  flag : ℕ
  deriving DecidableEq

def zeroInfo : GpsInfo :=
  let time : MinmeaTime := ⟨0,0,0,0⟩
  let date : MinmeaDate := ⟨0,0,0⟩
  let float : MinmeaFloat := ⟨0,0⟩
  let sat : SatInfo := ⟨0,0,0,0⟩
  { rmc := ⟨time,false,float,float,float,float,date,float⟩
    gsa := fun _ => ⟨0,0,fun _ => 0,float,float,float⟩
    gga := ⟨time,float,float,0,0,float,float,0,float,0,float⟩
    gll := ⟨float,float,time,0,0⟩
    gst := ⟨time,float,float,float,float,float,float,float⟩
    gsv := fun _ => ⟨0,0,0,fun _ => sat⟩
    vtg := ⟨float,float,float,float,0⟩
    zda := ⟨time,date,0,0⟩ }

def parseInit : ParseState := ⟨zeroInfo,255,0,0,0⟩

/-- First sentence of a new frame: both slot counters start again. -/
def restartCounts (st : ParseState) (flag : ℕ) : ParseState :=
  if flag ≠ st.flagOld then { st with flagOld := flag, gsvCount := 0, gsaCount := 0 } else st

/-- The switch of `ParseOneNmea`, with the answer of the parser it calls; `none` when it
calls none. -/
def parseSelected (st : ParseState) (line : List UInt8) : ParseState × Option Bool :=
  match minmeaSentenceId line false with
  | .rmc =>
    let r := minmeaParseRmc st.info.rmc line
    ({ st with info := { st.info with rmc := r.1 } },some r.2)
  | .gga =>
    let r := minmeaParseGga st.info.gga line
    ({ st with info := { st.info with gga := r.1 } },some r.2)
  | .gst =>
    let r := minmeaParseGst st.info.gst line
    ({ st with info := { st.info with gst := r.1 } },some r.2)
  | .gsv =>
    if h : st.gsvCount < 20 then
      let r := minmeaParseGsv (st.info.gsv ⟨st.gsvCount,h⟩) line
      ({ st with
        info := { st.info with gsv := Function.update st.info.gsv ⟨st.gsvCount,h⟩ r.1 }
        gsvCount := st.gsvCount+1 },some r.2)
    else (st,none)
  | .vtg =>
    let r := minmeaParseVtg st.info.vtg line
    ({ st with info := { st.info with vtg := r.1 } },some r.2)
  | .zda =>
    let r := minmeaParseZda st.info.zda line
    ({ st with info := { st.info with zda := r.1 } },some r.2)
  | .gsa =>
    if h : st.gsaCount < 2 then
      let r := minmeaParseGsa (st.info.gsa ⟨st.gsaCount,h⟩) line
      ({ st with
        info := { st.info with gsa := Function.update st.info.gsa ⟨st.gsaCount,h⟩ r.1 }
        gsaCount := st.gsaCount+1 },some r.2)
    else (st,none)
  | .gll =>
    let r := minmeaParseGll st.info.gll line
    ({ st with info := { st.info with gll := r.1 } },some r.2)
  | .invalid | .unknown => (st,none)

def parseOneNmea (st : ParseState) (nmea : List UInt8) (flag : ℕ) : ParseState × Bool :=
  let st := restartCounts st flag
  ((parseSelected st nmea).1,
    decide (minmeaSentenceId nmea false ≠ .invalid ∧ minmeaSentenceId nmea false ≠ .unknown))

/-- The loop of `GPS_Parse`. The cursor is moved by a length that is measured from the
`$`, not from the cursor; every round moves it by at least two bytes, so the length of
the text bounds the number of rounds. -/
def gpsParseLoop : ℕ → ParseState → List UInt8 → Bool → ParseState × Bool
  | 0, st, _, retFlag => (st,retFlag)
  | n+1, st, nmeas, retFlag =>
    match strstr nmeas (lit "$") with
    | none => (st,retFlag)
    | some index1 =>
      match strstr (nmeas.drop index1) (lit "\r\n") with
      | none => (st,retFlag)
      | some length =>
        let r := parseOneNmea st ((nmeas.drop index1).take (length+2)) st.flag
        gpsParseLoop n r.1 (nmeas.drop (length+2)) r.2

def gpsParse (st : ParseState) (nmeas : List UInt8) : ParseState × Bool :=
  let r := gpsParseLoop nmeas.length st nmeas false
  ({ r.1 with flag := (r.1.flag+1) % 256 },r.2)

end GpsParse
end A9GTracker
