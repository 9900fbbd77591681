import Mathlib.Data.List.Basic
import Mathlib.Tactic.Common
import A9GTracker.Gps
import A9GTracker.Utils

/-! The configuration of `app/src/config_store.h` with the parameters, validators and
serializers of `app/src/config_validation.c`. -/
namespace A9GTracker
namespace ConfigStore

open CString Utils Gps

/-! ### The store -/

structure CharArray (n : ℕ) where
  bytes : List UInt8
  size : bytes.length = n
  deriving DecidableEq

/-- The string in the array; a terminated one does not look past the array. -/
def CharArray.text {n : ℕ} (a : CharArray n) : List UInt8 := cstring a.bytes

def CharArray.zero (n : ℕ) : CharArray n := ⟨List.replicate n 0,by simp⟩

def strncpy (n : ℕ) (src : List UInt8) : CharArray n :=
  ⟨src.take (n-1)++List.replicate (n-(src.take (n-1)).length) 0,by
    simp only [List.length_append,List.length_take,List.length_replicate]
    omega⟩

theorem strncpy_text {src : List UInt8} (h : (0 : UInt8) ∉ src) (n : ℕ) :
    (strncpy n src).text = src.take (n-1) := by
  have htake : (0 : UInt8) ∉ src.take (n-1) := fun hmem => h (List.mem_of_mem_take hmem)
  rw [CharArray.text,strncpy,cstring_append htake]
  cases n-(src.take (n-1)).length <;> simp [List.replicate_succ,cstring]

theorem strncpy_strncpy_text {src : List UInt8} (h : (0 : UInt8) ∉ src) (n : ℕ) :
    strncpy n (strncpy n src).text = strncpy n src := by
  rw [strncpy_text h]
  simp [strncpy,List.take_take]

theorem strncpy_terminated {n : ℕ} (hn : 0 < n) (src : List UInt8) :
    (0 : UInt8) ∈ (strncpy n src).bytes := by
  refine List.mem_append_right _ (List.mem_replicate.2 ⟨?_,rfl⟩)
  rw [List.length_take]
  omega

inductive Protocol
  | http | https
  deriving DecidableEq

inductive LogLevel
  | none | error | warn | info | debug
  deriving DecidableEq

inductive LogOutput
  | uart | trace | file
  deriving DecidableEq

structure Config (F : Type) where
  imei : CharArray 16
  deviceName : CharArray 32
  serverAddr : CharArray 64
  serverPort : CharArray 8
  serverProtocol : Protocol
  apn : CharArray 32
  apnUser : CharArray 32
  apnPass : CharArray 32
  gpsUere : F
  gpsPrintPos : Bool
  gpsLogging : Bool
  gpsLogFile : CharArray 128
  logLevel : LogLevel
  logOutput : LogOutput

/-- `g_ConfigStore` with the log statics of the GPS driver. -/
structure Device (F : Type) where
  config : Config F
  log : LogSetting

/-- What `strtod`, and so `atof`, skips in front of a number. It does not look into the table of
`isspace`, and 160 is not among it. -/
def skippedByAtof (c : UInt8) : Bool := c == 32 || (9 ≤ c && c ≤ 13)

/-- Single-precision numbers with the conversions of the C library the SDK provides. -/
class FloatLib (F : Type) where
  zero : F
  atof : List UInt8 → F
  /-- `x > 0.0f && x < 100.0f` -/
  inRange : F → Bool
  /-- `%f` -/
  printF : F → List UInt8
  atof_skipped : ∀ c s, skippedByAtof c = true → atof (c::s) = atof s
  /-- Such a text is no number, and the conversion gives zero. -/
  atof_high : ∀ c s, 127 < c → inRange (atof (c::s)) = false
  printF_plain : ∀ x, ∀ c ∈ printF x, c ≠ 0 ∧ c ≠ 10
  printF_length : ∀ x, (printF x).length ≤ 47

variable {F : Type} [FloatLib F]

def zeroDevice : Device F where
  config :=
    { imei := .zero 16
      deviceName := .zero 32
      serverAddr := .zero 64
      serverPort := .zero 8
      serverProtocol := .http
      apn := .zero 32
      apnUser := .zero 32
      apnPass := .zero 32
      gpsUere := FloatLib.zero
      gpsPrintPos := false
      gpsLogging := false
      gpsLogFile := .zero 128
      logLevel := .none
      logOutput := .uart }
  log := ⟨false,.null⟩

/-! ### Parameters -/

inductive Param
  | deviceName | serverAddr | serverPort | serverProtocol | apn | apnUser | apnPass | logLevel
  | logOutput | gpsUere | gpsLogs | gpsLogFile | gpsPrintPos
  deriving DecidableEq

def gConfigMap : List Param :=
  [.deviceName,.serverAddr,.serverPort,.serverProtocol,.apn,.apnUser,.apnPass,.logLevel,
    .logOutput,.gpsUere,.gpsLogs,.gpsLogFile,.gpsPrintPos]

namespace Param

def paramName : Param → List UInt8
  | deviceName => lit "device_name"
  | serverAddr => lit "server"
  | serverPort => lit "port"
  | serverProtocol => lit "protocol"
  | apn => lit "apn"
  | apnUser => lit "apn_user"
  | apnPass => lit "apn_pass"
  | logLevel => lit "log_level"
  | logOutput => lit "log_output"
  | gpsUere => lit "gps_uere"
  | gpsLogs => lit "gps_logging"
  | gpsLogFile => lit "gps_log_file"
  | gpsPrintPos => lit "gps_print_pos"

/-- The defaults of the table; `ConfigStore_Init` replaces that of the device name. -/
def defaultValue : Param → List UInt8
  | deviceName => lit "IMEI"
  | serverAddr => lit "demo3.traccar.org"
  | serverPort => lit "5055"
  | serverProtocol => lit "https"
  | apn => lit "internet"
  | apnUser => lit ""
  | apnPass => lit ""
  | logLevel => lit "info"
  | logOutput => lit "uart"
  | gpsUere => lit "5"
  | gpsLogs => lit "disabled"
  | gpsLogFile => lit "/t/gps_nmea.log"
  | gpsPrintPos => lit "disabled"

end Param

def getConfigMap (argName : List UInt8) : Option Param :=
  gConfigMap.find? fun p => p.paramName = argName

/-! ### Validators -/

/-- A validator stores an acceptable value and rejects any other with `none`. -/
abbrev Validator (F : Type) := List UInt8 → Device F → Option (Device F)

def stringValidate {n : ℕ} (emptyOk : Bool) (set : CharArray n → Device F → Device F) :
    Validator F := fun value d =>
  if (emptyOk = true ∨ 0 < value.length) ∧ value.length < n then some (set (strncpy n value) d)
  else none

/-- The keyword validators: the first keyword equal up to case decides. -/
def keywordValidate (table : List (List UInt8 × (Device F → Device F))) : Validator F :=
  fun value d => (table.find? fun k => strCaseCmp value k.1 = 0).map fun k => k.2 d

def boolValidate (set : Bool → Device F → Device F) : Validator F :=
  keywordValidate [
    (lit "0",set false),(lit "disable",set false),(lit "disabled",set false),
    (lit "false",set false),
    (lit "1",set true),(lit "enable",set true),(lit "enabled",set true),(lit "true",set true)]

def deviceNameValidate : Validator F :=
  stringValidate false fun a d => { d with config := { d.config with deviceName := a } }

def serverValidate : Validator F :=
  stringValidate false fun a d => { d with config := { d.config with serverAddr := a } }

def protocolValidate : Validator F :=
  let set := fun x d => { d with config := { d.config with serverProtocol := x } }
  keywordValidate [(lit "http",set .http),(lit "https",set .https)]

/-- The number is checked, but only the first seven characters of its text are kept. -/
def portValidate : Validator F := fun value d =>
  let port := strtol value
  if port.2 = [] ∧ 0 < port.1 ∧ port.1 ≤ 65535 then
    some { d with config := { d.config with serverPort := strncpy 8 value } }
  else none

def apnValidate : Validator F :=
  stringValidate false fun a d => { d with config := { d.config with apn := a } }

def apnUserValidate : Validator F :=
  stringValidate true fun a d => { d with config := { d.config with apnUser := a } }

def apnPassValidate : Validator F :=
  stringValidate true fun a d => { d with config := { d.config with apnPass := a } }

def logLevelValidate : Validator F :=
  let set := fun x d => { d with config := { d.config with logLevel := x } }
  keywordValidate [(lit "none",set .none),(lit "error",set .error),(lit "warn",set .warn),
    (lit "warning",set .warn),(lit "info",set .info),(lit "debug",set .debug)]

def logOutputValidate : Validator F :=
  let set := fun x d => { d with config := { d.config with logOutput := x } }
  keywordValidate [(lit "uart",set .uart),(lit "trace",set .trace),(lit "file",set .file)]

def gpsUereValidate : Validator F := fun value d =>
  let uere := FloatLib.atof value
  if FloatLib.inRange uere then some { d with config := { d.config with gpsUere := uere } }
  else none

def gpsPrintPosValidate : Validator F :=
  boolValidate fun x d => { d with config := { d.config with gpsPrintPos := x } }

def gpsLoggingValidate : Validator F :=
  boolValidate fun x d =>
    { config := { d.config with gpsLogging := x }, log := gpsSaveLog x .gpsLogFile }

def gpsLogFileValidate : Validator F :=
  stringValidate false fun a d =>
    { config := { d.config with gpsLogFile := a }
      log := gpsSaveLog d.config.gpsLogging .gpsLogFile }

def Param.validator : Param → Validator F
  | .deviceName => deviceNameValidate
  | .serverAddr => serverValidate
  | .serverPort => portValidate
  | .serverProtocol => protocolValidate
  | .apn => apnValidate
  | .apnUser => apnUserValidate
  | .apnPass => apnPassValidate
  | .logLevel => logLevelValidate
  | .logOutput => logOutputValidate
  | .gpsUere => gpsUereValidate
  | .gpsLogs => gpsLoggingValidate
  | .gpsLogFile => gpsLogFileValidate
  | .gpsPrintPos => gpsPrintPosValidate

/-! ### Serializers -/

def serializerBuf (s : List UInt8) : List UInt8 := s.take 255

def stringSerializer {n : ℕ} (a : CharArray n) : List UInt8 := serializerBuf a.text

def floatSerializer (x : F) : List UInt8 := serializerBuf (FloatLib.printF x)

def protocolSerializer : Protocol → List UInt8
  | .http => lit "http"
  | .https => lit "https"

/-- The level `none` has no case of its own. -/
def logLevelSerializer : LogLevel → List UInt8
  | .error => lit "error"
  | .warn => lit "warn"
  | .info => lit "info"
  | .debug => lit "debug"
  | .none => lit ""

def logOutputSerializer : LogOutput → List UInt8
  | .uart => lit "uart"
  | .trace => lit "trace"
  | .file => lit "file"

def boolSerializer (b : Bool) : List UInt8 := if b then lit "true" else lit "false"

def Param.serializer (p : Param) (c : Config F) : List UInt8 :=
  match p with
  | .deviceName => stringSerializer c.deviceName
  | .serverAddr => stringSerializer c.serverAddr
  | .serverPort => stringSerializer c.serverPort
  | .serverProtocol => protocolSerializer c.serverProtocol
  | .apn => stringSerializer c.apn
  | .apnUser => stringSerializer c.apnUser
  | .apnPass => stringSerializer c.apnPass
  | .logLevel => logLevelSerializer c.logLevel
  | .logOutput => logOutputSerializer c.logOutput
  | .gpsUere => floatSerializer c.gpsUere
  | .gpsLogs => boolSerializer c.gpsLogging
  | .gpsLogFile => stringSerializer c.gpsLogFile
  | .gpsPrintPos => boolSerializer c.gpsPrintPos

/-! ### Fixed-point numbers -/

/-- Numbers from 0 to 100 in steps of one millionth, as many digits as `%f` prints. -/
abbrev Micros := Fin 100000001

def digitsValue (s : List UInt8) : ℕ := s.foldl (fun n c => 10*n+(c.toNat-48)) 0

def fractionValue (s : List UInt8) : ℕ :=
  digitsValue ((s.takeWhile isdigit++List.replicate 6 48).take 6)

/-- Too large a number becomes the largest one, which is out of range. -/
def microsOf (s : List UInt8) : Micros :=
  let s := s.dropWhile skippedByAtof
  let fraction := match s.dropWhile isdigit with
    | 46::t => fractionValue t
    | _ => 0
  Fin.ofNat 100000001 (min (1000000*digitsValue (s.takeWhile isdigit)+fraction) 100000000)

def decimalDigit (x k : ℕ) : UInt8 := UInt8.ofNat (48+x/10^k%10)

def microsText (x : Micros) : List UInt8 :=
  [8,7].filterMap (fun k => if 10^k ≤ x.val then some (decimalDigit x.val k) else none)++
    decimalDigit x.val 6::46::[5,4,3,2,1,0].map (decimalDigit x.val)

theorem decimalDigit_ne (x k : ℕ) : decimalDigit x k ≠ 0 ∧ decimalDigit x k ≠ 10 := by
  have hdigits : ∀ d, d < 10 → UInt8.ofNat (48+d) ≠ 0 ∧ UInt8.ofNat (48+d) ≠ 10 := by decide
  exact hdigits _ (Nat.mod_lt _ (by decide))

theorem microsText_plain (x : Micros) : ∀ c ∈ microsText x, c ≠ 0 ∧ c ≠ 10 := by
  intro c hc
  have hdigit := decimalDigit_ne x.val
  simp only [microsText,List.mem_append,List.mem_filterMap,List.mem_cons,List.mem_map] at hc
  obtain ⟨k,-,hk⟩ | rfl | rfl | ⟨k,-,rfl⟩ := hc
  · split_ifs at hk
    obtain rfl := Option.some.inj hk
    exact hdigit k
  · exact hdigit 6
  · decide
  · exact hdigit k

theorem microsText_length (x : Micros) : (microsText x).length ≤ 47 := by
  have hfront := List.length_filterMap_le
    (fun k => if 10^k ≤ x.val then some (decimalDigit x.val k) else none) [8,7]
  simp only [microsText,List.length_append,List.length_cons,List.length_map,List.length_nil] at *
  omega

theorem microsOf_high {c : UInt8} (s : List UInt8) (h : 127 < c) : (microsOf (c::s)).val = 0 := by
  have hc : 127 < c.toNat := h
  have hskip : skippedByAtof c = false := by
    unfold skippedByAtof
    grind
  have hdigit : isdigit c = false := by
    rw [← Bool.not_eq_true,isdigit_iff]
    omega
  have hdot : c ≠ 46 := by
    rintro rfl
    exact absurd h (by decide)
  simp [microsOf,hskip,hdigit,hdot,digitsValue]

instance : FloatLib Micros where
  zero := 0
  atof := microsOf
  inRange x := 0 < x.val ∧ x.val < 100000000
  printF := microsText
  atof_skipped c s h := by simp [microsOf,h]
  atof_high c s h := by simp [microsOf_high s h]
  printF_plain := microsText_plain
  printF_length := microsText_length

example : FloatLib.printF (FloatLib.atof (lit " 5.25x") : Micros) = lit "5.250000" := by decide

end ConfigStore
end A9GTracker
