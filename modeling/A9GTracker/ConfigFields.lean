import A9GTracker.ConfigFile

/-! The parameters as fields: every validator decodes its value and stores the result in the
field of its parameter, every serializer encodes that field. What is proved about one
parameter and all others is proved here once. -/
namespace A9GTracker
namespace ConfigFields

open CString Utils Gps ConfigStore ConfigFile

variable {F : Type}

/-! ### Fields -/

def Content (F : Type) : Param → Type
  | .deviceName => CharArray 32
  | .serverAddr => CharArray 64
  | .serverPort => CharArray 8
  | .serverProtocol => Protocol
  | .apn => CharArray 32
  | .apnUser => CharArray 32
  | .apnPass => CharArray 32
  | .logLevel => LogLevel
  | .logOutput => LogOutput
  | .gpsUere => F
  | .gpsLogs => Bool
  | .gpsLogFile => CharArray 128
  | .gpsPrintPos => Bool

def get : (p : Param) → Config F → Content F p
  | .deviceName, c => c.deviceName
  | .serverAddr, c => c.serverAddr
  | .serverPort, c => c.serverPort
  | .serverProtocol, c => c.serverProtocol
  | .apn, c => c.apn
  | .apnUser, c => c.apnUser
  | .apnPass, c => c.apnPass
  | .logLevel, c => c.logLevel
  | .logOutput, c => c.logOutput
  | .gpsUere, c => c.gpsUere
  | .gpsLogs, c => c.gpsLogging
  | .gpsLogFile, c => c.gpsLogFile
  | .gpsPrintPos, c => c.gpsPrintPos

def put : (p : Param) → Content F p → Device F → Device F
  | .deviceName, x, d => { d with config := { d.config with deviceName := x } }
  | .serverAddr, x, d => { d with config := { d.config with serverAddr := x } }
  | .serverPort, x, d => { d with config := { d.config with serverPort := x } }
  | .serverProtocol, x, d => { d with config := { d.config with serverProtocol := x } }
  | .apn, x, d => { d with config := { d.config with apn := x } }
  | .apnUser, x, d => { d with config := { d.config with apnUser := x } }
  | .apnPass, x, d => { d with config := { d.config with apnPass := x } }
  | .logLevel, x, d => { d with config := { d.config with logLevel := x } }
  | .logOutput, x, d => { d with config := { d.config with logOutput := x } }
  | .gpsUere, x, d => { d with config := { d.config with gpsUere := x } }
  | .gpsLogs, x, d =>
    { config := { d.config with gpsLogging := x }, log := gpsSaveLog x .gpsLogFile }
  | .gpsLogFile, x, d =>
    { config := { d.config with gpsLogFile := x }
      log := gpsSaveLog d.config.gpsLogging .gpsLogFile }
  | .gpsPrintPos, x, d => { d with config := { d.config with gpsPrintPos := x } }

theorem get_put_self (p : Param) (x : Content F p) (d : Device F) :
    get p (put p x d).config = x := by
  cases p <;> rfl

theorem get_put_of_ne {p q : Param} (h : q ≠ p) (x : Content F p) (d : Device F) :
    get q (put p x d).config = get q d.config := by
  cases p <;> cases q <;> first | rfl | exact absurd rfl h

theorem put_imei (p : Param) (x : Content F p) (d : Device F) :
    (put p x d).config.imei = d.config.imei := by
  cases p <;> rfl

theorem put_log {p : Param} (h : p ≠ .gpsLogs) (h' : p ≠ .gpsLogFile) (x : Content F p)
    (d : Device F) : (put p x d).log = d.log := by
  cases p <;> first | rfl | exact absurd rfl h | exact absurd rfl h'

/-! ### Decoding and encoding -/

def decodeString (n : ℕ) (emptyOk : Bool) (value : List UInt8) : Option (CharArray n) :=
  if (emptyOk = true ∨ 0 < value.length) ∧ value.length < n then some (strncpy n value) else none

theorem decodeString_eq_some {n : ℕ} {emptyOk : Bool} {value : List UInt8} {a : CharArray n} :
    decodeString n emptyOk value = some a ↔
      ((emptyOk = true ∨ 0 < value.length) ∧ value.length < n) ∧ strncpy n value = a := by
  unfold decodeString
  split_ifs with h <;> simp [h]

theorem text_of_decodeString {n : ℕ} {emptyOk : Bool} {value : List UInt8} {a : CharArray n}
    (h0 : (0 : UInt8) ∉ value) (h : decodeString n emptyOk value = some a) : a.text = value := by
  obtain ⟨⟨-,hlt⟩,rfl⟩ := decodeString_eq_some.1 h
  rw [strncpy_text h0,List.take_of_length_le (by omega)]

def decodePort (value : List UInt8) : Option (CharArray 8) :=
  if (strtol value).2 = [] ∧ 0 < (strtol value).1 ∧ (strtol value).1 ≤ 65535 then
    some (strncpy 8 value)
  else none

theorem decodePort_eq_some {value : List UInt8} {a : CharArray 8} :
    decodePort value = some a ↔
      ((strtol value).2 = [] ∧ 0 < (strtol value).1 ∧ (strtol value).1 ≤ 65535) ∧
        strncpy 8 value = a := by
  unfold decodePort
  split_ifs with h <;> simp [h]

def decodeKeyword {α : Type} (table : List (List UInt8 × α)) (value : List UInt8) : Option α :=
  (table.find? fun k => strCaseCmp value k.1 = 0).map Prod.snd

def protocolTable : List (List UInt8 × Protocol) := [(lit "http",.http),(lit "https",.https)]

def logLevelTable : List (List UInt8 × LogLevel) :=
  [(lit "none",.none),(lit "error",.error),(lit "warn",.warn),(lit "warning",.warn),
    (lit "info",.info),(lit "debug",.debug)]

def logOutputTable : List (List UInt8 × LogOutput) :=
  [(lit "uart",.uart),(lit "trace",.trace),(lit "file",.file)]

def boolTable : List (List UInt8 × Bool) :=
  [(lit "0",false),(lit "disable",false),(lit "disabled",false),(lit "false",false),
    (lit "1",true),(lit "enable",true),(lit "enabled",true),(lit "true",true)]

theorem stringValidate_eq {n : ℕ} (emptyOk : Bool) (set : CharArray n → Device F → Device F)
    (value : List UInt8) (d : Device F) :
    stringValidate emptyOk set value d = (decodeString n emptyOk value).map fun x => set x d := by
  unfold stringValidate decodeString
  split_ifs <;> rfl

theorem keywordValidate_eq {α : Type} (table : List (List UInt8 × α))
    (set : α → Device F → Device F) (value : List UInt8) (d : Device F) :
    keywordValidate (table.map fun k => (k.1,set k.2)) value d =
      (decodeKeyword table value).map fun x => set x d := by
  unfold keywordValidate decodeKeyword
  rw [List.find?_map,Option.map_map,Option.map_map]
  rfl

variable [FloatLib F]

def decode : (p : Param) → List UInt8 → Option (Content F p)
  | .deviceName => decodeString 32 false
  | .serverAddr => decodeString 64 false
  | .serverPort => decodePort
  | .serverProtocol => decodeKeyword protocolTable
  | .apn => decodeString 32 false
  | .apnUser => decodeString 32 true
  | .apnPass => decodeString 32 true
  | .logLevel => decodeKeyword logLevelTable
  | .logOutput => decodeKeyword logOutputTable
  | .gpsUere => fun value =>
    if FloatLib.inRange (FloatLib.atof value : F) then some (FloatLib.atof value : F) else none
  | .gpsLogs => decodeKeyword boolTable
  | .gpsLogFile => decodeString 128 false
  | .gpsPrintPos => decodeKeyword boolTable

theorem validator_eq (p : Param) (value : List UInt8) (d : Device F) :
    p.validator value d = (decode p value).map fun x => put p x d := by
  cases p with
  | deviceName => exact stringValidate_eq _ (put .deviceName) value d
  | serverAddr => exact stringValidate_eq _ (put .serverAddr) value d
  | serverPort =>
    simp only [Param.validator,portValidate,decode,decodePort]
    split_ifs <;> rfl
  | serverProtocol => exact keywordValidate_eq protocolTable (put .serverProtocol) value d
  | apn => exact stringValidate_eq _ (put .apn) value d
  | apnUser => exact stringValidate_eq _ (put .apnUser) value d
  | apnPass => exact stringValidate_eq _ (put .apnPass) value d
  | logLevel => exact keywordValidate_eq logLevelTable (put .logLevel) value d
  | logOutput => exact keywordValidate_eq logOutputTable (put .logOutput) value d
  | gpsUere =>
    simp only [Param.validator,gpsUereValidate,decode]
    split_ifs <;> rfl
  | gpsLogs => exact keywordValidate_eq boolTable (put .gpsLogs) value d
  | gpsLogFile => exact stringValidate_eq _ (put .gpsLogFile) value d
  | gpsPrintPos => exact keywordValidate_eq boolTable (put .gpsPrintPos) value d

def encode : (p : Param) → Content F p → List UInt8
  | .deviceName => stringSerializer
  | .serverAddr => stringSerializer
  | .serverPort => stringSerializer
  | .serverProtocol => protocolSerializer
  | .apn => stringSerializer
  | .apnUser => stringSerializer
  | .apnPass => stringSerializer
  | .logLevel => logLevelSerializer
  | .logOutput => logOutputSerializer
  | .gpsUere => floatSerializer (F := F)
  | .gpsLogs => boolSerializer
  | .gpsLogFile => stringSerializer
  | .gpsPrintPos => boolSerializer

theorem decodeKeyword_protocolSerializer (x : Protocol) :
    decodeKeyword protocolTable (protocolSerializer x) = some x := by
  cases x <;> rfl

theorem decodeKeyword_logLevelSerializer (x : LogLevel) :
    decodeKeyword logLevelTable (logLevelSerializer x) = if x = .none then none else some x := by
  cases x <;> rfl

theorem decodeKeyword_logOutputSerializer (x : LogOutput) :
    decodeKeyword logOutputTable (logOutputSerializer x) = some x := by
  cases x <;> rfl

theorem decodeKeyword_boolSerializer (x : Bool) :
    decodeKeyword boolTable (boolSerializer x) = some x := by
  cases x <;> rfl

/-- Every serializer encodes the field of its parameter. -/
theorem serializer_eq (p : Param) (c : Config F) : p.serializer c = encode p (get p c) := by
  cases p <;> rfl

/-! ### Steps -/

theorem paramName_of_getConfigMap {name : List UInt8} {p : Param}
    (h : getConfigMap name = some p) : p.paramName = name := by
  simpa using List.find?_some h

theorem getConfigMap_paramName (p : Param) : getConfigMap p.paramName = some p := by
  cases p <;> decide

def Stores (p : Param) (value : List UInt8) (d d' : Device F) : Prop :=
  ∃ x, decode p value = some x ∧ d' = put p x d

theorem validator_none {p : Param} {value : List UInt8} {d : Device F}
    (h : p.validator value d = none) : decode (F := F) p value = none := by
  rwa [validator_eq,Option.map_eq_none_iff] at h

theorem validator_some {p : Param} {value : List UInt8} {d d' : Device F}
    (h : p.validator value d = some d') : Stores p value d d' := by
  rw [validator_eq,Option.map_eq_some_iff] at h
  obtain ⟨x,hx,rfl⟩ := h
  exact ⟨x,hx,rfl⟩

theorem filterMap_gConfigMap {α : Type} (p : Param) (o : Option α) :
    (gConfigMap.filterMap fun q => if q = p then o else none) = o.toList := by
  cases p <;> cases o <;> rfl

/-- The value that a line assigns to a parameter. -/
def assigns (p : Param) (line : List UInt8) : Option (Content F p) :=
  match strchr line 61 with
  | none => none
  | some i =>
    if getConfigMap (trimWhitespace (line.take i)) = some p then
      decode p (trimWhitespace (line.drop (i+1)))
    else none

theorem exists_of_assigns {p : Param} {line : List UInt8} {x : Content F p}
    (h : assigns p line = some x) : ∃ v, v <:+ line ∧ decode p (trimWhitespace v) = some x := by
  unfold assigns at h
  split at h
  · simp at h
  · split_ifs at h
    exact ⟨_,List.drop_suffix _ _,h⟩

theorem assigns_append {a : List UInt8} (ha : (61 : UInt8) ∉ a) (h0 : (0 : UInt8) ∉ a) (p : Param)
    (b : List UInt8) : assigns (F := F) p (a++61::b) =
      if getConfigMap (trimWhitespace a) = some p then decode p (trimWhitespace b) else none := by
  have htake : (a++61::b).take a.length = a := by simp
  have hdrop : (a++61::b).drop (a.length+1) = b := by simp
  simp only [assigns,strchr_append ha h0 (by decide),htake,hdrop]

/-- A line is stored for the parameter it names, or it changes nothing. -/
theorem parseLine_cases (d : Device F) (line : List UInt8) :
    ((parseLine d line).1 = d ∧ (parseLine d line).2.ret = false ∧
      ∀ p, assigns (F := F) p line = none) ∨
    ∃ p i, strchr line 61 = some i ∧ getConfigMap (trimWhitespace (line.take i)) = some p ∧
      Stores p (trimWhitespace (line.drop (i+1))) d (parseLine d line).1 ∧
      (parseLine d line).2 = .stored p (trimWhitespace (line.drop (i+1))) := by
  cases hchr : strchr line 61 with
  | none => exact Or.inl ⟨by simp [parseLine,hchr],by simp [parseLine,hchr,LineOutcome.ret],
      by simp [assigns,hchr]⟩
  | some i =>
    cases hkey : getConfigMap (trimWhitespace (line.take i)) with
    | none => exact Or.inl ⟨by simp [parseLine,hchr,hkey],
        by simp [parseLine,hchr,hkey,LineOutcome.ret],by simp [assigns,hchr,hkey]⟩
    | some p =>
      cases hval : p.validator (trimWhitespace (line.drop (i+1))) d with
      | none =>
        refine Or.inl ⟨by simp [parseLine,hchr,hkey,hval],
          by simp [parseLine,hchr,hkey,hval,LineOutcome.ret],fun q => ?_⟩
        simp only [assigns,hchr,hkey,Option.some.injEq]
        split_ifs with heq
        · exact heq ▸ validator_none hval
        · rfl
      | some d' =>
        refine Or.inr ⟨p,i,rfl,hkey,?_,by simp [parseLine,hchr,hkey,hval]⟩
        simpa [parseLine,hchr,hkey,hval] using validator_some hval

theorem get_parseLine (q : Param) (d : Device F) (line : List UInt8) :
    get q (parseLine d line).1.config = (assigns q line).getD (get q d.config) := by
  rcases parseLine_cases d line with ⟨hd,-,hnone⟩ | ⟨p,i,hchr,hkey,⟨x,hx,hd⟩,-⟩
  · rw [hd,hnone]
    rfl
  · rw [hd]
    simp only [assigns,hchr,hkey,Option.some.injEq]
    split_ifs with heq
    · subst heq
      rw [hx,get_put_self]
      rfl
    · exact get_put_of_ne (fun h => heq h.symm) x d

end ConfigFields
end A9GTracker
