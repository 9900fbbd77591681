import A9GTracker.SavedFile

/-! The round trip of the configuration through the file: it holds exactly for
configurations whose texts are single trimmed lines and whose port and log level the
validators take back. -/
namespace A9GTracker
namespace ConfigRoundTrip

open CString Utils ConfigStore ConfigLoad ConfigFile ConfigCommands ConfigFields ConfigInvariant
open ChunkedLoading Lines SavedFile

variable {F : Type} [FloatLib F]

def OneLine (s : List UInt8) : Prop := (10 : UInt8) ∉ s ∧ trimWhitespace s = s

instance (s : List UInt8) : Decidable (OneLine s) := inferInstanceAs (Decidable (_ ∧ _))

theorem oneLine_of_isspace {s : List UInt8} (h : ∀ c ∈ s, isspace c = false) : OneLine s := by
  refine ⟨fun hmem => absurd (h 10 hmem) (by decide),trimWhitespace_of_ends ?_ ?_⟩
  · exact fun c hc => h c (List.mem_of_mem_head? hc)
  · exact fun c hc => h c (List.mem_of_mem_getLast? hc)

theorem oneLine_trimWhitespace {s : List UInt8} (h : (10 : UInt8) ∉ s) :
    OneLine (trimWhitespace s) :=
  ⟨fun hmem => h (mem_of_mem_trimWhitespace hmem),trimWhitespace_trimWhitespace s⟩

theorem oneLine_stringSerializer {n : ℕ} (hn : n ≤ 255) {a : CharArray n} :
    OneLine (stringSerializer a) ↔ OneLine a.text := by
  rw [stringSerializer_eq hn]

theorem oneLine_protocolSerializer (x : Protocol) : OneLine (protocolSerializer x) := by
  cases x <;> decide

theorem oneLine_logLevelSerializer (x : LogLevel) : OneLine (logLevelSerializer x) := by
  cases x <;> decide

theorem oneLine_logOutputSerializer (x : LogOutput) : OneLine (logOutputSerializer x) := by
  cases x <;> decide

theorem oneLine_boolSerializer (x : Bool) : OneLine (boolSerializer x) := by
  cases x <;> decide

/-! ### What a reboot can leave -/

theorem oneLine_encode {p : Param} (hp : p ≠ .gpsUere) {v : List UInt8} (hv : OneLine v)
    (h0 : (0 : UInt8) ∉ v) {x : Content F p} (hx : decode p v = some x) : OneLine (encode p x) := by
  have hstring : ∀ {n : ℕ} {e : Bool} {a : CharArray n}, n ≤ 255 →
      decodeString n e v = some a → OneLine (stringSerializer a) := by
    intro n e a hn ha
    rwa [oneLine_stringSerializer hn,text_of_decodeString h0 ha]
  cases p with
  | deviceName => exact hstring (by decide) hx
  | serverAddr => exact hstring (by decide) hx
  | apn => exact hstring (by decide) hx
  | apnUser => exact hstring (by decide) hx
  | apnPass => exact hstring (by decide) hx
  | gpsLogFile => exact hstring (by decide) hx
  | serverPort =>
    obtain ⟨hport,rfl⟩ := decodePort_eq_some.1 hx
    have hblank := isspace_of_strtol hv.2 hport.1
    simp only [encode]
    rw [stringSerializer_eq (by decide),strncpy_text h0]
    exact oneLine_of_isspace fun c hc => hblank c (List.mem_of_mem_take hc)
  | serverProtocol => exact oneLine_protocolSerializer x
  | logLevel => exact oneLine_logLevelSerializer x
  | logOutput => exact oneLine_logOutputSerializer x
  | gpsLogs => exact oneLine_boolSerializer x
  | gpsPrintPos => exact oneLine_boolSerializer x
  | gpsUere => exact absurd rfl hp

omit [FloatLib F] in
theorem oneLine_default {imei : Option (List UInt8)} (himei : ImeiAnswer imei)
    (hline : ∀ text ∈ imei, OneLine text) (d : Device F) (p : Param) :
    OneLine (defaultOf imei (getImei imei d).config p) := by
  by_cases hname : p = .deviceName
  · subst hname
    cases h : imei with
    | none => exact (by decide : OneLine (lit "IMEI"))
    | some text =>
      have htext := getImei_text himei d text h
      rw [h] at htext
      simp only [defaultOf,Option.isSome_some,if_true,htext]
      exact hline text h
  · rw [defaultOf_of_ne hname]
    cases p <;> decide

theorem oneLine_reboot {imei : Option (List UInt8)} (himei : ImeiAnswer imei)
    (hline : ∀ text ∈ imei, OneLine text) {p : Param} (hp : p ≠ .gpsUere) (c : Config F) :
    OneLine (encode p (get p (reboot imei c).config)) := by
  rcases Assignments.get_foldl_mem (fun d : Device F => get p d.config) (assigns p)
    (fun d line => get_parseLine p d line) (shortLines (savedFile c)) (initDefaults imei) with
    h | ⟨line,hmem,h⟩
  · have hdefault := decode_defaultOf (F := F) himei hp
    rw [← h] at hdefault
    exact oneLine_encode hp (oneLine_default himei hline zeroDevice p)
      (decode_default himei hp (zeroDevice : Device F)).2 hdefault
  · obtain ⟨v,hv,hx⟩ := exists_of_assigns h
    have hlines : line ∈ lines 10 (savedFile c) := List.mem_of_mem_filter hmem
    have h10 : (10 : UInt8) ∉ v := fun hin => notMem_of_mem_lines hlines (hv.subset hin)
    have h0 : (0 : UInt8) ∉ v := fun hin =>
      savedFile_noNul c ((infix_of_mem_lines hlines).subset (hv.subset hin))
    exact oneLine_encode hp (oneLine_trimWhitespace h10)
      (fun hin => h0 (mem_of_mem_trimWhitespace hin)) hx

/-- When no text has a line end, every field is read from its own entry. -/
theorem get_reboot_of_notMem {c : Config F} (h : ∀ q : Param, (10 : UInt8) ∉ q.serializer c)
    (imei : Option (List UInt8)) (p : Param) :
    get p (reboot imei c).config = (decode p (trimWhitespace (p.serializer c))).getD
      (get p (initDefaults imei : Device F).config) := by
  have hentries : gConfigMap.flatMap (entryLines c) =
      gConfigMap.map fun q => header q++(q.serializer c++[13]) := by
    rw [List.map_eq_flatMap]
    exact List.flatMap_congr fun q _ => entryLines_of_notMem (h q)
  have hassigns : (assigns p ∘ fun q => header q++(q.serializer c++[13])) =
      fun q => if q = p then decode (F := F) p (trimWhitespace (p.serializer c)) else none := by
    funext q
    rw [Function.comp_apply,assigns_header,trimWhitespace_concat rfl]
    split_ifs with heq
    · rw [heq]
    · rfl
  rw [get_reboot,hentries,List.filterMap_map,hassigns,filterMap_gConfigMap]
  cases decode (F := F) p (trimWhitespace (p.serializer c)) <;> rfl

/-! ### Storable configurations -/

/-- The texts are single lines without blanks at their ends, the port is a number that the
validator takes, and the log level has a name in the file. -/
structure Storable (c : Config F) : Prop where
  deviceName : OneLine c.deviceName.text
  serverAddr : OneLine c.serverAddr.text
  serverPort : OneLine c.serverPort.text
  apn : OneLine c.apn.text
  apnUser : OneLine c.apnUser.text
  apnPass : OneLine c.apnPass.text
  gpsLogFile : OneLine c.gpsLogFile.text
  portAccepted : (strtol c.serverPort.text).2 = [] ∧ 0 < (strtol c.serverPort.text).1 ∧
    (strtol c.serverPort.text).1 ≤ 65535
  logLevel : c.logLevel ≠ .none

theorem Storable.oneLine {c : Config F} (h : Storable c) {p : Param} (hp : p ≠ .gpsUere) :
    OneLine (p.serializer c) := by
  cases p with
  | deviceName => exact (oneLine_stringSerializer (by decide)).2 h.deviceName
  | serverAddr => exact (oneLine_stringSerializer (by decide)).2 h.serverAddr
  | serverPort => exact (oneLine_stringSerializer (by decide)).2 h.serverPort
  | apn => exact (oneLine_stringSerializer (by decide)).2 h.apn
  | apnUser => exact (oneLine_stringSerializer (by decide)).2 h.apnUser
  | apnPass => exact (oneLine_stringSerializer (by decide)).2 h.apnPass
  | gpsLogFile => exact (oneLine_stringSerializer (by decide)).2 h.gpsLogFile
  | serverProtocol => exact oneLine_protocolSerializer c.serverProtocol
  | logLevel => exact oneLine_logLevelSerializer c.logLevel
  | logOutput => exact oneLine_logOutputSerializer c.logOutput
  | gpsLogs => exact oneLine_boolSerializer c.gpsLogging
  | gpsPrintPos => exact oneLine_boolSerializer c.gpsPrintPos
  | gpsUere => exact absurd rfl hp

theorem notMem_serializer {c : Config F}
    (h : ∀ p, p ≠ Param.gpsUere → OneLine (p.serializer c)) (q : Param) :
    (10 : UInt8) ∉ q.serializer c := by
  by_cases hq : q = .gpsUere
  · subst hq
    exact fun hmem => (FloatLib.printF_plain c.gpsUere 10 (List.mem_of_mem_take hmem)).2 rfl
  · exact (h q hq).1

/-- The validators take the saved texts of a storable configuration back. -/
theorem Storable.decode_serializer {d : Device F} (h : Storable d.config) (hd : Settled d)
    {p : Param} (hp : p ≠ .gpsUere) :
    decode p (p.serializer d.config) = some (get p d.config) := by
  have hstring : ∀ {n : ℕ} {e : Bool} {a : CharArray n}, n ≤ 255 →
      (∃ v, (0 : UInt8) ∉ v ∧ decodeString n e v = some a) →
      decodeString n e (stringSerializer a) = some a := by
    rintro n e a hn ⟨v,hv0,hv⟩
    rw [stringSerializer_eq hn,text_of_decodeString hv0 hv,hv]
  have hfield := hd.field p hp
  cases p with
  | deviceName => exact hstring (by decide) hfield
  | serverAddr => exact hstring (by decide) hfield
  | apn => exact hstring (by decide) hfield
  | apnUser => exact hstring (by decide) hfield
  | apnPass => exact hstring (by decide) hfield
  | gpsLogFile => exact hstring (by decide) hfield
  | serverPort =>
    obtain ⟨v,hv0,hv⟩ := hfield
    have hport : strncpy 8 v = d.config.serverPort := (decodePort_eq_some.1 hv).2
    refine decodePort_eq_some.2 ?_
    simp only [Param.serializer]
    rw [stringSerializer_eq (by decide)]
    refine ⟨h.portAccepted,?_⟩
    rw [← hport]
    exact (strncpy_strncpy_text hv0 8).trans hport
  | serverProtocol => exact decodeKeyword_protocolSerializer d.config.serverProtocol
  | logLevel => exact (decodeKeyword_logLevelSerializer d.config.logLevel).trans (if_neg h.logLevel)
  | logOutput => exact decodeKeyword_logOutputSerializer d.config.logOutput
  | gpsLogs => exact decodeKeyword_boolSerializer d.config.gpsLogging
  | gpsPrintPos => exact decodeKeyword_boolSerializer d.config.gpsPrintPos
  | gpsUere => exact absurd rfl hp

/-! ### The round trip -/

/-- Every parameter but `gps_uere` has the same value. -/
def SameParameters (d d' : Device F) : Prop :=
  ∀ p, p ≠ Param.gpsUere → get p d'.config = get p d.config

theorem Storable.sameParameters {d : Device F} (h : Storable d.config) (hd : Settled d)
    (imei : Option (List UInt8)) : SameParameters d (reboot imei d.config) := by
  intro p hp
  rw [get_reboot_of_notMem (notMem_serializer fun q hq => h.oneLine hq),(h.oneLine hp).2,
    h.decode_serializer hd hp]
  rfl

theorem storable_of_sameParameters {imei : Option (List UInt8)} (himei : ImeiAnswer imei)
    (hline : ∀ text ∈ imei, OneLine text) {d : Device F}
    (h : SameParameters d (reboot imei d.config)) : Storable d.config := by
  have hone : ∀ p, p ≠ Param.gpsUere → OneLine (p.serializer d.config) := by
    intro p hp
    rw [serializer_eq,← h p hp]
    exact oneLine_reboot himei hline hp d.config
  -- with single lines only, what its own entry does not set has its default
  have hget : ∀ p, p ≠ Param.gpsUere → get p d.config =
      (decode p (p.serializer d.config)).getD (get p (initDefaults imei : Device F).config) := by
    intro p hp
    rw [← h p hp,get_reboot_of_notMem (notMem_serializer hone),(hone p hp).2]
  refine
    { deviceName := (oneLine_stringSerializer (by decide)).1 (hone .deviceName (by decide))
      serverAddr := (oneLine_stringSerializer (by decide)).1 (hone .serverAddr (by decide))
      serverPort := (oneLine_stringSerializer (by decide)).1 (hone .serverPort (by decide))
      apn := (oneLine_stringSerializer (by decide)).1 (hone .apn (by decide))
      apnUser := (oneLine_stringSerializer (by decide)).1 (hone .apnUser (by decide))
      apnPass := (oneLine_stringSerializer (by decide)).1 (hone .apnPass (by decide))
      gpsLogFile := (oneLine_stringSerializer (by decide)).1 (hone .gpsLogFile (by decide))
      portAccepted := ?_
      logLevel := ?_ }
  · have hport : d.config.serverPort = (decodePort (stringSerializer d.config.serverPort)).getD
        (initDefaults imei : Device F).config.serverPort := hget .serverPort (by decide)
    rw [stringSerializer_eq (by decide)] at hport
    cases hdecode : decodePort d.config.serverPort.text with
    | some a => exact (decodePort_eq_some.1 hdecode).1
    | none =>
      have hdefault : decodePort (lit "5055") = some (initDefaults imei : Device F).config.serverPort :=
        decode_defaultOf (p := .serverPort) himei (by decide)
      rw [hdecode,Option.getD_none,← (decodePort_eq_some.1 hdefault).2] at hport
      have htext : (strncpy 8 (lit "5055")).text = lit "5055" := by decide
      rw [hport,htext,hdefault] at hdecode
      simp at hdecode
  · intro hnone
    have hlevel : d.config.logLevel =
        (decodeKeyword logLevelTable (logLevelSerializer d.config.logLevel)).getD
          (initDefaults imei : Device F).config.logLevel := hget .logLevel (by decide)
    have hdefault : some LogLevel.info = some (initDefaults imei : Device F).config.logLevel :=
      decode_defaultOf (p := .logLevel) himei (by decide)
    rw [hnone,← Option.some.inj hdefault] at hlevel
    exact absurd hlevel (by decide)

/-- A reachable configuration comes back from the file if and only if it is storable. -/
theorem sameParameters_afterReboot_iff {imei : Option (List UInt8)} (himei : ImeiAnswer imei)
    (hline : ∀ text ∈ imei, OneLine text) {d : Device F} (hd : Reachable imei d) :
    AfterReboot imei d (SameParameters d) ↔ Storable d.config := by
  rw [afterReboot_iff]
  exact ⟨storable_of_sameParameters himei hline,
    fun h => h.sameParameters (settled_of_reachable himei hd) imei⟩

def namedDevice : Device Micros :=
  (handleUartCommand ⟨false,fun _ => 0⟩ (lit "set port 8443")
    (handleUartCommand ⟨false,fun _ => 0⟩ (lit "set device_name Bus 7")
      (initDefaults (some (lit "867959033012345")))).1).1

theorem namedDevice_storable : Storable namedDevice.config where
  deviceName := by decide +kernel
  serverAddr := by decide +kernel
  serverPort := by decide +kernel
  apn := by decide +kernel
  apnUser := by decide +kernel
  apnPass := by decide +kernel
  gpsLogFile := by decide +kernel
  portAccepted := by decide +kernel
  logLevel := by decide +kernel

theorem namedDevice_reachable : Reachable (some (lit "867959033012345")) namedDevice := by
  unfold namedDevice
  exact .uart _ _ (.uart _ _ (.init fileRead ⟨false,0,⟨[],fun _ => 1,0⟩⟩ 0 rfl))

theorem sameParameters_afterReboot_iff_named :
    namedDevice.config.deviceName.text = lit "Bus 7" ∧
      namedDevice.config.serverPort.text = lit "8443" ∧
      AfterReboot (some (lit "867959033012345")) namedDevice (SameParameters namedDevice) :=
  ⟨by decide +kernel,by decide +kernel,
    (sameParameters_afterReboot_iff ⟨by decide,by decide,by decide⟩ (by decide)
      namedDevice_reachable).2 namedDevice_storable⟩

/-- `set log_level none` is accepted and saved, but the device comes up with `info`. -/
theorem logLevel_none_not_restored :
    let imei := some (lit "867959033012345")
    let d : Device Micros :=
      (handleUartCommand ⟨false,fun _ => 0⟩ (lit "set log_level none") (initDefaults imei)).1
    Reachable imei d ∧ d.config.logLevel = .none ∧ ¬ AfterReboot imei d (SameParameters d) := by
  intro imei d
  have hnone : d.config.logLevel = .none := by decide +kernel
  refine ⟨.uart _ _ (.init fileRead ⟨false,0,⟨[],fun _ => 1,0⟩⟩ 0 rfl),hnone,fun h => ?_⟩
  have hsame := (afterReboot_iff imei d _).1 h
  have himei : ImeiAnswer imei := ⟨by decide,by decide,by decide⟩
  exact (storable_of_sameParameters himei (by decide) hsame).logLevel hnone

end ConfigRoundTrip
end A9GTracker
