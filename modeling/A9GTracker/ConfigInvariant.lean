import A9GTracker.ChunkedLoading
import A9GTracker.ConfigCommands
import A9GTracker.ConfigFields
import A9GTracker.Runs

/-! The configuration invariant: in every state after `ConfigStore_Init` the fields hold
acceptable values and the log setting of the GPS driver follows them. -/
namespace A9GTracker
namespace ConfigInvariant

open CString Utils Gps ConfigStore ConfigLoad ConfigFile ConfigCommands ConfigFields ChunkedLoading

variable {F : Type} [FloatLib F]

/-! ### Steps -/

/-- A store for `p` leaves the rest of the device alone. -/
structure OnlyField (p : Param) (d d' : Device F) : Prop where
  others : ∀ q, q ≠ p → get q d'.config = get q d.config
  imei : d'.config.imei = d.config.imei
  log : p ≠ .gpsLogs → p ≠ .gpsLogFile → d'.log = d.log

theorem onlyField_of_stores {p : Param} {value : List UInt8} {d d' : Device F}
    (h : Stores p value d d') : OnlyField p d d' := by
  obtain ⟨x,-,rfl⟩ := h
  exact ⟨fun q hq => get_put_of_ne hq x d,put_imei p x d,fun hp hp' => put_log hp hp' x d⟩

def LineNames (line : List UInt8) (p : Param) : Prop :=
  ∃ i, strchr line 61 = some i ∧ trimWhitespace (line.take i) = p.paramName

def SetNames (data : List UInt8) (p : Param) : Prop :=
  ∃ arg, dispatch (cstring data) = some (.set,arg) ∧
    (splitAtSpace (trimWhitespace arg)).1 = p.paramName

theorem handleSetCommand_cases (a : SaveAnswers) (param : List UInt8) (d : Device F) :
    ((handleSetCommand a param d).1 = d ∧ (handleSetCommand a param d).2.accepted = false) ∨
    ∃ p, (splitAtSpace (trimWhitespace param)).1 = p.paramName ∧
      Stores p (splitAtSpace (trimWhitespace param)).2 d (handleSetCommand a param d).1 ∧
      (handleSetCommand a param d).2.accepted = true := by
  by_cases hempty : trimWhitespace param = []
  · simp [handleSetCommand,hempty,SetReply.accepted]
  · simp only [handleSetCommand,if_neg hempty]
    cases hkey : getConfigMap (splitAtSpace (trimWhitespace param)).1 with
    | none => exact Or.inl ⟨rfl,rfl⟩
    | some p =>
      cases hval : p.validator (splitAtSpace (trimWhitespace param)).2 d with
      | none => exact Or.inl ⟨by simp [hval],by simp [hval,SetReply.accepted]⟩
      | some d' => exact Or.inr ⟨p,(paramName_of_getConfigMap hkey).symm,
          by simpa [hval] using validator_some hval,by simp [hval,SetReply.accepted]⟩

/-- A console line stores one acceptable value, or it changes nothing. -/
theorem handleUartCommand_cases (a : SaveAnswers) (data : List UInt8) (d : Device F) :
    ((handleUartCommand a data d).1 = d ∧ (handleUartCommand a data d).2.accepted = false) ∨
    ∃ p value, (0 : UInt8) ∉ value ∧ SetNames data p ∧
      Stores p value d (handleUartCommand a data d).1 ∧
      (handleUartCommand a data d).2.accepted = true := by
  unfold handleUartCommand
  cases hdisp : dispatch (cstring data) with
  | none => exact Or.inl ⟨rfl,rfl⟩
  | some r =>
    obtain ⟨c,arg⟩ := r
    have harg : (0 : UInt8) ∉ arg := by
      intro h0
      simp only [dispatch,Option.map_eq_some_iff,Prod.mk.injEq] at hdisp
      obtain ⟨c',-,-,rfl⟩ := hdisp
      exact zero_notMem_cstring data (mem_of_mem_trimWhitespace (List.mem_of_mem_drop h0))
    by_cases hset : c = .set
    · subst hset
      simp only [runHandler,if_true]
      rcases handleSetCommand_cases a arg d with hr | ⟨p,hname,hs,hr⟩
      · exact Or.inl hr
      · exact Or.inr ⟨p,_,fun h0 => harg (mem_of_mem_trimWhitespace (mem_of_mem_splitAtSpace h0)),
          ⟨arg,hdisp,hname⟩,hs,hr⟩
    · exact Or.inl (by simp [runHandler,hset,UartReply.accepted])

/-- The states after `ConfigStore_Init` from any file on any device, and any later lines of
the console. -/
inductive Reachable (imei : Option (List UInt8)) : Device F → Prop
  | init {δ : Type} (read : δ → ℕ → ReadResult × δ) (file : BootFile δ) (fuel : ℕ) {d : Device F}
      (h : configStoreInit read imei file fuel = some d) : Reachable imei d
  | uart (a : SaveAnswers) (data : List UInt8) {d : Device F} (h : Reachable imei d) :
      Reachable imei (handleUartCommand a data d).1

/-! ### Defaults -/

structure ImeiAnswer (imei : Option (List UInt8)) : Prop where
  nonempty : ∀ text ∈ imei, text ≠ []
  length_le : ∀ text ∈ imei, text.length ≤ 15
  noNul : ∀ text ∈ imei, (0 : UInt8) ∉ text

theorem applyDefaults_eq (default : Param → List UInt8) (d : Device F) :
    applyDefaults default d =
      gConfigMap.foldl
        (fun d p => ((decode (F := F) p (default p)).map fun x => put p x d).getD d) d := by
  simp only [applyDefaults,validator_eq]

theorem get_assignDefault (default : Param → List UInt8) (p q : Param) (d : Device F) :
    get p (((decode q (default q)).map fun x => put q x d).getD d).config =
      (if q = p then decode (F := F) p (default p) else none).getD (get p d.config) := by
  split_ifs with h
  · subst h
    cases decode (F := F) q (default q) with
    | none => rfl
    | some x => exact get_put_self q x d
  · cases decode (F := F) q (default q) with
    | none => rfl
    | some x => exact get_put_of_ne (fun heq => h heq.symm) x d

theorem get_applyDefaults (default : Param → List UInt8) (p : Param) (d : Device F) :
    get p (applyDefaults default d).config = (decode p (default p)).getD (get p d.config) := by
  rw [applyDefaults_eq,Assignments.get_foldl (fun d : Device F => get p d.config) _
    fun d q => get_assignDefault default p q d,filterMap_gConfigMap]
  cases decode (F := F) p (default p) <;> rfl

theorem defaultValue_noNul (p : Param) : (0 : UInt8) ∉ p.defaultValue := by
  cases p <;> decide

theorem decode_defaultValue {p : Param} (hp : p ≠ .gpsUere) :
    (decode (F := F) p p.defaultValue).isSome := by
  cases p with
  | serverPort =>
    have hport : strtol (lit "5055") = (5055,[]) := by decide
    simp only [decode,Param.defaultValue,decodePort,hport]
    rfl
  | gpsUere => exact absurd rfl hp
  | _ => rfl

omit [FloatLib F] in
theorem defaultOf_of_ne {p : Param} (hp : p ≠ .deviceName) (imei : Option (List UInt8))
    (c : Config F) : defaultOf imei c p = p.defaultValue := by
  cases p <;> first | rfl | exact absurd rfl hp

omit [FloatLib F] in
theorem getImei_text {imei : Option (List UInt8)} (h : ImeiAnswer imei) (d : Device F) :
    ∀ text ∈ imei, (getImei imei d).config.imei.text = text := by
  rintro text rfl
  have hlen := h.length_le text rfl
  simp only [getImei]
  rw [strncpy_text (h.noNul text rfl),List.take_of_length_le hlen]

theorem decode_default {imei : Option (List UInt8)} (h : ImeiAnswer imei) {p : Param}
    (hp : p ≠ .gpsUere) (d : Device F) :
    (decode (F := F) p (defaultOf imei (getImei imei d).config p)).isSome ∧
      (0 : UInt8) ∉ defaultOf imei (getImei imei d).config p := by
  by_cases hname : p = .deviceName
  · subst hname
    cases himei : imei with
    | none => exact ⟨rfl,defaultValue_noNul .deviceName⟩
    | some text =>
      have htext := getImei_text h d text himei
      have hpos := List.length_pos_iff.2 (h.nonempty text himei)
      have hlen := h.length_le text himei
      rw [himei] at htext
      have hlt : text.length < 32 := by omega
      simp only [defaultOf,Option.isSome_some,if_true,htext,decode,decodeString]
      rw [if_pos ⟨Or.inr hpos,hlt⟩]
      exact ⟨rfl,h.noNul text himei⟩
  · rw [defaultOf_of_ne hname]
    exact ⟨decode_defaultValue hp,defaultValue_noNul p⟩

/-! ### The driver's log setting -/

/-- The driver's log switch and path are those of the configuration. -/
def LogFollows (d : Device F) : Prop := d.log = ⟨d.config.gpsLogging,.gpsLogFile⟩

omit [FloatLib F] in
theorem logFollows_put {d : Device F} (h : LogFollows d) (p : Param) (x : Content F p) :
    LogFollows (put p x d) := by
  cases p <;> first | rfl | exact h

omit [FloatLib F] in
theorem logFollows_assignDefault {d : Device F} (h : LogFollows d) (p : Param)
    (o : Option (Content F p)) : LogFollows ((o.map fun x => put p x d).getD d) := by
  cases o with
  | none => exact h
  | some x => exact logFollows_put h p x

theorem logFollows_applyDefaults {default : Param → List UInt8} {x : Bool}
    (hx : decode (F := F) .gpsLogs (default .gpsLogs) = some x) (d : Device F) :
    LogFollows (applyDefaults default d) := by
  have hsplit : gConfigMap = gConfigMap.take 10++Param.gpsLogs::gConfigMap.drop 11 := rfl
  rw [applyDefaults_eq,hsplit,List.foldl_append,List.foldl_cons,hx]
  generalize List.foldl _ d (gConfigMap.take 10) = d'
  have hput : LogFollows (put .gpsLogs x d') := rfl
  generalize gConfigMap.drop 11 = ps
  exact List.foldlRecOn ps _ hput fun d hd p _ => logFollows_assignDefault hd p _

/-! ### The invariant -/

/-- Every field but `gps_uere` holds what its validator reads out of some string. -/
structure Settled (d : Device F) : Prop where
  field : ∀ p, p ≠ .gpsUere →
    ∃ value, (0 : UInt8) ∉ value ∧ decode p value = some (get p d.config)
  log : LogFollows d
  imei : (0 : UInt8) ∈ d.config.imei.bytes

theorem settled_stores {p : Param} {value : List UInt8} {d d' : Device F} (h : Settled d)
    (h0 : (0 : UInt8) ∉ value) (hs : Stores p value d d') : Settled d' := by
  obtain ⟨x,hx,rfl⟩ := hs
  refine ⟨fun q hq => ?_,logFollows_put h.log p x,?_⟩
  · by_cases heq : q = p
    · subst heq
      exact ⟨value,h0,by rw [hx,get_put_self]⟩
    · rw [get_put_of_ne heq]
      exact h.field q hq
  · rw [put_imei]
    exact h.imei

theorem settled_parseLine {d : Device F} {line : List UInt8} (h0 : (0 : UInt8) ∉ line)
    (h : Settled d) : Settled (parseLine d line).1 := by
  rcases parseLine_cases d line with ⟨hd,-,-⟩ | ⟨p,i,-,-,hs,-⟩
  · rwa [hd]
  · exact settled_stores h
      (fun hmem => h0 (List.mem_of_mem_drop (mem_of_mem_trimWhitespace hmem))) hs

theorem settled_handleUartCommand {d : Device F} (a : SaveAnswers) (data : List UInt8)
    (h : Settled d) : Settled (handleUartCommand a data d).1 := by
  rcases handleUartCommand_cases a data d with ⟨hd,-⟩ | ⟨p,value,h0,-,hs,-⟩
  · rwa [hd]
  · exact settled_stores h h0 hs

theorem applyDefaults_imei (default : Param → List UInt8) (d : Device F) :
    (applyDefaults default d).config.imei = d.config.imei := by
  rw [applyDefaults_eq]
  refine List.foldlRecOn (motive := fun d' : Device F => d'.config.imei = d.config.imei) gConfigMap _ rfl
    fun d' hd' p _ => ?_
  cases decode (F := F) p (default p) with
  | none => exact hd'
  | some x => exact (put_imei p x d').trans hd'

omit [FloatLib F] in
theorem getImei_terminated (imei : Option (List UInt8)) (d : Device F) :
    (0 : UInt8) ∈ (getImei imei d).config.imei.bytes := by
  cases imei with
  | none => exact List.mem_replicate.2 ⟨by decide,rfl⟩
  | some text => exact strncpy_terminated (by decide) text

/-- After the defaults every field but `gps_uere` holds what its default stands for. -/
theorem decode_defaultOf {imei : Option (List UInt8)} (h : ImeiAnswer imei) {p : Param}
    (hp : p ≠ .gpsUere) :
    decode p (defaultOf imei (getImei imei (zeroDevice : Device F)).config p) =
      some (get p (initDefaults imei : Device F).config) := by
  obtain ⟨x,hx⟩ := Option.isSome_iff_exists.1 (decode_default h hp (zeroDevice : Device F)).1
  rw [initDefaults,get_applyDefaults,hx]
  rfl

theorem settled_initDefaults {imei : Option (List UInt8)} (h : ImeiAnswer imei) :
    Settled (initDefaults imei : Device F) := by
  refine ⟨fun p hp => ⟨_,(decode_default h hp (zeroDevice : Device F)).2,decode_defaultOf h hp⟩,
    ?_,?_⟩
  · exact logFollows_applyDefaults (x := false) rfl _
  · rw [initDefaults,applyDefaults_imei]
    exact getImei_terminated imei zeroDevice

/-- Every reachable state is settled. -/
theorem settled_of_reachable {imei : Option (List UInt8)} (himei : ImeiAnswer imei)
    {d : Device F} (h : Reachable imei d) : Settled d := by
  induction h with
  | init read file fuel hd =>
    obtain ⟨r,hr,rfl⟩ := Option.map_eq_some_iff.1 hd
    have hline : ∀ (d : Device F) line, (0 : UInt8) ∉ line → Settled d → Settled (parseLine d line).1 :=
      fun _ _ h0 hs => settled_parseLine h0 hs
    exact configStoreLoad_invariant hline (settled_initDefaults himei) hr
  | uart a data _ ih => exact settled_handleUartCommand a data ih

/-- What the rest of the program relies on. The enumerated fields hold one of their
enumerators. -/
structure WellFormed (d : Device F) : Prop where
  imei_terminated : (0 : UInt8) ∈ d.config.imei.bytes
  deviceName_terminated : (0 : UInt8) ∈ d.config.deviceName.bytes
  serverAddr_terminated : (0 : UInt8) ∈ d.config.serverAddr.bytes
  serverPort_terminated : (0 : UInt8) ∈ d.config.serverPort.bytes
  apn_terminated : (0 : UInt8) ∈ d.config.apn.bytes
  apnUser_terminated : (0 : UInt8) ∈ d.config.apnUser.bytes
  apnPass_terminated : (0 : UInt8) ∈ d.config.apnPass.bytes
  gpsLogFile_terminated : (0 : UInt8) ∈ d.config.gpsLogFile.bytes
  deviceName_nonempty : d.config.deviceName.text ≠ []
  serverAddr_nonempty : d.config.serverAddr.text ≠ []
  apn_nonempty : d.config.apn.text ≠ []
  gpsLogFile_nonempty : d.config.gpsLogFile.text ≠ []
  serverProtocol : d.config.serverProtocol ∈ [Protocol.http,.https]
  logLevel : d.config.logLevel ∈ [LogLevel.none,.error,.warn,.info,.debug]
  logOutput : d.config.logOutput ∈ [LogOutput.uart,.trace,.file]
  isSaveLog : d.log.isSaveLog = d.config.gpsLogging
  gpsLogPath : d.log.gpsLogPath = .gpsLogFile

theorem terminated_of_decodeString {n : ℕ} {emptyOk : Bool} {value : List UInt8}
    {a : CharArray n} (h : decodeString n emptyOk value = some a) : (0 : UInt8) ∈ a.bytes := by
  obtain ⟨⟨-,hlt⟩,rfl⟩ := decodeString_eq_some.1 h
  exact strncpy_terminated (by omega) value

theorem nonempty_of_decodeString {n : ℕ} {value : List UInt8} {a : CharArray n}
    (h0 : (0 : UInt8) ∉ value) (h : decodeString n false value = some a) : a.text ≠ [] := by
  rw [text_of_decodeString h0 h]
  obtain ⟨⟨hpos,-⟩,-⟩ := decodeString_eq_some.1 h
  exact List.length_pos_iff.1 (hpos.resolve_left (by decide))

theorem Settled.wellFormed {d : Device F} (h : Settled d) : WellFormed d := by
  obtain ⟨v,hv0,hv⟩ := h.field .deviceName (by decide)
  obtain ⟨w,hw0,hw⟩ := h.field .serverAddr (by decide)
  obtain ⟨port,hport0,hport⟩ := h.field .serverPort (by decide)
  obtain ⟨x,hx0,hx⟩ := h.field .apn (by decide)
  obtain ⟨user,huser0,huser⟩ := h.field .apnUser (by decide)
  obtain ⟨pass,hpass0,hpass⟩ := h.field .apnPass (by decide)
  obtain ⟨y,hy0,hy⟩ := h.field .gpsLogFile (by decide)
  have hportTerminated : (0 : UInt8) ∈ d.config.serverPort.bytes := by
    have hbytes : strncpy 8 port = d.config.serverPort := (decodePort_eq_some.1 hport).2
    exact hbytes ▸ strncpy_terminated (by decide) port
  exact
    { imei_terminated := h.imei
      deviceName_terminated := terminated_of_decodeString hv
      serverAddr_terminated := terminated_of_decodeString hw
      serverPort_terminated := hportTerminated
      apn_terminated := terminated_of_decodeString hx
      apnUser_terminated := terminated_of_decodeString huser
      apnPass_terminated := terminated_of_decodeString hpass
      gpsLogFile_terminated := terminated_of_decodeString hy
      deviceName_nonempty := nonempty_of_decodeString hv0 hv
      serverAddr_nonempty := nonempty_of_decodeString hw0 hw
      apn_nonempty := nonempty_of_decodeString hx0 hx
      gpsLogFile_nonempty := nonempty_of_decodeString hy0 hy
      serverProtocol := by cases d.config.serverProtocol <;> simp
      logLevel := by cases d.config.logLevel <;> simp
      logOutput := by cases d.config.logOutput <;> simp
      isSaveLog := by rw [h.log]
      gpsLogPath := by rw [h.log] }

theorem parseLine_frame (d : Device F) (line : List UInt8) :
    ((parseLine d line).2.ret = false ∧ (parseLine d line).1 = d) ∨
    ((parseLine d line).2.ret = true ∧
      ∃ p, LineNames line p ∧ OnlyField p d (parseLine d line).1) := by
  rcases parseLine_cases d line with ⟨hd,hret,-⟩ | ⟨p,i,hchr,hkey,hs,hr⟩
  · exact Or.inl ⟨hret,hd⟩
  · exact Or.inr ⟨by rw [hr]; rfl,p,⟨i,hchr,(paramName_of_getConfigMap hkey).symm⟩,
      onlyField_of_stores hs⟩

theorem handleUartCommand_frame (a : SaveAnswers) (data : List UInt8) (d : Device F) :
    ((handleUartCommand a data d).2.accepted = false ∧ (handleUartCommand a data d).1 = d) ∨
    ((handleUartCommand a data d).2.accepted = true ∧
      ∃ p, SetNames data p ∧ OnlyField p d (handleUartCommand a data d).1) := by
  rcases handleUartCommand_cases a data d with ⟨hd,hret⟩ | ⟨p,value,-,hname,hs,hr⟩
  · exact Or.inl ⟨hret,hd⟩
  · exact Or.inr ⟨hr,p,hname,onlyField_of_stores hs⟩

/-- Every state after the initialisation is well formed, and every line of the file or of
the console is rejected and changes nothing, or changes only the field it names. -/
theorem wellFormed_of_reachable {imei : Option (List UInt8)} (himei : ImeiAnswer imei) :
    (∀ d : Device F, Reachable imei d → WellFormed d) ∧
    (∀ (d : Device F) line,
      ((parseLine d line).2.ret = false ∧ (parseLine d line).1 = d) ∨
      ((parseLine d line).2.ret = true ∧
        ∃ p, LineNames line p ∧ OnlyField p d (parseLine d line).1)) ∧
    ∀ a data (d : Device F),
      ((handleUartCommand a data d).2.accepted = false ∧ (handleUartCommand a data d).1 = d) ∨
      ((handleUartCommand a data d).2.accepted = true ∧
        ∃ p, SetNames data p ∧ OnlyField p d (handleUartCommand a data d).1) :=
  ⟨fun _ hd => (settled_of_reachable himei hd).wellFormed,parseLine_frame,handleUartCommand_frame⟩

def changedDevice : Device Micros :=
  (handleUartCommand ⟨false,fun _ => 0⟩ (lit "set port 8443")
    ((shortLines (lit "apn = internet\n")).foldl (fun d line => (parseLine d line).1)
      (initDefaults (some (lit "867959033012345"))))).1

theorem changedDevice_reachable : Reachable (some (lit "867959033012345")) changedDevice := by
  obtain ⟨fuel,r,hr⟩ := configStoreLoad_returns (fun d line => (parseLine d line).1)
    (initDefaults (some (lit "867959033012345")) : Device Micros) (lit "apn = internet\n")
    fun _ => 5
  have hstore := (configStoreLoad_store (by decide) hr).1
  have hinit : configStoreInit fileRead (some (lit "867959033012345"))
      (wholeFile (lit "apn = internet\n") fun _ => 5) fuel = some r.store := by
    rw [wholeFile_eq (by decide)]
    exact Option.map_eq_some_iff.2 ⟨r,hr,rfl⟩
  rw [hstore] at hinit
  exact .uart _ _ (.init fileRead _ fuel hinit)

/-- A line of the file and a line of the console are accepted, others are not. -/
theorem wellFormed_of_reachable_changed :
    changedDevice.config.apn.text = lit "internet" ∧
      changedDevice.config.serverPort.text = lit "8443" ∧ WellFormed changedDevice ∧
      (handleUartCommand ⟨false,fun _ => 0⟩ (lit "set port 0") changedDevice).1 =
        changedDevice := by
  obtain ⟨hwell,-,hconsole⟩ := @wellFormed_of_reachable Micros _
    (some (lit "867959033012345")) ⟨by decide,by decide,by decide⟩
  refine ⟨by decide +kernel,by decide +kernel,hwell _ changedDevice_reachable,?_⟩
  have hrejected : (handleUartCommand ⟨false,fun _ => 0⟩ (lit "set port 0")
      changedDevice).2.accepted = false := by decide +kernel
  rcases hconsole ⟨false,fun _ => 0⟩ (lit "set port 0") changedDevice with h | h
  · exact h.2
  · rw [hrejected] at h
    exact absurd h.1 (by decide)

end ConfigInvariant
end A9GTracker
