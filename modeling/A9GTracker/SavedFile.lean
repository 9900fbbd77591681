import A9GTracker.ConfigInvariant
import A9GTracker.Lines
import A9GTracker.Runs

/-! The file that `ConfigStore_Save` writes, as `ConfigStore_Load` reads it. -/
namespace A9GTracker
namespace SavedFile

open CString Utils ConfigStore ConfigLoad ConfigFile ConfigFields ChunkedLoading Lines
open ConfigInvariant

variable {F : Type} [FloatLib F]

/-! ### One entry -/

theorem text_length_le {n : ℕ} (a : CharArray n) : a.text.length ≤ n :=
  (List.takeWhile_prefix _).length_le.trans a.size.le

theorem stringSerializer_eq {n : ℕ} (hn : n ≤ 255) (a : CharArray n) :
    stringSerializer a = a.text :=
  List.take_of_length_le ((text_length_le a).trans hn)

theorem stringSerializer_plain {n : ℕ} (hn : n ≤ 128) (a : CharArray n) :
    (0 : UInt8) ∉ stringSerializer a ∧ (stringSerializer a).length ≤ 128 := by
  rw [stringSerializer_eq (by omega)]
  exact ⟨zero_notMem_cstring a.bytes,(text_length_le a).trans hn⟩

theorem serializer_plain (p : Param) (c : Config F) :
    (0 : UInt8) ∉ p.serializer c ∧ (p.serializer c).length ≤ 128 := by
  cases p with
  | deviceName => exact stringSerializer_plain (by decide) c.deviceName
  | serverAddr => exact stringSerializer_plain (by decide) c.serverAddr
  | serverPort => exact stringSerializer_plain (by decide) c.serverPort
  | apn => exact stringSerializer_plain (by decide) c.apn
  | apnUser => exact stringSerializer_plain (by decide) c.apnUser
  | apnPass => exact stringSerializer_plain (by decide) c.apnPass
  | gpsLogFile => exact stringSerializer_plain (by decide) c.gpsLogFile
  | serverProtocol => cases h : c.serverProtocol <;> simp only [Param.serializer,h] <;> decide
  | logLevel => cases h : c.logLevel <;> simp only [Param.serializer,h] <;> decide
  | logOutput => cases h : c.logOutput <;> simp only [Param.serializer,h] <;> decide
  | gpsLogs => cases h : c.gpsLogging <;> simp only [Param.serializer,h] <;> decide
  | gpsPrintPos => cases h : c.gpsPrintPos <;> simp only [Param.serializer,h] <;> decide
  | gpsUere =>
    have hlen := FloatLib.printF_length c.gpsUere
    simp only [Param.serializer,floatSerializer,serializerBuf]
    rw [List.take_of_length_le (by omega)]
    exact ⟨fun h0 => (FloatLib.printF_plain c.gpsUere 0 h0).1 rfl,by omega⟩

def header (p : Param) : List UInt8 :=
  p.paramName++List.replicate (20-p.paramName.length) 32++lit " = "

theorem header_plain (p : Param) :
    (10 : UInt8) ∉ header p ∧ (0 : UInt8) ∉ header p ∧ (header p).length = 23 := by
  cases p <;> decide

theorem saveLine_eq (c : Config F) (p : Param) :
    saveLine c p = header p++(p.serializer c++lit "\r\n") := by
  have hlen := (serializer_plain p c).2
  have hheader := (header_plain p).2.2
  have hend : (lit "\r\n").length = 2 := by rw [lit_crlf]; rfl
  have heq : configLine p.paramName (p.serializer c) = header p++(p.serializer c++lit "\r\n") := by
    simp only [configLine,header,List.append_assoc]
  rw [saveLine,heq]
  refine List.take_of_length_le ?_
  rw [List.length_append,List.length_append]
  omega

/-- The lines of one entry: the first one follows the header. -/
def entryLines (c : Config F) (p : Param) : List (List UInt8) := lines 10 (saveLine c p)

/-- The lines of an entry behind the first one: what its text has behind a line end. -/
def leftover (text : List UInt8) : List (List UInt8) := (lines 10 (text++lit "\r\n")).tail

theorem saveLine_noNul (c : Config F) (p : Param) : (0 : UInt8) ∉ saveLine c p := by
  simp [saveLine_eq,(header_plain p).2.1,(serializer_plain p c).1,lit_crlf]

theorem saveLine_terminated (c : Config F) (p : Param) :
    saveLine c p = (header p++p.serializer c++[13])++[10] := by
  simp [saveLine_eq,lit_crlf]

theorem entryLines_eq (c : Config F) (p : Param) :
    ∃ l, (10 : UInt8) ∉ l ∧ (0 : UInt8) ∉ l ∧
      entryLines c p = (header p++l)::leftover (p.serializer c) := by
  cases hl : lines 10 (p.serializer c++lit "\r\n") with
  | nil =>
    have hempty := lines_eq_nil.1 hl
    simp [lit] at hempty
  | cons l ls =>
    have hcons : entryLines c p = (header p++l)::ls := by
      rw [entryLines,saveLine_eq]
      exact lines_append_of_cons (header_plain p).1 hl
    have hmem : l ∈ lines 10 (p.serializer c++lit "\r\n") := by simp [hl]
    refine ⟨l,notMem_of_mem_lines hmem,fun h0 => ?_,by rw [hcons,leftover,hl]; rfl⟩
    have hin : (header p++l) ∈ lines 10 (saveLine c p) := by
      rw [← entryLines,hcons]
      simp
    exact saveLine_noNul c p ((infix_of_mem_lines hin).subset (by simp [h0]))

theorem leftover_of_notMem {text : List UInt8} (h : (10 : UInt8) ∉ text) : leftover text = [] := by
  have hline : text++lit "\r\n" = (text++[13])++10::[] := by simp [lit_crlf]
  rw [leftover,hline,lines_append_sep (by simp [h])]
  rfl

theorem entryLines_of_notMem {c : Config F} {p : Param} (h : (10 : UInt8) ∉ p.serializer c) :
    entryLines c p = [header p++(p.serializer c++[13])] := by
  rw [entryLines,saveLine_terminated,lines_append_sep (by simp [h,(header_plain p).1])]
  simp

/-- An entry assigns its own parameter, with the text behind the header. -/
theorem assigns_header (p q : Param) (l : List UInt8) :
    assigns (F := F) p (header q++l) = if q = p then decode p (trimWhitespace l) else none := by
  let blanks := List.replicate (20-q.paramName.length) (32 : UInt8)++[32]
  have hsplit : header q++l = (q.paramName++blanks)++61::32::l := by
    simp [header,blanks,lit_equals]
  have hname : (61 : UInt8) ∉ q.paramName ∧ (0 : UInt8) ∉ q.paramName ∧
      trimWhitespace q.paramName = q.paramName := by
    cases q <;> decide
  have hblanks : AllBlank blanks := by
    intro c hc
    simp only [blanks,List.mem_append,List.mem_replicate,List.mem_singleton] at hc
    rcases hc with ⟨-,rfl⟩ | rfl <;> rfl
  have hblank : ∀ c : UInt8, isspace c = false → c ∉ blanks := by
    intro c hc hmem
    simp [hblanks c hmem] at hc
  rw [hsplit,assigns_append (by simp [hname.1,hblank 61 rfl]) (by simp [hname.2.1,hblank 0 rfl]),
    trimWhitespace_append_right hblanks,hname.2.2,getConfigMap_paramName,trimWhitespace_cons rfl]
  simp

/-! ### The whole file -/

theorem savedFile_noNul (c : Config F) : (0 : UInt8) ∉ savedFile c := by
  intro h0
  obtain ⟨line,hline,hmem⟩ := List.mem_flatten.1 h0
  obtain ⟨p,-,rfl⟩ := List.mem_map.1 hline
  exact saveLine_noNul c p hmem

/-- The lines of the file are those of its entries, and none is too long for the buffer. -/
theorem shortLines_savedFile (c : Config F) :
    shortLines (savedFile c) = gConfigMap.flatMap (entryLines c) := by
  have hlines : lines 10 (savedFile c) = gConfigMap.flatMap (entryLines c) := by
    rw [savedFile,lines_flatten,List.flatMap_map]
    · rfl
    · intro t ht
      obtain ⟨p,-,rfl⟩ := List.mem_map.1 ht
      exact ⟨_,saveLine_terminated c p⟩
  rw [shortLines,hlines,List.filter_eq_self]
  intro l hl
  obtain ⟨p,-,hp⟩ := List.mem_flatMap.1 hl
  have hlen := (infix_of_mem_lines hp).length_le
  have hline : (saveLine c p).length ≤ 254 := by
    rw [saveLine,List.length_take]
    omega
  simp only [decide_eq_true_eq]
  omega

/-! ### Reboot -/

def reboot (imei : Option (List UInt8)) (c : Config F) : Device F :=
  (shortLines (savedFile c)).foldl (fun d line => (parseLine d line).1) (initDefaults imei)

def CompleteSave (a : SaveAnswers) (c : Config F) : Prop :=
  a.opened = true ∧ ∀ e ∈ gConfigMap.zipIdx, a.written e.2 = (saveLine c e.1).length

/-- Every complete save, followed by a reset that reads the file in any cuts, ends in a
device with the property. -/
def AfterReboot (imei : Option (List UInt8)) (d : Device F) (P : Device F → Prop) : Prop :=
  ∀ a cuts, CompleteSave a d.config →
    ∃ file, configStoreSave a d.config = (some file,true) ∧
      (∃ fuel, ∃ d' : Device F,
        configStoreInit fileRead imei (wholeFile file cuts) fuel = some d') ∧
      ∀ fuel d', configStoreInit fileRead imei (wholeFile file cuts) fuel = some d' → P d'

theorem exists_completeSave (c : Config F) : ∃ a, CompleteSave a c := by
  refine ⟨⟨true,fun i => ((gConfigMap.map (saveLine c)).getD i []).length⟩,rfl,?_⟩
  intro e he
  obtain ⟨p,i⟩ := e
  have hget := List.mem_zipIdx' he
  simp [List.getD_eq_getElem?_getD,hget.1,hget.2]

theorem afterReboot_iff (imei : Option (List UInt8)) (d : Device F) (P : Device F → Prop) :
    AfterReboot imei d P ↔ P (reboot imei d.config) := by
  have hwhole := wholeFile_eq ((savedFile_length_le d.config).trans_lt (by decide))
  have hstore : ∀ cuts fuel d',
      configStoreInit fileRead imei (wholeFile (savedFile d.config) cuts) fuel = some d' →
      d' = reboot imei d.config := by
    intro cuts fuel d' hd'
    rw [hwhole] at hd'
    obtain ⟨r,hr,rfl⟩ := Option.map_eq_some_iff.1 hd'
    exact (configStoreLoad_store (savedFile_noNul d.config) hr).1
  have hreturns : ∀ cuts, ∃ fuel, ∃ d' : Device F,
      configStoreInit fileRead imei (wholeFile (savedFile d.config) cuts) fuel = some d' := by
    intro cuts
    rw [hwhole]
    obtain ⟨fuel,r,hr⟩ := configStoreLoad_returns (fun d line => (parseLine d line).1)
      (initDefaults imei : Device F) (savedFile d.config) cuts
    exact ⟨fuel,r.store,Option.map_eq_some_iff.2 ⟨r,hr,rfl⟩⟩
  constructor
  · intro h
    obtain ⟨a,ha⟩ := exists_completeSave d.config
    obtain ⟨file,hfile,⟨fuel,d',hd'⟩,hP⟩ := h a (fun _ => 1) ha
    rw [configStoreSave_complete a d.config ha.1 ha.2,Prod.mk.injEq,Option.some.injEq] at hfile
    obtain rfl := hfile.1
    exact hstore _ _ _ hd' ▸ hP _ _ hd'
  · intro hP a cuts ha
    exact ⟨savedFile d.config,configStoreSave_complete a d.config ha.1 ha.2,hreturns cuts,
      fun fuel d' hd' => hstore cuts fuel d' hd' ▸ hP⟩

theorem get_reboot (imei : Option (List UInt8)) (p : Param) (c : Config F) :
    get p (reboot imei c).config =
      (((gConfigMap.flatMap (entryLines c)).filterMap (assigns p)).getLast?).getD
        (get p (initDefaults imei : Device F).config) := by
  rw [reboot,shortLines_savedFile]
  exact Assignments.get_foldl (fun d : Device F => get p d.config) (assigns p)
    (fun d line => get_parseLine p d line) _ _

end SavedFile
end A9GTracker
