import A9GTracker.PowerCycles

/-! Saves that are cut off. Losing power while the file is written can cost a parameter its
value, but never gives it the value of another one. -/
namespace A9GTracker
namespace TornSaves

open CString Utils ConfigStore ConfigLoad ConfigFile ConfigCommands ConfigFields ConfigInvariant
open ChunkedLoading Lines SavedFile ConfigRoundTrip PowerCycles

variable {F : Type} [FloatLib F]

/-! ### Saves that are cut off -/

def key (p : Param) : List UInt8 := p.paramName++List.replicate (20-p.paramName.length) 32++[32]

def pieces (s : List UInt8) : List (List UInt8) := s.tails.flatMap List.inits

theorem mem_pieces {w s : List UInt8} : w ∈ pieces s ↔ w <:+: s := by
  simp only [pieces,List.mem_flatMap,List.mem_tails,List.mem_inits]
  rw [List.infix_iff_prefix_suffix]
  exact exists_congr fun t => and_comm

/-- A keyword read out of a piece of another one is shown as a piece of it. -/
theorem protocol_pieces (x : Protocol) : ∀ w ∈ pieces (protocolSerializer x),
    ∀ y ∈ decodeKeyword protocolTable w, protocolSerializer y <:+: protocolSerializer x := by
  cases x <;> decide +kernel

theorem logLevel_pieces (x : LogLevel) : ∀ w ∈ pieces (logLevelSerializer x),
    ∀ y ∈ decodeKeyword logLevelTable w, logLevelSerializer y <:+: logLevelSerializer x := by
  cases x <;> decide +kernel

theorem logOutput_pieces (x : LogOutput) : ∀ w ∈ pieces (logOutputSerializer x),
    ∀ y ∈ decodeKeyword logOutputTable w, logOutputSerializer y <:+: logOutputSerializer x := by
  cases x <;> decide +kernel

theorem bool_pieces (x : Bool) : ∀ w ∈ pieces (boolSerializer x),
    ∀ y ∈ decodeKeyword boolTable w, boolSerializer y <:+: boolSerializer x := by
  cases x <;> decide +kernel

/-- What is read out of a piece of a text is shown as a piece of that text. -/
theorem encode_isInfix {p : Param} (hp : p ≠ .gpsUere) {x y : Content F p} {w : List UInt8}
    (hw : w <:+: encode p x) (hy : decode p w = some y) : encode p y <:+: encode p x := by
  have hstring : ∀ {n m : ℕ} {e : Bool} {a : CharArray n} {b : CharArray m}, n ≤ 128 → m ≤ 128 →
      w <:+: stringSerializer a → decodeString m e w = some b →
      stringSerializer b <:+: stringSerializer a := by
    intro n m e a b hn hm hpiece hb
    have h0 : (0 : UInt8) ∉ w := fun h => (stringSerializer_plain hn a).1 (hpiece.subset h)
    rwa [stringSerializer_eq (by omega : m ≤ 255),text_of_decodeString h0 hb]
  cases p with
  | deviceName => exact hstring (by decide) (by decide) hw hy
  | serverAddr => exact hstring (by decide) (by decide) hw hy
  | apn => exact hstring (by decide) (by decide) hw hy
  | apnUser => exact hstring (by decide) (by decide) hw hy
  | apnPass => exact hstring (by decide) (by decide) hw hy
  | gpsLogFile => exact hstring (by decide) (by decide) hw hy
  | serverPort =>
    obtain ⟨-,rfl⟩ := decodePort_eq_some.1 hy
    have h0 : (0 : UInt8) ∉ w := fun h => (stringSerializer_plain (by decide) x).1 (hw.subset h)
    have htext : encode (F := F) .serverPort (strncpy 8 w) = w.take 7 :=
      (stringSerializer_eq (by decide) _).trans (strncpy_text h0 8)
    rw [htext]
    exact (List.take_prefix 7 w).isInfix.trans hw
  | serverProtocol => exact protocol_pieces x w (mem_pieces.2 hw) y hy
  | logLevel => exact logLevel_pieces x w (mem_pieces.2 hw) y hy
  | logOutput => exact logOutput_pieces x w (mem_pieces.2 hw) y hy
  | gpsLogs => exact bool_pieces x w (mem_pieces.2 hw) y hy
  | gpsPrintPos => exact bool_pieces x w (mem_pieces.2 hw) y hy
  | gpsUere => exact absurd rfl hp

/-- The value itself, or what is read out of a piece of its text. -/
def LeftOf (p : Param) (x y : Content F p) : Prop :=
  y = x ∨ ∃ w, w <:+: encode p x ∧ decode p w = some y

theorem LeftOf.isInfix {p : Param} (hp : p ≠ .gpsUere) {x y : Content F p} (h : LeftOf p x y) :
    encode p y <:+: encode p x := by
  rcases h with rfl | ⟨w,hw,hy⟩
  · exact List.infix_rfl
  · exact encode_isInfix hp hw hy

theorem LeftOf.trans {p : Param} (hp : p ≠ .gpsUere) {x y z : Content F p} (h : LeftOf p x y)
    (h' : LeftOf p y z) : LeftOf p x z := by
  rcases h' with rfl | ⟨w,hw,hz⟩
  · exact h
  · exact Or.inr ⟨w,hw.trans (h.isInfix hp),hz⟩

/-- A value that was set in the run, or the default, or what a cut save has left of it. -/
def Traced (imei : Option (List UInt8)) (sets : List (Param × List UInt8)) (p : Param)
    (y : Content F p) : Prop :=
  ∃ value x, (value = defaults imei p ∨ (p,value) ∈ sets) ∧ decode p value = some x ∧ LeftOf p x y

def AllTraced (imei : Option (List UInt8)) (sets : List (Param × List UInt8)) (c : Config F) :
    Prop :=
  ∀ p, p ≠ Param.gpsUere → Traced imei sets p (get p c)

theorem mem_of_mem_strncpy {n : ℕ} {value : List UInt8} {c : UInt8} (hc : c ≠ 0)
    (h : c ∈ (strncpy n value).text) : c ∈ value := by
  have hbytes : c ∈ (strncpy n value).bytes := (List.takeWhile_prefix _).subset h
  rcases List.mem_append.1 hbytes with hmem | hmem
  · exact List.mem_of_mem_take hmem
  · exact absurd (List.mem_replicate.1 hmem).2 hc

theorem notMem_encode {p : Param} (hp : p ≠ .gpsUere) {value : List UInt8}
    (h : (10 : UInt8) ∉ value) {x : Content F p} (hx : decode p value = some x) :
    (10 : UInt8) ∉ encode p x := by
  have hstring : ∀ {n : ℕ} {e : Bool} {a : CharArray n}, n ≤ 255 →
      decodeString n e value = some a → (10 : UInt8) ∉ stringSerializer a := by
    intro n e a hn ha hmem
    obtain ⟨-,rfl⟩ := decodeString_eq_some.1 ha
    rw [stringSerializer_eq hn] at hmem
    exact h (mem_of_mem_strncpy (by decide) hmem)
  cases p with
  | deviceName => exact hstring (by decide) hx
  | serverAddr => exact hstring (by decide) hx
  | apn => exact hstring (by decide) hx
  | apnUser => exact hstring (by decide) hx
  | apnPass => exact hstring (by decide) hx
  | gpsLogFile => exact hstring (by decide) hx
  | serverPort =>
    obtain ⟨-,rfl⟩ := decodePort_eq_some.1 hx
    intro hmem
    rw [encode,stringSerializer_eq (by decide)] at hmem
    exact h (mem_of_mem_strncpy (by decide) hmem)
  | serverProtocol => exact (oneLine_protocolSerializer x).1
  | logLevel => exact (oneLine_logLevelSerializer x).1
  | logOutput => exact (oneLine_logOutputSerializer x).1
  | gpsLogs => exact (oneLine_boolSerializer x).1
  | gpsPrintPos => exact (oneLine_boolSerializer x).1
  | gpsUere => exact absurd rfl hp

theorem notMem_defaults {imei : Option (List UInt8)} (himei : ImeiAnswer imei)
    (hline : ∀ text ∈ imei, (10 : UInt8) ∉ text) (p : Param) : (10 : UInt8) ∉ defaults imei p := by
  by_cases hname : p = .deviceName
  · subst hname
    cases h : imei with
    | none => exact (by decide : (10 : UInt8) ∉ lit "IMEI")
    | some text =>
      have htext := getImei_text himei (zeroDevice : Device Micros) text h
      rw [h] at htext
      simp only [defaults,defaultOf,Option.isSome_some,if_true,htext]
      exact hline text h
  · rw [defaults,defaultOf_of_ne hname]
    cases p <;> decide

/-- Traced texts are single lines, and so is the number of `gps_uere`. -/
theorem AllTraced.notMem {imei : Option (List UInt8)} (himei : ImeiAnswer imei)
    (hline : ∀ text ∈ imei, (10 : UInt8) ∉ text) {sets : List (Param × List UInt8)}
    (hsets : ∀ e ∈ sets, (10 : UInt8) ∉ e.2) {c : Config F} (h : AllTraced imei sets c)
    (q : Param) : (10 : UInt8) ∉ q.serializer c := by
  by_cases hq : q = .gpsUere
  · subst hq
    exact fun hmem => (FloatLib.printF_plain c.gpsUere 10 (List.mem_of_mem_take hmem)).2 rfl
  · obtain ⟨value,x,hvalue,hx,hleft⟩ := h q hq
    have h10 : (10 : UInt8) ∉ value := by
      rcases hvalue with rfl | hmem
      · exact notMem_defaults himei hline q
      · exact hsets _ hmem
    rw [serializer_eq]
    exact fun hmem => notMem_encode hq h10 hx ((hleft.isInfix hq).subset hmem)

end TornSaves
end A9GTracker
