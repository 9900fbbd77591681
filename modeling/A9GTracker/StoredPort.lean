import Mathlib.Tactic.Linarith
import A9GTracker.ConfigInvariant
import A9GTracker.Decimal
import A9GTracker.HandedLines
import A9GTracker.HttpTransfer

/-! The port: what `PortValidate` checks is the whole text, what `http_send_receive` reads is
the part of it that fits the field. -/
namespace A9GTracker
namespace StoredPort

open CString Utils ConfigStore ConfigLoad ConfigFile ConfigCommands ConfigFields ConfigInvariant
open Decimal HandedLines HttpTransfer

/-! ### Accepted texts -/

def digitsOf (s : List UInt8) : List UInt8 :=
  let p := s.dropWhile isspace
  if p.head? = some 45 ∨ p.head? = some 43 then p.tail else p

/-- The digits among the first seven characters, and those that are cut off. -/
def keptDigits (s : List UInt8) : List UInt8 :=
  (digitsOf s).take (7-(s.length-(digitsOf s).length))

def cutDigits (s : List UInt8) : List UInt8 :=
  (digitsOf s).drop (7-(s.length-(digitsOf s).length))

/-- The cut takes nothing off, or characters that count just what their places add to the number
in front of them. Digits alone never do. -/
def Fits (s : List UInt8) : Prop :=
  s.length ≤ 7 ∨ weight (cutDigits s) = -(10^(cutDigits s).length-1)*weight (keptDigits s)

/-- A port as a text: blanks, perhaps a sign, and what `strtol` takes for digits. -/
structure PortText (value ws sign digits : List UInt8) : Prop where
  layout : Layout value ws sign digits []
  noOverflow : ¬ (loop (limitOf sign) digits).flag < 0
  positive : 0 < (strtol value).1

theorem exists_portText {value : List UInt8} {a : CharArray 8} (h : decodePort value = some a) :
    ∃ ws sign digits, PortText value ws sign digits := by
  obtain ⟨⟨hend,hpos,hle⟩,-⟩ := decodePort_eq_some.1 h
  obtain ⟨ws,sign,digits,hlayout⟩ := exists_layout_nil hend
  refine ⟨ws,sign,digits,hlayout,fun hflag => ?_,hpos⟩
  -- the limits themselves are no ports
  have hval : (strtol value).1 = if sign = [45] then longMin else longMax := by
    rw [hlayout.strtol_eq,numberOf_overflow hflag]
  rw [hval] at hpos hle
  split_ifs at hpos hle
  · exact absurd hpos (by decide)
  · exact absurd hle (by decide)

section portText
variable {value ws sign digits : List UInt8}

theorem PortText.strtol_eq (h : PortText value ws sign digits) :
    (strtol value).1 = if sign = [45] then -weight digits else weight digits := by
  rw [h.layout.strtol_eq,numberOf_loop h.layout.digits h.noOverflow]

theorem PortText.zero_notMem (h : PortText value ws sign digits) : (0 : UInt8) ∉ value := by
  intro hmem
  rw [h.layout.text,List.append_nil,List.append_assoc,List.mem_append,List.mem_append] at hmem
  rcases hmem with hws | hsign | hdigits
  · exact absurd (h.layout.blanks 0 hws) (by decide)
  · rcases h.layout.sign with rfl | rfl | rfl
    · simp at hsign
    · exact absurd hsign (by decide)
    · exact absurd hsign (by decide)
  · exact absurd (h.layout.digits 0 hdigits) (by decide)

theorem PortText.length_eq (h : PortText value ws sign digits) :
    value.length = (ws++sign).length+digits.length := by
  rw [h.layout.text,List.append_nil,List.length_append]

theorem PortText.digitsOf_eq (h : PortText value ws sign digits) : digitsOf value = digits := by
  have hstrip := h.layout.strip_sign.2
  rw [List.append_nil] at hstrip
  simp only [digitsOf,h.layout.dropWhile_isspace,List.append_nil]
  exact hstrip

theorem PortText.digits_parts (h : PortText value ws sign digits) :
    keptDigits value = digits.take (7-(ws++sign).length) ∧
      cutDigits value = digits.drop (7-(ws++sign).length) := by
  have hfront : value.length-digits.length = (ws++sign).length := by
    rw [h.length_eq,Nat.add_sub_cancel]
  rw [keptDigits,cutDigits,h.digitsOf_eq,hfront]
  exact ⟨rfl,rfl⟩

theorem weight_parts (s : List UInt8) : weight (digitsOf s) =
    weight (keptDigits s)*10^(cutDigits s).length+weight (cutDigits s) := by
  rw [← weight_append,keptDigits,cutDigits,List.take_append_drop]

/-- The number of the first seven characters; without a digit among them it is zero. -/
theorem PortText.strtol_take (h : PortText value ws sign digits) :
    (strtol (value.take 7)).1 =
      if sign = [45] then -weight (keptDigits value) else weight (keptDigits value) := by
  rw [(h.layout.take 7).strtol_eq,h.digits_parts.1]
  generalize hk : 7-(ws++sign).length = k
  cases k with
  | zero =>
    rw [List.take_zero,numberOf_nil]
    simp [weight]
  | succ k =>
    have hsign : sign.take (7-ws.length) = sign := by
      refine List.take_of_length_le ?_
      rw [List.length_append] at hk
      omega
    have hflag : ¬ (loop (limitOf sign) (digits.take (k+1))).flag < 0 := by
      intro hneg
      have happend := loop_flag_append hneg (digits.drop (k+1))
      rw [List.take_append_drop] at happend
      exact h.noOverflow happend
    have hdigits : IsNumerals (digits.take (k+1)) :=
      fun c hc => h.layout.digits c (List.mem_of_mem_take hc)
    rw [hsign,numberOf_loop hdigits hflag]

/-- The cut leaves the number as it is exactly where what is cut off cancels out. -/
theorem PortText.strtol_take_iff (h : PortText value ws sign digits) :
    (strtol (value.take 7)).1 = (strtol value).1 ↔ Fits value := by
  by_cases hshort : value.length ≤ 7
  · rw [List.take_of_length_le hshort]
    exact iff_of_true rfl (Or.inl hshort)
  · have hparts := weight_parts value
    rw [h.digitsOf_eq] at hparts
    rw [Fits,or_iff_right hshort,h.strtol_take,h.strtol_eq,hparts,neg_sub,sub_mul,one_mul]
    split_ifs
    · constructor
      · intro heq
        linarith
      · intro heq
        linarith
    · constructor
      · intro heq
        linarith
      · intro heq
        linarith

end portText

/-- The text in the field is the accepted one up to its seventh character. -/
theorem text_of_decodePort {value : List UInt8} {a : CharArray 8}
    (h : decodePort value = some a) : a.text = value.take 7 := by
  obtain ⟨ws,sign,digits,htext⟩ := exists_portText h
  obtain ⟨-,rfl⟩ := decodePort_eq_some.1 h
  exact strncpy_text htext.zero_notMem 8

theorem strtol_text_iff {value : List UInt8} {a : CharArray 8} (h : decodePort value = some a) :
    (strtol a.text).1 = (strtol value).1 ↔ Fits value := by
  obtain ⟨ws,sign,digits,htext⟩ := exists_portText h
  rw [text_of_decodePort h]
  exact htext.strtol_take_iff

/-! ### Runs -/

/-- A value for `port` that is accepted keeps its number in the field. -/
def FittingPort (name value : List UInt8) : Prop :=
  name = Param.serverPort.paramName → decodePort value ≠ none → Fits value

def FittingLine (line : List UInt8) : Prop :=
  ∀ i, strchr line 61 = some i →
    FittingPort (trimWhitespace (line.take i)) (trimWhitespace (line.drop (i+1)))

def FittingCommand (data : List UInt8) : Prop :=
  ∀ arg, dispatch (cstring data) = some (.set,arg) →
    FittingPort (splitAtSpace (trimWhitespace arg)).1 (splitAtSpace (trimWhitespace arg)).2

def handedLines {δ : Type} (read : δ → ℕ → ReadResult × δ) (file : BootFile δ) (fuel : ℕ) :
    List (List UInt8) :=
  ((configStoreLoad logLine read file.opened file.fileSize fuel [] file.device).map
    fun r => r.store).getD []

variable {F : Type} [FloatLib F]

/-- The reachable states of a device that is never given a port the cut makes another one. -/
inductive FittingPorts (imei : Option (List UInt8)) : Device F → Prop
  | init {δ : Type} (read : δ → ℕ → ReadResult × δ) (file : BootFile δ) (fuel : ℕ) {d : Device F}
      (h : configStoreInit read imei file fuel = some d)
      (hfits : ∀ line ∈ handedLines read file fuel, FittingLine line) : FittingPorts imei d
  | uart (a : SaveAnswers) (data : List UInt8) {d : Device F} (h : FittingPorts imei d)
      (hfits : FittingCommand data) : FittingPorts imei (handleUartCommand a data d).1

def PortKept (a : CharArray 8) : Prop :=
  ∃ value, decodePort value = some a ∧ Fits value

theorem PortKept.not_invalidPort {a : CharArray 8} (h : PortKept a) : ¬ invalidPort a.text := by
  obtain ⟨value,hvalue,hfits⟩ := h
  obtain ⟨⟨-,hpos,hle⟩,-⟩ := decodePort_eq_some.1 hvalue
  rw [← (strtol_text_iff hvalue).2 hfits] at hpos hle
  rintro (hlow | hhigh)
  · omega
  · omega

theorem FittingPort.portKept {name value : List UInt8} {a : CharArray 8} (h : FittingPort name value)
    (hname : name = Param.serverPort.paramName) (hvalue : decodePort value = some a) :
    PortKept a :=
  ⟨value,hvalue,h hname (by rw [hvalue]; exact Option.some_ne_none a)⟩

theorem portKept_of_assigns {line : List UInt8} {a : CharArray 8} (hfits : FittingLine line)
    (h : assigns (F := F) .serverPort line = some a) : PortKept a := by
  unfold assigns at h
  cases hchr : strchr line 61 with
  | none => simp [hchr] at h
  | some i =>
    simp only [hchr] at h
    split_ifs at h with hkey
    exact (hfits i hchr).portKept (paramName_of_getConfigMap hkey).symm h

theorem portKept_initDefaults (imei : Option (List UInt8)) :
    PortKept (initDefaults imei : Device F).config.serverPort := by
  have hport : strtol (lit "5055") = (5055,[]) := by decide
  have hdecode : decodePort (lit "5055") = some (strncpy 8 (lit "5055")) :=
    decodePort_eq_some.2 ⟨by rw [hport]; decide,rfl⟩
  have hget := get_applyDefaults (defaultOf imei (getImei imei (zeroDevice : Device F)).config)
    .serverPort (getImei imei (zeroDevice : Device F))
  have hdefault : decode (F := F) .serverPort
      (defaultOf imei (getImei imei (zeroDevice : Device F)).config .serverPort) =
        some (strncpy 8 (lit "5055")) := hdecode
  rw [hdefault] at hget
  exact ⟨lit "5055",hdecode.trans (congrArg some hget.symm),Or.inl (by decide)⟩

/-- A load leaves the default, or a port that one of its lines assigns. -/
theorem portKept_init {δ : Type} {read : δ → ℕ → ReadResult × δ} {imei : Option (List UInt8)}
    {file : BootFile δ} {fuel : ℕ} {d : Device F} (h : configStoreInit read imei file fuel = some d)
    (hfits : ∀ line ∈ handedLines read file fuel, FittingLine line) :
    PortKept d.config.serverPort := by
  unfold configStoreInit at h
  rw [configStoreLoad_replay,Option.map_map] at h
  obtain ⟨r,hr,rfl⟩ := Option.map_eq_some_iff.1 h
  have hlines : handedLines read file fuel = r.store := by
    rw [handedLines,hr]
    rfl
  rw [hlines] at hfits
  rcases Assignments.get_foldl_mem (fun d : Device F => get .serverPort d.config)
    (assigns .serverPort) (fun d line => get_parseLine .serverPort d line) r.store
    (initDefaults imei) with hdefault | ⟨line,hline,hassigns⟩
  · have hkept := portKept_initDefaults (F := F) imei
    exact Eq.subst (motive := PortKept) hdefault.symm hkept
  · exact portKept_of_assigns (hfits line hline) hassigns

theorem portKept_uart (a : SaveAnswers) {data : List UInt8} {d : Device F}
    (hfits : FittingCommand data) (h : PortKept d.config.serverPort) :
    PortKept (handleUartCommand a data d).1.config.serverPort := by
  unfold handleUartCommand
  cases hdisp : dispatch (cstring data) with
  | none => exact h
  | some r =>
    obtain ⟨c,arg⟩ := r
    by_cases hset : c = .set
    · subst hset
      simp only [runHandler,if_true]
      rcases handleSetCommand_cases a arg d with ⟨hsame,-⟩ | ⟨p,hname,⟨x,hx,hput⟩,-⟩
      · rwa [hsame]
      · rw [hput]
        by_cases hp : p = .serverPort
        · subst hp
          exact (hfits arg hdisp).portKept hname hx
        · have hother := get_put_of_ne (F := F) (Ne.symm hp) x d
          exact Eq.subst (motive := PortKept) hother.symm h
    · simpa [runHandler,hset] using h

theorem portKept_of_fittingPorts {imei : Option (List UInt8)} {d : Device F}
    (h : FittingPorts imei d) : PortKept d.config.serverPort := by
  induction h with
  | init read file fuel hd hfits => exact portKept_init hd hfits
  | uart a data _ hfits ih => exact portKept_uart a hfits ih

/-- A stored port reads as the number that was checked exactly when its text has at most seven
characters or the others cancel out; while this holds of all the accepted ones, the connection
is never refused for its port. -/
theorem port_kept_iff :
    (∀ (value : List UInt8) (d d' : Device F), portValidate value d = some d' →
      ((strtol d'.config.serverPort.text).1 = (strtol value).1 ↔ Fits value)) ∧
    ∀ (imei : Option (List UInt8)) (d : Device F), FittingPorts imei d →
      ¬ invalidPort d.config.serverPort.text := by
  refine ⟨fun value d d' h => ?_,fun imei d h => (portKept_of_fittingPorts h).not_invalidPort⟩
  obtain ⟨x,hx,rfl⟩ := validator_some (p := .serverPort) h
  exact strtol_text_iff hx

/-- The device that came up without a file and was given a port of seven characters. -/
def portDevice : Device Micros :=
  (handleUartCommand ⟨true,fun _ => 0⟩ (lit "set port 0000443") (initDefaults none)).1

theorem fittingPorts_portDevice : FittingPorts none portDevice := by
  refine .uart _ _ (.init fileRead ⟨false,0,⟨[],fun _ => 1,0⟩⟩ 0 rfl ?_) ?_
  · intro line hline
    exact absurd hline List.not_mem_nil
  · intro arg harg
    have hdispatch : dispatch (cstring (lit "set port 0000443")) =
        some (.set,lit " port 0000443") := by decide +kernel
    rw [hdispatch,Option.some.injEq,Prod.mk.injEq] at harg
    obtain ⟨-,rfl⟩ := harg
    have hsplit : (splitAtSpace (trimWhitespace (lit " port 0000443"))).2 = lit "0000443" := by
      decide +kernel
    rw [hsplit]
    exact fun _ _ => .inl (by decide)

/-- A port of seven characters is kept with its leading zeros. -/
theorem port_kept_iff_zeros :
    (∃ d : Device Micros, portValidate (lit "0000443") (initDefaults none) = some d ∧
      (strtol d.config.serverPort.text).1 = (strtol (lit "0000443")).1) ∧
    ¬ invalidPort portDevice.config.serverPort.text := by
  obtain ⟨hkept,hvalid⟩ := port_kept_iff (F := Micros)
  have hsome : (portValidate (lit "0000443") (initDefaults none : Device Micros)).isSome = true := by
    decide +kernel
  obtain ⟨d,hd⟩ := Option.isSome_iff_exists.1 hsome
  exact ⟨⟨d,hd,(hkept _ _ _ hd).2 (.inl (by decide))⟩,hvalid none _ fittingPorts_portDevice⟩

/-- The console stores `00000001` as `0000000`. -/
theorem leading_zeros_lost :
    ¬ ((∀ (value : List UInt8) (d d' : Device Micros), portValidate value d = some d' →
        (strtol d'.config.serverPort.text).1 = (strtol value).1) ∧
      ∀ (imei : Option (List UInt8)) (d : Device Micros), Reachable imei d →
        ¬ invalidPort d.config.serverPort.text) := by
  rintro ⟨-,hreach⟩
  refine hreach none _ (.uart ⟨true,fun _ => 0⟩ (lit "set port 00000001")
    (.init fileRead ⟨false,0,⟨[],fun _ => 1,0⟩⟩ 0 rfl)) ?_
  decide +kernel

end StoredPort
end A9GTracker
