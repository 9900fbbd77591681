import Mathlib.Data.List.Basic
import Mathlib.Tactic.Common
import A9GTracker.ConfigStore
import A9GTracker.FormUrlencoded
import A9GTracker.Tracker

/-! When the request body of a report is read as what it was made from. The device name goes
into it as it is, so its own `&`, `+` and escapes are read as those of the form. -/
namespace A9GTracker
namespace PositionReport

open CString Network ConfigStore FormUrlencoded Tracker

abbrev PlainText := { s : List UInt8 // ∀ c ∈ lit "&=%+", c ∉ s }

def numberTexts (n : ReportNumbers PlainText) : ReportNumbers (List UInt8) where
  valid := n.valid
  timestamp := n.timestamp
  latitude := n.latitude
  longitude := n.longitude
  speed := n.speed
  bearing := n.bearing
  altitude := n.altitude
  accuracy := n.accuracy
  percent := n.percent

/-- The names a report is read for; the cell only if it is known. -/
def reportKeys (cellInfoStr : List UInt8) : List (List UInt8) :=
  [lit "id",lit "valid",lit "timestamp",lit "lat",lit "lon",lit "speed",lit "bearing",
    lit "altitude",lit "accuracy"]++
  (if cellInfoStr = [] then [] else [lit "cell"])++[lit "batt"]

/-- Every name is there once, and the identifier is the device name. -/
structure ReportDecodable (deviceName cellInfoStr body : List UInt8) : Prop where
  once : ∀ key ∈ reportKeys cellInfoStr, ((parseForm body).map Prod.fst).count key = 1
  id_eq : ∀ value, (lit "id",value) ∈ parseForm body → value = deviceName

/-- A cell information string as the callback leaves it. -/
structure CellText (cellInfoStr : List UInt8) : Prop where
  length_le : cellInfoStr.length ≤ 127
  no_amp : 38 ∉ cellInfoStr

/-! ### Cell information -/

theorem printNat_digits (n : ℕ) : ∀ c ∈ printNat n, c ≠ 38 := by
  intro c hc
  obtain ⟨d,hd,rfl⟩ := List.mem_map.mp hc
  have hdigit := Nat.isDigit_of_mem_toDigits (by decide) (by decide) hd
  simp only [Char.isDigit,Bool.and_eq_true,decide_eq_true_eq] at hdigit
  intro h
  have hn := congrArg UInt8.toNat h
  simp only [UInt8.toNat_ofNat'] at hn
  have hge : 48 ≤ d.toNat := hdigit.1
  have hle : d.toNat ≤ 57 := hdigit.2
  have hmod : d.toNat % 256 = 38 := hn
  omega

theorem printInt_no_amp (n : ℤ) : ∀ c ∈ printInt n, c ≠ 38 := by
  intro c hc
  simp only [printInt] at hc
  split_ifs at hc
  · rcases List.mem_cons.mp hc with rfl | hc
    · decide
    · exact printNat_digits _ c hc
  · exact printNat_digits _ c hc

theorem printLocation_no_amp (l : Location) : ∀ c ∈ printLocation l, c ≠ 38 := by
  intro c hc
  simp only [printLocation,List.mem_append] at hc
  have hcomma : c ∈ lit "," → c ≠ 38 := by
    intro h
    rw [List.mem_singleton.mp h]
    decide
  have hnat : ∀ n, c ∈ printNat n → c ≠ 38 := fun n => printNat_digits n c
  have hint : c ∈ printInt l.iRxLev → c ≠ 38 := printInt_no_amp _ c
  grind

theorem cellInfo_cellText (loc : List Location) (number : ℤ) (st : NetState) :
    CellText (networkCellInfoCallback loc number st).cellInfoStr := by
  simp only [networkCellInfoCallback]
  split_ifs
  · exact ⟨by simp,by simp⟩
  · refine ⟨by simp,?_⟩
    intro hmem
    have hmem := List.mem_of_mem_take hmem
    cases hl : (loc.take (min number.toNat 8)++st.cellInfo.drop (min number.toNat 8)).head? with
    | none => simp [hl] at hmem
    | some l =>
      rw [hl] at hmem
      exact printLocation_no_amp l 38 hmem rfl

/-! ### The pieces of a report -/

def piece (field : List UInt8 × List UInt8) : List UInt8 := field.1++61::field.2

def frontFields (deviceName cellInfoStr : List UInt8) (n : ReportNumbers (List UInt8)) :
    List (List UInt8 × List UInt8) :=
  [(lit "id",deviceName),(lit "valid",n.valid),(lit "timestamp",n.timestamp),
    (lit "lat",n.latitude),(lit "lon",n.longitude),(lit "speed",n.speed),
    (lit "bearing",n.bearing),(lit "altitude",n.altitude),(lit "accuracy",n.accuracy)]++
  if cellInfoStr = [] then [] else [(lit "cell",cellInfoStr)]

def frontText (deviceName cellInfoStr : List UInt8) (n : ReportNumbers (List UInt8)) :
    List UInt8 :=
  [38].intercalate ((frontFields deviceName cellInfoStr n).map piece)

theorem intercalate_concat {ps : List (List UInt8)} (h : ps ≠ []) (p : List UInt8) :
    [38].intercalate (ps++[p]) = [38].intercalate ps++38::p := by
  induction ps with
  | nil => exact absurd rfl h
  | cons q ps ih =>
    cases ps with
    | nil => simp
    | cons r ps =>
      have ih := ih (by simp)
      simp only [List.cons_append,List.intercalate_cons_cons] at ih ⊢
      rw [ih]
      simp

theorem cellParameter_eq {cellInfoStr : List UInt8} (hcell : CellText cellInfoStr) :
    cellParameter cellInfoStr = if cellInfoStr = [] then [] else lit "&cell="++cellInfoStr := by
  unfold cellParameter
  by_cases hc : cellInfoStr = []
  · rw [if_pos hc,if_pos hc]
  · rw [if_neg hc,if_neg hc]
    refine List.take_of_length_le ?_
    have hl := hcell.length_le
    have hprefix : (lit "&cell=").length = 6 := by decide
    rw [List.length_append]
    omega

theorem reportText_eq {cellInfoStr : List UInt8} (hcell : CellText cellInfoStr)
    (deviceName : List UInt8) (n : ReportNumbers (List UInt8)) :
    reportText deviceName cellInfoStr n =
      frontText deviceName cellInfoStr n++38::(lit "batt"++61::n.percent) := by
  have hid : lit "id=" = lit "id"++[61] := by decide
  have hvalid : lit "&valid=" = 38::(lit "valid"++[61]) := by decide
  have htimestamp : lit "&timestamp=" = 38::(lit "timestamp"++[61]) := by decide
  have hlat : lit "&lat=" = 38::(lit "lat"++[61]) := by decide
  have hlon : lit "&lon=" = 38::(lit "lon"++[61]) := by decide
  have hspeed : lit "&speed=" = 38::(lit "speed"++[61]) := by decide
  have hbearing : lit "&bearing=" = 38::(lit "bearing"++[61]) := by decide
  have haltitude : lit "&altitude=" = 38::(lit "altitude"++[61]) := by decide
  have haccuracy : lit "&accuracy=" = 38::(lit "accuracy"++[61]) := by decide
  have hcellName : lit "&cell=" = 38::(lit "cell"++[61]) := by decide
  have hbatt : lit "&batt=" = 38::(lit "batt"++[61]) := by decide
  unfold reportText
  rw [cellParameter_eq hcell]
  simp only [hid,hvalid,htimestamp,hlat,hlon,hspeed,hbearing,haltitude,haccuracy,hcellName,hbatt]
  unfold frontText frontFields
  by_cases hc : cellInfoStr = []
  · rw [if_pos hc,if_pos hc]
    simp only [List.append_nil,List.map_cons,List.map_nil,List.intercalate_cons_cons,
      List.intercalate_singleton,piece,List.append_assoc,List.cons_append,List.nil_append]
  · rw [if_neg hc,if_neg hc]
    simp only [List.map_cons,List.map_nil,List.intercalate_cons_cons,
      List.intercalate_singleton,piece,List.append_assoc,List.cons_append,List.nil_append]

theorem requestBody_start {deviceName : List UInt8} (hname : deviceName.length ≤ 31)
    (cellInfoStr : List UInt8) (n : ReportNumbers (List UInt8)) :
    ∃ rest, requestBody deviceName cellInfoStr n = lit "id="++deviceName++38::rest := by
  obtain ⟨rest,hrest⟩ : ∃ rest, reportText deviceName cellInfoStr n =
      (lit "id="++deviceName++[38])++rest := by
    have hvalid : lit "&valid=" = [38]++lit "valid=" := by decide
    unfold reportText
    rw [hvalid]
    simp only [List.append_assoc]
    exact ⟨_,rfl⟩
  have hfit : (lit "id="++deviceName++[38]).length ≤ 399 := by
    have hid : (lit "id=").length = 3 := by decide
    simp only [List.length_append,List.length_singleton,hid]
    omega
  rw [requestBody,hrest,List.take_append,List.take_of_length_le hfit]
  exact ⟨_,by rw [List.append_assoc _ [38]]; rfl⟩

/-! ### Which names are read back -/

theorem parse_id {a : List UInt8} (ha : 38 ∉ a) (rest : List UInt8) :
    parseForm (lit "id="++a++38::rest) = (lit "id",decode a)::parseForm rest := by
  have hid : lit "id=" = lit "id"++[61] := by decide
  have hpiece : lit "id="++a = lit "id"++61::a := by rw [hid,List.append_assoc]; rfl
  rw [hpiece,parseForm_append (by simp [ha,lit]) (by simp),readField_append (by decide)]
  rfl

theorem plain_of_decodable {deviceName : List UInt8} (hname : deviceName.length ≤ 31)
    {cellInfoStr : List UInt8} {n : ReportNumbers (List UInt8)}
    (h : ReportDecodable deviceName cellInfoStr (requestBody deviceName cellInfoStr n)) :
    38 ∉ deviceName ∧ Plain deviceName := by
  obtain ⟨rest,hbody⟩ := requestBody_start hname cellInfoStr n
  have hsplit : ∀ a b, 38 ∉ a → requestBody deviceName cellInfoStr n = lit "id="++a++38::b →
      decode a = deviceName := by
    intro a b ha hb
    refine h.id_eq _ ?_
    rw [hb,parse_id ha]
    exact List.mem_cons_self
  by_cases hamp : 38 ∈ deviceName
  · obtain ⟨a,b,hab,ha⟩ := List.eq_append_cons_of_mem hamp
    have hdec := hsplit a (b++38::rest) ha (by rw [hbody,hab]; simp)
    have hl := congrArg List.length hdec
    have hle := decode_length_le a
    rw [hab,List.length_append,List.length_cons] at hl
    omega
  · exact ⟨hamp,(decode_eq_self_iff _).mp (hsplit _ _ hamp hbody)⟩

/-! ### Which names are there once -/

theorem frontFields_keys (deviceName cellInfoStr : List UInt8)
    (n : ReportNumbers (List UInt8)) :
    (frontFields deviceName cellInfoStr n).map Prod.fst++[lit "batt"] = reportKeys cellInfoStr := by
  unfold frontFields reportKeys
  by_cases hc : cellInfoStr = []
  · rw [if_pos hc,if_pos hc]
    rfl
  · rw [if_neg hc,if_neg hc]
    rfl

theorem reportKeys_eq (cellInfoStr : List UInt8) :
    reportKeys cellInfoStr = reportKeys [] ∨ reportKeys cellInfoStr = reportKeys [0] := by
  by_cases hc : cellInfoStr = []
  · exact .inl (congrArg reportKeys hc)
  · right
    unfold reportKeys
    rw [if_neg hc,if_neg (by decide)]

theorem reportKeys_spec (cellInfoStr : List UInt8) :
    (reportKeys cellInfoStr).Nodup ∧
      ∀ key ∈ reportKeys cellInfoStr, 61 ∉ key ∧ 38 ∉ key ∧ decode key = key := by
  rcases reportKeys_eq cellInfoStr with h | h <;> rw [h] <;> decide

theorem frontField_key {deviceName cellInfoStr : List UInt8} {n : ReportNumbers (List UInt8)}
    {f : List UInt8 × List UInt8} (hf : f ∈ frontFields deviceName cellInfoStr n) :
    61 ∉ f.1 ∧ 38 ∉ f.1 ∧ decode f.1 = f.1 := by
  refine (reportKeys_spec cellInfoStr).2 f.1 ?_
  rw [← frontFields_keys deviceName cellInfoStr n]
  exact List.mem_append_left _ (List.mem_map_of_mem hf)

theorem frontField_value {deviceName cellInfoStr : List UInt8} (hname : 38 ∉ deviceName)
    (hcell : CellText cellInfoStr) (n : ReportNumbers PlainText)
    {f : List UInt8 × List UInt8}
    (hf : f ∈ frontFields deviceName cellInfoStr (numberTexts n)) : 38 ∉ f.2 := by
  have hplain : ∀ t : PlainText, 38 ∉ t.val := fun t => t.property 38 (by decide)
  unfold frontFields at hf
  rcases List.mem_append.mp hf with hf | hf
  · simp only [List.mem_cons,List.not_mem_nil,or_false] at hf
    rcases hf with rfl | rfl | rfl | rfl | rfl | rfl | rfl | rfl | rfl
    · exact hname
    all_goals exact hplain _
  · split_ifs at hf
    · simp at hf
    · obtain rfl := List.mem_singleton.mp hf
      exact hcell.no_amp

theorem frontPieces_no_amp {deviceName cellInfoStr : List UInt8} (hname : 38 ∉ deviceName)
    (hcell : CellText cellInfoStr) (n : ReportNumbers PlainText) :
    ∀ p ∈ (frontFields deviceName cellInfoStr (numberTexts n)).map piece, 38 ∉ p := by
  intro p hp
  obtain ⟨f,hf,rfl⟩ := List.mem_map.mp hp
  have hkey := (frontField_key hf).2.1
  have hvalue := frontField_value hname hcell n hf
  simp [piece,hkey,hvalue]

theorem frontPieces_ne_nil (deviceName cellInfoStr : List UInt8)
    (n : ReportNumbers (List UInt8)) :
    (frontFields deviceName cellInfoStr n).map piece ≠ [] := by
  simp [frontFields]

theorem no_batt_key (cellInfoStr : List UInt8) :
    ∀ key ∈ (reportKeys cellInfoStr).dropLast++[lit "bat"],
      ∀ s, s <+: key → decode s ≠ lit "batt" := by
  have hinits : ∀ key ∈ (reportKeys cellInfoStr).dropLast++[lit "bat"],
      ∀ s ∈ key.inits, decode s ≠ lit "batt" := by
    rcases reportKeys_eq cellInfoStr with h | h <;> rw [h] <;> decide
  intro key hkey s hs
  exact hinits key hkey s ((List.mem_inits s key).mpr hs)

theorem id_notMem_tail (cellInfoStr : List UInt8) : lit "id" ∉ (reportKeys cellInfoStr).tail := by
  rcases reportKeys_eq cellInfoStr with h | h <;> rw [h] <;> decide

theorem fits_of_decodable {deviceName cellInfoStr : List UInt8} (hname : 38 ∉ deviceName)
    (hcell : CellText cellInfoStr) (n : ReportNumbers PlainText)
    (h : ReportDecodable deviceName cellInfoStr
      (requestBody deviceName cellInfoStr (numberTexts n))) :
    (frontText deviceName cellInfoStr (numberTexts n)).length ≤ 394 := by
  by_contra hlong
  have hbatt : lit "batt" ∈ reportKeys cellInfoStr := by simp [reportKeys]
  have hcount := h.once _ hbatt
  obtain ⟨field,hmem,hfield⟩ := List.mem_map.mp (List.count_pos_iff.mp (by omega :
    0 < ((parseForm (requestBody deviceName cellInfoStr (numberTexts n))).map Prod.fst).count
      (lit "batt")))
  have hcut : requestBody deviceName cellInfoStr (numberTexts n) <+:
      [38].intercalate ((frontFields deviceName cellInfoStr (numberTexts n)).map piece++
        [lit "bat"]) := by
    rw [intercalate_concat (frontPieces_ne_nil _ _ _)]
    refine List.prefix_of_prefix_length_le (List.take_prefix 399 _) ?_ ?_
    · rw [reportText_eq hcell]
      refine (List.prefix_append_right_inj _).mpr ?_
      exact ⟨116::61::n.percent.val,rfl⟩
    · have hl : (lit "bat").length = 3 := by decide
      have hle : (requestBody deviceName cellInfoStr (numberTexts n)).length ≤ 399 :=
        List.length_take_le _ _
      rw [frontText] at hlong
      simp only [List.length_append,List.length_cons,hl]
      omega
  have hamp : ∀ p ∈ (frontFields deviceName cellInfoStr (numberTexts n)).map piece++[lit "bat"],
      38 ∉ p := by
    intro p hp
    rcases List.mem_append.mp hp with hp | hp
    · exact frontPieces_no_amp hname hcell n p hp
    · rw [List.mem_singleton.mp hp]
      decide
  obtain ⟨p,hp,s,hs,hdec⟩ := parseForm_of_cut hamp (by simp) hcut
    (show (field.1,field.2) ∈ _ from hmem)
  refine no_batt_key cellInfoStr (p.takeWhile (· ≠ 61)) ?_ s hs (hdec.trans hfield)
  rcases List.mem_append.mp hp with hp | hp
  · obtain ⟨f,hf,rfl⟩ := List.mem_map.mp hp
    have hkey : (piece f).takeWhile (· ≠ 61) = f.1 := by
      rw [piece,List.takeWhile_append_of_pos (ne_equals (frontField_key hf).1)]
      simp
    rw [hkey]
    refine List.mem_append_left _ ?_
    rw [← frontFields_keys deviceName cellInfoStr (numberTexts n),List.dropLast_concat]
    exact List.mem_map_of_mem hf
  · rw [List.mem_singleton.mp hp]
    exact List.mem_append_right _ (by decide)

/-! ### Reports that are read back -/

/-- What is left of the last piece. -/
def battPiece (room : ℕ) (n : ReportNumbers (List UInt8)) : List UInt8 :=
  lit "batt"++(61::n.percent).take room

theorem requestBody_fits {deviceName cellInfoStr : List UInt8} (hcell : CellText cellInfoStr)
    {n : ReportNumbers (List UInt8)}
    (hfit : (frontText deviceName cellInfoStr n).length ≤ 394) :
    ∃ room, requestBody deviceName cellInfoStr n =
      [38].intercalate ((frontFields deviceName cellInfoStr n).map piece++[battPiece room n]) := by
  refine ⟨394-(frontText deviceName cellInfoStr n).length,?_⟩
  rw [intercalate_concat (frontPieces_ne_nil _ _ _),requestBody,reportText_eq hcell]
  show _ = frontText deviceName cellInfoStr n++_
  rw [List.take_append,List.take_of_length_le (by omega)]
  congr 1
  obtain ⟨k,hk⟩ := Nat.exists_eq_add_of_le hfit
  have hroom : 399-(frontText deviceName cellInfoStr n).length = k+5 := by omega
  have hrest : 394-(frontText deviceName cellInfoStr n).length = k := by omega
  rw [hroom,hrest]
  rfl

theorem battPiece_key (room : ℕ) (n : ReportNumbers (List UInt8)) :
    (readField (battPiece room n)).1 = lit "batt" := by
  unfold battPiece
  cases room with
  | zero =>
    rw [List.take_zero,List.append_nil,readField_of_notMem (by decide)]
    decide
  | succ room =>
    rw [List.take_succ_cons,readField_append (by decide)]
    show decode (lit "batt") = lit "batt"
    decide

theorem requestBody_keys {deviceName cellInfoStr : List UInt8} (hname : 38 ∉ deviceName)
    (hcell : CellText cellInfoStr) (n : ReportNumbers PlainText)
    (hfit : (frontText deviceName cellInfoStr (numberTexts n)).length ≤ 394) :
    (parseForm (requestBody deviceName cellInfoStr (numberTexts n))).map Prod.fst =
      reportKeys cellInfoStr := by
  obtain ⟨room,hbody⟩ := requestBody_fits hcell hfit
  have hbatt : 38 ∉ battPiece room (numberTexts n) := by
    have hpercent : 38 ∉ n.percent.val := n.percent.property 38 (by decide)
    intro hmem
    rcases List.mem_append.mp hmem with hmem | hmem
    · exact absurd hmem (by decide)
    · have hmem := List.mem_of_mem_take hmem
      simp only [numberTexts,List.mem_cons] at hmem
      exact hmem.elim (by decide) hpercent
  have hamp : ∀ p ∈ (frontFields deviceName cellInfoStr (numberTexts n)).map piece++
      [battPiece room (numberTexts n)], 38 ∉ p := by
    intro p hp
    rcases List.mem_append.mp hp with hp | hp
    · exact frontPieces_no_amp hname hcell n p hp
    · rwa [List.mem_singleton.mp hp]
  have hne : ∀ p ∈ (frontFields deviceName cellInfoStr (numberTexts n)).map piece++
      [battPiece room (numberTexts n)], decide (p ≠ []) = true := by
    intro p hp
    rcases List.mem_append.mp hp with hp | hp
    · obtain ⟨f,-,rfl⟩ := List.mem_map.mp hp
      simp [piece]
    · rw [List.mem_singleton.mp hp]
      exact decide_eq_true (List.append_ne_nil_of_left_ne_nil (by decide) _)
  rw [hbody,parseForm_intercalate hamp (by simp),List.filter_eq_self.mpr hne,
    ← frontFields_keys deviceName cellInfoStr (numberTexts n)]
  simp only [List.map_append,List.map_map,List.map_cons,List.map_nil,battPiece_key]
  refine congrArg (·++[lit "batt"]) (List.map_congr_left fun f hf => ?_)
  obtain ⟨heq,-,hdec⟩ := frontField_key hf
  show (readField (piece f)).1 = f.1
  rw [piece,readField_append heq,hdec]

theorem decodable_of_plain {deviceName cellInfoStr : List UInt8}
    (hlen : deviceName.length ≤ 31) (hname : 38 ∉ deviceName) (hplain : Plain deviceName)
    (hcell : CellText cellInfoStr) (n : ReportNumbers PlainText)
    (hfit : (frontText deviceName cellInfoStr (numberTexts n)).length ≤ 394) :
    ReportDecodable deviceName cellInfoStr
      (requestBody deviceName cellInfoStr (numberTexts n)) := by
  have hkeys := requestBody_keys hname hcell n hfit
  constructor
  · intro key hkey
    rw [hkeys]
    exact List.count_eq_one_of_mem (reportKeys_spec cellInfoStr).1 hkey
  · intro value hmem
    obtain ⟨rest,hbody⟩ := requestBody_start hlen cellInfoStr (numberTexts n)
    rw [hbody,parse_id hname rest] at hmem hkeys
    rcases List.mem_cons.mp hmem with heq | hmem
    · rw [(Prod.mk.inj heq).2]
      exact (decode_eq_self_iff _).mpr hplain
    · -- a second identifier would be a name of the report behind the first one
      have htail := congrArg List.tail hkeys
      have hid := List.mem_map_of_mem (f := Prod.fst) hmem
      rw [List.map_cons,List.tail_cons] at htail
      rw [htail] at hid
      exact absurd hid (id_notMem_tail cellInfoStr)

/-! ### Reports of a device -/

theorem cstring_length_lt {mem : List UInt8} (h : (0 : UInt8) ∈ mem) :
    (cstring mem).length < mem.length := by
  have hprefix : cstring mem <+: mem := List.takeWhile_prefix _
  refine lt_of_le_of_ne hprefix.length_le fun heq => ?_
  rw [← hprefix.eq_of_length heq] at h
  exact zero_notMem_cstring mem h

variable {F : Type}

theorem deviceName_length_le {value : List UInt8} {d d' : Device F}
    (hv : deviceNameValidate value d = some d') : d'.config.deviceName.text.length ≤ 31 := by
  rw [deviceNameValidate,stringValidate,Option.ite_none_right_eq_some] at hv
  obtain rfl := Option.some.inj hv.2
  have hlt := cstring_length_lt (strncpy_terminated (n := 32) (by decide) value)
  rw [(strncpy 32 value).size] at hlt
  exact Nat.le_of_lt_succ hlt

/-- A report is read back if and only if the form reads the device name back and no more than
the value of the battery is cut off. -/
theorem report_decodable_iff {value : List UInt8} {d d' : Device F}
    (hv : deviceNameValidate value d = some d') {st st' : NetState} (loc : List Location)
    (number : ℤ) (hst : networkCellInfoCallback loc number st = st')
    (n : ReportNumbers PlainText) :
    ReportDecodable d'.config.deviceName.text st'.cellInfoStr
        (requestBody d'.config.deviceName.text st'.cellInfoStr (numberTexts n)) ↔
      38 ∉ d'.config.deviceName.text ∧ Plain d'.config.deviceName.text ∧
        (reportText d'.config.deviceName.text st'.cellInfoStr (numberTexts n)).length ≤
          400+n.percent.val.length := by
  have hlen := deviceName_length_le hv
  have hcell : CellText st'.cellInfoStr := hst ▸ cellInfo_cellText loc number st
  have hfit : (reportText d'.config.deviceName.text st'.cellInfoStr (numberTexts n)).length ≤
      400+n.percent.val.length ↔
        (frontText d'.config.deviceName.text st'.cellInfoStr (numberTexts n)).length ≤ 394 := by
    have hbatt : (lit "batt").length = 4 := by decide
    rw [reportText_eq hcell]
    simp only [List.length_append,List.length_cons,hbatt,numberTexts]
    omega
  rw [hfit]
  constructor
  · intro h
    obtain ⟨hname,hplain⟩ := plain_of_decodable hlen h
    exact ⟨hname,hplain,fits_of_decodable hname hcell n h⟩
  · rintro ⟨hname,hplain,hfits⟩
    exact decodable_of_plain hlen hname hplain hcell n hfits

def namedDevice (value : List UInt8) : Device Unit where
  config :=
    { imei := .zero 16
      deviceName := strncpy 32 value
      serverAddr := .zero 64
      serverPort := .zero 8
      serverProtocol := .http
      apn := .zero 32
      apnUser := .zero 32
      apnPass := .zero 32
      gpsUere := ()
      gpsPrintPos := false
      gpsLogging := false
      gpsLogFile := .zero 128
      logLevel := .none
      logOutput := .uart }
  log := ⟨false,.null⟩

theorem deviceNameValidate_named (value : List UInt8) (h : 0 < value.length ∧ value.length < 32) :
    deviceNameValidate value (namedDevice []) = some (namedDevice value) := by
  unfold deviceNameValidate stringValidate
  rw [if_pos ⟨.inr h.1,h.2⟩]
  rfl

def zeroNumbers : ReportNumbers PlainText :=
  let zero : PlainText := ⟨lit "0",fun c hc h => by
    rw [List.mem_singleton.mp h] at hc
    exact absurd hc (by decide)⟩
  ⟨zero,zero,zero,zero,zero,zero,zero,zero,zero⟩

theorem report_decodable_iff_tracker :
    ReportDecodable (namedDevice (lit "tracker")).config.deviceName.text []
        (requestBody (namedDevice (lit "tracker")).config.deviceName.text []
          (numberTexts zeroNumbers)) ↔
      38 ∉ (namedDevice (lit "tracker")).config.deviceName.text ∧
        Plain (namedDevice (lit "tracker")).config.deviceName.text ∧
        (reportText (namedDevice (lit "tracker")).config.deviceName.text []
          (numberTexts zeroNumbers)).length ≤ 400+zeroNumbers.percent.val.length :=
  report_decodable_iff (deviceNameValidate_named _ (by decide)) [] 0
    (show networkCellInfoCallback [] 0 networkInit = networkInit by decide) zeroNumbers

/-- A device name with a field of its own in it. -/
theorem name_overrides_position :
    ¬ ∀ (value : List UInt8) (d d' : Device Unit), deviceNameValidate value d = some d' →
      ∀ (loc : List Location) (number : ℤ) (st : NetState) (n : ReportNumbers PlainText),
        ReportDecodable d'.config.deviceName.text
          (networkCellInfoCallback loc number st).cellInfoStr
          (requestBody d'.config.deviceName.text
            (networkCellInfoCallback loc number st).cellInfoStr (numberTexts n)) := by
  intro h
  have hv := deviceNameValidate_named (lit "x&lat=1") (by decide)
  have hdec := h _ _ _ hv [] 0 networkInit zeroNumbers
  exact absurd (plain_of_decodable (deviceName_length_le hv) hdec).1 (by decide)

end PositionReport
end A9GTracker
