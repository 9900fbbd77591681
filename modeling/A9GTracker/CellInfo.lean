import A9GTracker.NetworkActivation

/-! The cell information is kept twice, as the array with its count and as a string. The
callback writes both, and the monitor clears the string alone. -/
namespace A9GTracker
namespace CellInfo

open CString Network NetworkActivation Runs

/-! ### The two copies -/

def networkGetCellInfoString (st : NetState) : List UInt8 := st.cellInfoStr

def notAvailable : List UInt8 := lit "Cell info not available\r\n"

def printCell (l : Location) (i : ℕ) : List UInt8 :=
  lit "  ["++printNat i++lit "] MCC: "++printNat l.sMcc.1.toNat++printNat l.sMcc.2.1.toNat++
  printNat l.sMcc.2.2.toNat++lit ", MNC: "++printNat l.sMnc.1.toNat++printNat l.sMnc.2.1.toNat++
  printNat l.sMnc.2.2.toNat++lit ", LAC: "++printNat l.sLac.toNat++lit ", CellID: "++
  printNat l.sCellID.toNat++lit ", RxLev: "++printInt l.iRxLev++lit "\r\n"

def networkPrintCellInfo (st : NetState) : List (List UInt8) :=
  if st.cellInfoCount > 0 then
    (lit "Base stations seen: "++printNat st.cellInfoCount++lit "\r\n")::
      (st.cellInfo.take st.cellInfoCount).zipIdx.map fun l => printCell l.1 l.2
  else [notAvailable]

theorem networkPrintCellInfo_iff (st : NetState) :
    networkPrintCellInfo st = [notAvailable] ↔ st.cellInfoCount = 0 := by
  unfold networkPrintCellInfo
  split_ifs with hcount
  · refine iff_of_false (fun h => ?_) hcount.ne'
    have hhead := congrArg List.head? (List.cons.inj h).1
    rw [List.append_assoc,List.head?_append_of_ne_nil _ (by decide)] at hhead
    exact absurd hhead (by decide)
  · exact iff_of_true rfl (Nat.eq_zero_of_not_pos hcount)

/-- The string is empty just when the other copy is reported as not available, and otherwise
describes the first cell. -/
structure Agree (st : NetState) : Prop where
  empty_iff : networkGetCellInfoString st = [] ↔ networkPrintCellInfo st = [notAvailable]
  describes : networkGetCellInfoString st ≠ [] →
    ∃ l, st.cellInfo[0]? = some l ∧ networkGetCellInfoString st = printLocation l

/-! ### The string of a cell -/

theorem printNat_length_le {n k : ℕ} (hk : 0 < k) (h : n < 10^k) : (printNat n).length ≤ k := by
  rw [printNat,List.length_map]
  exact (Nat.length_toDigits_le_iff (by decide) hk).2 h

def LevelInRange (l : Location) : Prop := -128 ≤ l.iRxLev ∧ l.iRxLev ≤ 127

instance (l : Location) : Decidable (LevelInRange l) := inferInstanceAs (Decidable (_ ∧ _))

theorem printLocation_length {l : Location} (h : LevelInRange l) :
    0 < (printLocation l).length ∧ (printLocation l).length ≤ 127 := by
  have h8 : ∀ x : UInt8, (printNat x.toNat).length ≤ 3 := fun x =>
    printNat_length_le (by decide) (by have := x.toNat_lt; omega)
  have h16 : ∀ x : UInt16, (printNat x.toNat).length ≤ 5 := fun x =>
    printNat_length_le (by decide) (by have := x.toNat_lt; omega)
  have hlevel : (printInt l.iRxLev).length ≤ 4 := by
    have habs : (printNat l.iRxLev.natAbs).length ≤ 3 :=
      printNat_length_le (by decide) (by have := h.1; have := h.2; omega)
    unfold printInt
    split_ifs
    · rw [List.length_cons]
      omega
    · omega
  have hcomma : (lit ",").length = 1 := by decide
  have h1 := h8 l.sMcc.1
  have h2 := h8 l.sMcc.2.1
  have h3 := h8 l.sMcc.2.2
  have h4 := h8 l.sMnc.1
  have h5 := h8 l.sMnc.2.1
  have h6 := h8 l.sMnc.2.2
  have h7 := h16 l.sLac
  have h9 := h16 l.sCellID
  simp only [printLocation,List.length_append,hcomma]
  omega

/-! ### Steps -/

def CellsGiven : NetEvent → Prop
  | .api (.networkCellInfo loc number) => number ≤ loc.length ∧ ∀ l ∈ loc, LevelInRange l
  | _ => True

/-- A monitor tick that finds cells in the array finds the network registered, and its request
for new ones is accepted. -/
def KeepsString (st : NetState) : NetEvent → Prop
  | .monitor _ _ _ cellRet =>
    0 < st.cellInfoCount → isGsmRegistered st = true ∧ cellRet = true
  | _ => True

/-- The array has its size and its signal levels are numbers of 8 bits. -/
structure CellsHeld (st : NetState) : Prop where
  length : st.cellInfo.length = 8
  levels : ∀ l ∈ st.cellInfo, LevelInRange l

/-- The string is the one the callback has written. -/
structure CellsShown (st : NetState) : Prop extends CellsHeld st where
  shown : st.cellInfoStr =
    if st.cellInfoCount = 0 then [] else ((st.cellInfo[0]?).map printLocation).getD []

theorem CellsShown.agree {st : NetState} (h : CellsShown st) : Agree st := by
  obtain ⟨l,hl⟩ : ∃ l, st.cellInfo[0]? = some l :=
    ⟨_,List.getElem?_eq_getElem (by rw [h.length]; decide)⟩
  have hshown := h.shown
  rw [hl,Option.map_some,Option.getD_some] at hshown
  constructor
  · rw [networkPrintCellInfo_iff,networkGetCellInfoString,hshown]
    split_ifs with hcount
    · exact iff_of_true rfl hcount
    · have hpos := (printLocation_length (h.levels l (List.mem_of_getElem? hl))).1
      exact iff_of_false (List.ne_nil_of_length_pos hpos) hcount
  · intro hne
    refine ⟨l,hl,?_⟩
    rw [networkGetCellInfoString] at hne ⊢
    rw [hshown] at hne ⊢
    split_ifs at hne ⊢ with hcount
    · exact absurd rfl hne
    · rfl

theorem networkInit_shown : CellsShown networkInit := ⟨⟨rfl,by decide⟩,rfl⟩

/-- A step that leaves the cell information alone keeps what is shown. -/
theorem CellsShown.of_sameRecords {st st' : NetState} (h : CellsShown st)
    (hsame : SameRecords st st') : CellsShown st' := by
  obtain ⟨⟨hlen,hlevels⟩,hshown⟩ := h
  refine ⟨⟨?_,?_⟩,?_⟩
  · rwa [hsame.cellInfo]
  · rwa [hsame.cellInfo]
  · rwa [hsame.cellInfo,hsame.cellInfoCount,hsame.cellInfoStr]

theorem networkCellInfoCallback_shown {loc : List Location} {number : ℤ} {st : NetState}
    (h : CellsHeld st) (hgiven : CellsGiven (.api (.networkCellInfo loc number))) :
    CellsShown (networkCellInfoCallback loc number st) := by
  obtain ⟨hlen,hlevels⟩ := hgiven
  unfold networkCellInfoCallback
  dsimp only
  split_ifs with hnone
  · exact ⟨⟨h.length,h.levels⟩,rfl⟩
  · have hcells : ((loc.take (min number.toNat 8)++st.cellInfo.drop (min number.toNat 8))).length
        = 8 := by
      rw [List.length_append,List.length_take,List.length_drop,h.length]
      omega
    have hheld : ∀ l ∈ loc.take (min number.toNat 8)++st.cellInfo.drop (min number.toNat 8),
        LevelInRange l := by
      intro l hl
      rcases List.mem_append.1 hl with hl | hl
      · exact hlevels l (List.mem_of_mem_take hl)
      · exact h.levels l (List.mem_of_mem_drop hl)
    have hcount : min number.toNat 8 ≠ 0 := by omega
    refine ⟨⟨hcells,hheld⟩,?_⟩
    dsimp only
    generalize loc.take (min number.toNat 8)++st.cellInfo.drop (min number.toNat 8) = cells
      at hcells hheld ⊢
    obtain ⟨l,rest,rfl⟩ := List.exists_cons_of_length_pos (by omega : 0 < cells.length)
    rw [if_neg hcount,List.head?_cons,List.getElem?_cons_zero,Option.map_some,Option.getD_some]
    exact List.take_of_length_le (printLocation_length (hheld l (by simp))).2

theorem networkMonitor_records (cfg : ApnSettings) (a : ModemAnswers) (now : ℕ)
    (cellRet : Bool) (st : NetState) :
    (networkMonitor cfg a now cellRet st).cellInfo = st.cellInfo ∧
      (networkMonitor cfg a now cellRet st).cellInfoCount = st.cellInfoCount ∧
      (networkMonitor cfg a now cellRet st).cellInfoStr =
        if isGsmRegistered st = true ∧ cellRet = true then st.cellInfoStr else [] := by
  have hsame := monitorConnection_sameRecords cfg a now st
  rw [networkMonitor,requestCellInfo_eq,monitorConnection_isGsmRegistered,hsame.cellInfoStr]
  exact ⟨hsame.cellInfo,hsame.cellInfoCount,rfl⟩

theorem netStep_shown {st : NetState} {e : NetEvent} (h : CellsShown st) (hgiven : CellsGiven e)
    (hkeeps : KeepsString st e) : CellsShown (netStep st e) := by
  cases e with
  | statusCallback cfg a status =>
    have hcall : CellsShown (st.emit (.callback status)) := h.of_sameRecords ⟨rfl,rfl,rfl,rfl⟩
    exact hcall.of_sameRecords (networkUpdateStatus_sameRecords cfg a status _)
  | monitor cfg a now cellRet =>
    obtain ⟨hcells,hcount,hstr⟩ := networkMonitor_records cfg a now cellRet st
    refine ⟨⟨?_,?_⟩,?_⟩
    · exact (congrArg List.length hcells).trans h.length
    · rw [netStep,hcells]
      exact h.levels
    · rw [netStep,hcells,hcount,hstr]
      split_ifs with hasked hnone hnone
      · rw [h.shown,if_pos hnone]
      · rw [h.shown,if_neg hnone]
      · rfl
      · exact absurd (hkeeps (Nat.pos_of_ne_zero hnone)) hasked
  | netActivate cfg a => exact h.of_sameRecords (attachActivate_sameRecords cfg a st)
  | api e =>
    cases e with
    | networkCellInfo loc number => exact networkCellInfoCallback_shown h.toCellsHeld hgiven
    | _ => exact h.of_sameRecords ⟨rfl,rfl,rfl,rfl⟩
  | trackerLoop now => exact ⟨⟨h.length,h.levels⟩,h.shown⟩

theorem not_agree_of_not_keepsString {st : NetState} {e : NetEvent} (h : ¬ KeepsString st e) :
    ¬ Agree (netStep st e) := by
  cases e with
  | monitor cfg a now cellRet =>
    obtain ⟨hpos,hasked⟩ := Classical.not_imp.1 h
    obtain ⟨-,hcount,hstr⟩ := networkMonitor_records cfg a now cellRet st
    rw [if_neg hasked] at hstr
    intro hagree
    have hnone := (networkPrintCellInfo_iff _).1 (hagree.empty_iff.1 hstr)
    exact hpos.ne' (hcount.symm.trans hnone)
  | _ => exact absurd trivial h

/-! ### Every run -/

/-- The two copies agree in every state of a run exactly when every monitor tick that finds
cells in the array finds the network registered and its request accepted. -/
theorem cellInfo_agrees_iff (es : List NetEvent) (hes : ∀ e ∈ es, CellsGiven e) :
    (∀ pre post, es = pre++post → Agree (run netStep networkInit pre)) ↔
      EverySteps KeepsString netStep networkInit es := by
  constructor
  · intro h
    rw [everySteps_iff]
    rintro pre e post rfl
    by_contra hkeeps
    refine not_agree_of_not_keepsString hkeeps ?_
    have hagree := h (pre++[e]) post (by simp)
    rwa [run_append,run_cons,run_nil] at hagree
  · rintro h pre post rfl
    have hpre : EverySteps (fun st e => CellsGiven e ∧ KeepsString st e) netStep networkInit
        pre := by
      rw [everySteps_iff] at h ⊢
      rintro pre' e post' rfl
      exact ⟨hes e (by simp),h pre' e (post'++post) (by simp)⟩
    exact (run_invariant CellsShown (fun st e hs he => netStep_shown hs he.1 he.2)
      networkInit_shown hpre).agree

def someCell : Location := ⟨(2,6,0),(0,6,0),1234,5678,-71⟩

theorem cellInfo_agrees_registered :
    Agree (run netStep networkInit
      [.statusCallback ⟨[],[],[]⟩ silentModem .registered,.api (.networkCellInfo [someCell] 1),
        .monitor ⟨[],[],[]⟩ silentModem 1000 true]) := by
  refine (cellInfo_agrees_iff [.statusCallback ⟨[],[],[]⟩ silentModem .registered,
    .api (.networkCellInfo [someCell] 1),.monitor ⟨[],[],[]⟩ silentModem 1000 true] ?_).2 ?_ _ []
    (List.append_nil _).symm
  · simp [CellsGiven,someCell,LevelInRange]
  · exact ⟨trivial,trivial,fun _ => ⟨by decide,rfl⟩,trivial⟩

/-- A tick without registration empties the string and leaves the cell in the array. -/
theorem cellInfo_stale_unregistered :
    ¬ ∀ es : List NetEvent, (∀ e ∈ es, CellsGiven e) →
      ∀ pre post, es = pre++post → Agree (run netStep networkInit pre) := by
  intro h
  have hagree := h [.api (.networkCellInfo [someCell] 1),
    .monitor ⟨[],[],[]⟩ silentModem 1000 true] (by simp [CellsGiven,someCell,LevelInRange]) _ []
    (List.append_nil _).symm
  have hnone := (networkPrintCellInfo_iff _).1 (hagree.empty_iff.1 (by decide))
  exact absurd hnone (by decide)

end CellInfo
end A9GTracker
