import Mathlib.Data.List.Basic
import Mathlib.Tactic.Common
import A9GTracker.AckCheck
import A9GTracker.Look

/-! What the checks of an acknowledgement look at. The message is a block of memory without a
terminator, and its length is not handed on. -/
namespace A9GTracker
namespace AckReads

open CString Search GpsCommand AckDelivery AckCheck Look

/-! ### The code -/

/-- `strstr`: it looks at the string up to the end of the match or through the terminator. -/
def strstrLook (str needle : List UInt8) : Look (Option ℕ) :=
  let i := strstr (cstring str) needle
  first (match i with
    | some i => i+needle.length
    | none => (cstring str).length+1) i

def gpsCheckParityLook (below : ℕ → UInt8) (str : List UInt8) : Look Bool := do
  let star ← strstrLook str (lit "*")
  match star with
  | none => return false
  | some _ =>
    let first0 ← cell str 1 0
    let body := (str.drop 2).takeWhile (· ≠ 42)
    let body ← shift 2 (first (body.length+1) body)
    let result := body.foldl (· ^^^ ·) first0
    let i := body.length+2
    let high ← cell str (i+1) 0
    if hexMatches (hexStr below (charVal result / 16)) high then
      let low ← cell str (i+2) 0
      return hexMatches (hexDigit (result.toNat % 16)) low
    else return false

def gpsCheckParityBinaryLook (data : List UInt8) : Look Bool := do
  let low ← cell data 2 0
  let high ← cell data 3 0
  let len := toU16 (low.toNat+256*high.toNat-3)
  let result ← ((List.range len).drop 3).foldlM (fun r i => do return r ^^^ (← cell data i 0)) low
  let last ← cell data len 0
  return result = last

def gpsGetAckCmdLook (str : List UInt8) : Look ℕ := do
  let header ← strstrLook str (lit "$PGKC")
  match header with
  | none => return GpsCmd.fail.toNat
  | some index =>
    let a ← cell str (index+5) 0
    let b ← cell str (index+6) 0
    let c ← cell str (index+7) 0
    let ackCmd0 := toU16 ((charVal a-48)*100+(charVal b-48)*10+(charVal c-48))
    return if gpsIsCmdValid ackCmd0 then ackCmd0 else GpsCmd.fail.toNat

def isBinaryLook (data : List UInt8) : Look Bool := do
  let a ← cell data 0 0
  if a = 0xaa then
    let b ← cell data 1 0
    return b = 0xf0
  else return false

def gpsGetAckCmdBinaryLook (data : List UInt8) : Look ℕ := do
  let binary ← isBinaryLook data
  if ¬ binary then return GpsCmd.fail.toNat
  else
    let low ← cell data 4 0
    let high ← cell data 5 0
    let ackCmd0 := low.toNat+256*high.toNat
    return if gpsIsCmdValid ackCmd0 then ackCmd0 else GpsCmd.fail.toNat

def gpsAckCheckLook (ackStr : List UInt8) (cmdSend : ℕ) : Look ℕ := do
  let binary ← isBinaryLook ackStr
  if binary then
    let low ← cell ackStr 6 0
    let high ← cell ackStr 7 0
    let result ← cell ackStr 8 0
    return ackResult (low.toNat+256*high.toNat) result.toNat cmdSend
  else
    let header ← strstrLook ackStr (lit "$PGKC")
    match header with
    | none => return GpsCmd.fail.toNat
    | some header =>
      let comma ← shift (header+5) (strstrLook (ackStr.drop (header+5)) (lit ","))
      match comma with
      | none => return GpsCmd.fail.toNat
      | some comma =>
        let index := header+5+comma
        let comma2 ← shift (index+1) (strstrLook (ackStr.drop (index+1)) (lit ","))
        match comma2 with
        | none => return GpsCmd.fail.toNat
        | some length =>
          let field ← shift (index+1) (first length ((ackStr.drop (index+1)).take length))
          let result ← cell ackStr (index+1+length+1) 0
          return ackResult (fieldNumber field) (toU8 (charVal result-48)) cmdSend

/-- `GPS_SendCMDWaitAck` on the memory that begins with the message: the number of the
acknowledgement and where it stands. -/
def gpsSendCmdWaitAckLook (below : ℕ → UInt8) (mem : List UInt8) : Look (ℕ × ℕ) := do
  let binary ← isBinaryLook mem
  if binary then
    let parity ← gpsCheckParityBinaryLook mem
    if ¬ parity then return (GpsCmd.fail.toNat,0)
    else return (← gpsGetAckCmdBinaryLook mem,0)
  else
    let header ← strstrLook mem (lit "$PGKC")
    match header with
    | none => return (GpsCmd.fail.toNat,0)
    | some index =>
      let parity ← shift index (gpsCheckParityLook below (mem.drop index))
      if ¬ parity then return (GpsCmd.fail.toNat,0)
      else return (← shift index (gpsGetAckCmdLook (mem.drop index)),index)

def normalAckLook (cmdSend : ℕ) (cmdStr : List UInt8) (ackCmd : ℕ) (ackStr : List UInt8) :
    Look Bool := do
  if ackCmd ≠ GpsCmd.ack.toNat ∧ ackCmd ≠ GpsCmd.ackGpd.toNat then return false
  else if ackCmd = GpsCmd.ackGpd.toNat then
    let low ← cell ackStr 6 0
    if cmdStr.getD 6 0 ≠ low then return false
    else
      let high ← cell ackStr 7 0
      if cmdStr.getD 7 0 ≠ high then return false
      else
        let result ← cell ackStr 8 0
        return result = 1
  else
    let result ← gpsAckCheckLook ackStr cmdSend
    return result = gpsCmdAckExecSuccess

def gpsSendWaiteNormalAckLook (below : ℕ → UInt8) (cmdSend : GpsCmd) (cmdStr : List UInt8)
    (format : GpsFormat) (mem : List UInt8) : Look Bool := do
  let r ← gpsSendCmdWaitAckLook below mem
  shift r.2 (normalAckLook cmdSend.toNat (gpsCmdSend below cmdStr format) r.1 (mem.drop r.2))

/-! ### The same results -/

@[simp] theorem strstrLook_value (str needle : List UInt8) :
    (strstrLook str needle).value = strstr (cstring str) needle := rfl

theorem gpsCheckParityLook_value (below : ℕ → UInt8) (str : List UInt8) :
    (gpsCheckParityLook below str).value = gpsCheckParity below str := by
  simp only [gpsCheckParityLook,gpsCheckParity,value_bind,strstrLook_value]
  cases strstr (cstring str) (lit "*") with
  | none => rfl
  | some star =>
    simp only [value_bind,↓value_ite,value_pure]
    split_ifs with hhigh
    · rw [hhigh,Bool.true_and]
    · rw [Bool.not_eq_true] at hhigh
      rw [hhigh,Bool.false_and]

theorem gpsCheckParityBinaryLook_value (data : List UInt8) :
    (gpsCheckParityBinaryLook data).value = gpsCheckParityBinary data := by
  simp only [gpsCheckParityBinaryLook,value_bind,value_pure,value_foldlM_cell]
  rfl

theorem isBinaryLook_value (data : List UInt8) : (isBinaryLook data).value = isBinary data := by
  simp only [isBinaryLook,isBinary,value_bind,↓value_ite,value_pure]
  split_ifs with h
  · rw [decide_eq_true h,Bool.true_and]
  · rw [decide_eq_false h,Bool.false_and]

theorem gpsGetAckCmdLook_value (str : List UInt8) :
    (gpsGetAckCmdLook str).value = gpsGetAckCmd str := by
  simp only [gpsGetAckCmdLook,gpsGetAckCmd,value_bind,strstrLook_value]
  cases strstr (cstring str) (lit "$PGKC") with
  | none => rfl
  | some index =>
    have hget : ∀ i, str.getD (index+i) 0 = (str.drop index).getD i 0 := by
      intro i
      rw [List.getD_eq_getElem?_getD,List.getD_eq_getElem?_getD,List.getElem?_drop]
    simp only [value_bind,value_pure,sentenceNumber,hget]
    rfl

theorem gpsGetAckCmdBinaryLook_value (data : List UInt8) :
    (gpsGetAckCmdBinaryLook data).value = gpsGetAckCmdBinary data := by
  simp only [gpsGetAckCmdBinaryLook,gpsGetAckCmdBinary,value_bind,isBinaryLook_value,↓value_ite]
  rfl

theorem cstring_drop_match {mem needle : List UInt8} {k i : ℕ} (hne : needle ≠ [])
    (hk : k ≤ (cstring mem).length) (h : find needle ((cstring mem).drop k) = some i) :
    k+i+needle.length ≤ (cstring mem).length := by
  have hle := (find_spec h).1.add_length_le hne
  rw [List.length_drop] at hle
  omega

theorem gpsAckCheckLook_value (ackStr : List UInt8) (cmdSend : ℕ) :
    (gpsAckCheckLook ackStr cmdSend).value = gpsAckCheck ackStr cmdSend := by
  simp only [gpsAckCheckLook,gpsAckCheck,value_bind,isBinaryLook_value,↓value_ite,strstrLook_value,
    value_pure,strstr]
  split_ifs with hbinary
  · rfl
  · cases hheader : find (lit "$PGKC") (cstring ackStr) with
    | none => rfl
    | some header =>
      have hle : header+5 ≤ (cstring ackStr).length :=
        (find_spec hheader).1.add_length_le (by decide)
      simp only [value_bind,strstrLook_value,strstr,cstring_drop hle]
      cases hcomma : find (lit ",") ((cstring ackStr).drop (header+5)) with
      | none => rfl
      | some comma =>
        have hle2 : header+5+comma+1 ≤ (cstring ackStr).length :=
          cstring_drop_match (by decide) hle hcomma
        simp only [value_bind,strstrLook_value,strstr,cstring_drop hle2]
        cases hcomma2 : find (lit ",") ((cstring ackStr).drop (header+5+comma+1)) with
        | none => rfl
        | some length =>
          have hle3 := cstring_drop_match (by decide) hle2 hcomma2
          have htake : (ackStr.drop (header+5+comma+1)).take length =
              ((cstring ackStr).drop (header+5+comma+1)).take length := by
            obtain ⟨z,hz,-⟩ := exists_cstring_append ackStr
            conv_lhs => rw [hz]
            rw [List.drop_append_of_le_length hle2,
              List.take_append_of_le_length (by rw [List.length_drop]; omega)]
          simp only [value_bind,value_pure,htake]

theorem gpsSendCmdWaitAckLook_value (below : ℕ → UInt8) (mem : List UInt8) :
    gpsSendCmdWaitAck below (some mem) = (GpsCmd.fail.toNat,[]) ∧
        (gpsSendCmdWaitAckLook below mem).value = (GpsCmd.fail.toNat,0) ∨
      gpsSendCmdWaitAck below (some mem) = ((gpsSendCmdWaitAckLook below mem).value.1,
        mem.drop (gpsSendCmdWaitAckLook below mem).value.2) := by
  simp only [gpsSendCmdWaitAck,gpsSendCmdWaitAckLook,value_bind,isBinaryLook_value,↓value_ite,
    gpsCheckParityBinaryLook_value,gpsGetAckCmdBinaryLook_value,strstrLook_value,value_pure]
  by_cases hbinary : isBinary mem = true
  · rw [if_pos hbinary,if_pos hbinary]
    by_cases hparity : gpsCheckParityBinary mem = true
    · refine Or.inr ?_
      simp [hparity]
    · refine Or.inl ?_
      simp [hparity]
  · rw [if_neg hbinary,if_neg hbinary]
    cases strstr (cstring mem) (lit "$PGKC") with
    | none => exact Or.inl ⟨rfl,rfl⟩
    | some index =>
      simp only [value_bind,↓value_ite,gpsCheckParityLook_value,gpsGetAckCmdLook_value,value_pure]
      by_cases hparity : gpsCheckParity below (mem.drop index) = true
      · refine Or.inr ?_
        simp [hparity]
      · refine Or.inl ?_
        simp [hparity]

theorem normalAckLook_value (cmdSend : ℕ) (cmdStr : List UInt8) (ackCmd : ℕ)
    (ackStr : List UInt8) :
    (normalAckLook cmdSend cmdStr ackCmd ackStr).value =
      normalAck cmdSend cmdStr ackCmd ackStr := by
  simp only [normalAckLook,normalAck,value_bind,↓value_ite,gpsAckCheckLook_value,value_pure]
  split_ifs with hcmd hgpd hlow hhigh
  · rfl
  · exact (decide_eq_false (not_not.2 (Or.inl hlow))).symm
  · exact (decide_eq_false (not_not.2 (Or.inr (Or.inl hhigh)))).symm
  · simp only [hlow,hhigh,false_or,not_not]
  · rfl

/-- Apart from the positions it is the function that was there before. -/
theorem gpsSendWaiteNormalAckLook_value (below : ℕ → UInt8) (cmdSend : GpsCmd)
    (cmdStr : List UInt8) (format : GpsFormat) (mem : List UInt8) :
    (gpsSendWaiteNormalAckLook below cmdSend cmdStr format mem).value =
      gpsSendWaiteNormalAck below cmdSend cmdStr format (some mem) := by
  simp only [gpsSendWaiteNormalAckLook,gpsSendWaiteNormalAck,value_bind,normalAckLook_value]
  rcases gpsSendCmdWaitAckLook_value below mem with ⟨hfail,hlook⟩ | hsame
  · rw [hfail,hlook]
    rfl
  · rw [hsame]

/-! ### The messages -/

theorem ends_crlf {m : List UInt8} (h : find (lit "\r\n") m = some (m.length-2)) :
    ∃ w, m = w++[13,10] := by
  obtain ⟨w,t,hw,hlen⟩ := (find_spec h).1.eq_append (by decide)
  have hl := congrArg List.length hw
  simp only [List.length_append] at hl
  have hcrlf : (lit "\r\n").length = 2 := rfl
  have ht : t = [] := List.eq_nil_of_length_eq_zero (by omega)
  refine ⟨w,?_⟩
  rw [hw,ht,List.append_nil]
  rfl

theorem two_behind {m a b : List UInt8} {c : UInt8}
    (h : find (lit "\r\n") m = some (m.length-2)) (hm : m = a++c::b) (h13 : c ≠ 13)
    (h10 : c ≠ 10) : 2 ≤ b.length := by
  obtain ⟨w,hw⟩ := ends_crlf h
  rw [hw] at hm
  rcases b with _ | ⟨x,_ | ⟨y,b⟩⟩
  · rw [List.append_cons w 13] at hm
    exact absurd (List.cons.inj (List.append_inj' hm rfl).2).1.symm h10
  · exact absurd (List.cons.inj (List.append_inj' hm rfl).2).1.symm h13
  · simp

/-! ### Searches -/

section
variable {m tail : List UInt8} {c : UInt8}

variable (m tail c) in
/-- The search for a character stays within the message if it finds the character or a NUL
there. -/
theorem within_strstrLook :
    Within m.length (strstrLook (m++tail) [c]) ↔ c ∈ m ∨ 0 ∈ m := by
  rw [strstrLook,within_first,strstr]
  by_cases h0 : (0 : UInt8) ∈ m
  · refine iff_of_true ?_ (Or.inr h0)
    obtain ⟨a,b,rfl,ha⟩ := List.eq_append_cons_of_mem h0
    have hcs : cstring (a++0::b++tail) = a := by
      rw [List.append_assoc,cstring_append ha]
      simp [cstring]
    have hlength : (a++0::b).length = a.length+1+b.length := by
      rw [List.length_append,List.length_cons]
      omega
    rw [hcs,hlength]
    cases hf : find [c] a with
    | none => exact Nat.le_add_right _ _
    | some i =>
      have hle : i+1 ≤ a.length := (find_spec hf).1.add_length_le (by simp)
      simp only [List.length_singleton]
      omega
  · have hcs : cstring (m++tail) = m++cstring tail := cstring_append h0 tail
    rw [hcs,or_iff_left h0]
    by_cases hcm : c ∈ m
    · refine iff_of_true ?_ hcm
      obtain ⟨a,b,rfl,ha⟩ := List.eq_append_cons_of_mem hcm
      rw [List.append_assoc,List.cons_append,find_singleton_append ha]
      simp only [List.length_append,List.length_cons,List.length_nil]
      omega
    · refine iff_of_false ?_ hcm
      cases hf : find [c] (m++cstring tail) with
      | none => simp only [List.length_append]; omega
      | some i =>
        obtain ⟨a,b,hab,rfl,ha⟩ := find_singleton_eq_some hf
        simp only [List.length_singleton,not_le]
        by_contra hnot
        have hstart : a++[c] <+: m := by
          have hwhole : a++[c] <+: m++cstring tail := ⟨b,by rw [hab]; simp⟩
          refine List.prefix_of_prefix_length_le hwhole (List.prefix_append _ _) ?_
          rw [List.length_append,List.length_singleton]
          omega
        exact hcm (hstart.subset (by simp))

theorem of_within_strstrLook (h : Within m.length (strstrLook (m++tail) [c])) {i : ℕ}
    (hi : find [c] (cstring (m++tail)) = some i) :
    ∃ a b, m = a++c::b ∧ a.length = i ∧ c ∉ a ∧ (0 : UInt8) ∉ a := by
  rw [strstrLook,within_first,strstr,hi] at h
  simp only [List.length_singleton] at h
  obtain ⟨a,b,hab,rfl,ha⟩ := find_singleton_eq_some hi
  obtain ⟨z,hz,-⟩ := exists_cstring_append (m++tail)
  have hstart : a++[c] <+: m := by
    have hwhole : a++[c] <+: m++tail := ⟨b++z,by rw [hz,hab]; simp⟩
    refine List.prefix_of_prefix_length_le hwhole (List.prefix_append _ _) ?_
    rw [List.length_append,List.length_singleton]
    exact h
  obtain ⟨b',hb'⟩ := hstart
  refine ⟨a,b',by rw [← hb']; simp,rfl,ha,fun h0 => ?_⟩
  have hmem := zero_notMem_cstring (m++tail)
  rw [hab] at hmem
  exact hmem (by simp [h0])

end

/-! ### The decision -/

theorem normalAckLook_ack (cmdSend : ℕ) (cmdStr ackStr : List UInt8) (n : ℕ) :
    Within n (normalAckLook cmdSend cmdStr GpsCmd.ack.toNat ackStr) ↔
      Within n (gpsAckCheckLook ackStr cmdSend) := by
  rw [normalAckLook,if_neg (by decide),if_neg (by decide),within_bind]
  exact and_iff_left (within_pure _)

theorem normalAckLook_other {ackCmd : ℕ} (hack : ackCmd ≠ GpsCmd.ack.toNat)
    (hgpd : ackCmd ≠ GpsCmd.ackGpd.toNat) (cmdSend : ℕ) (cmdStr ackStr : List UInt8) (n : ℕ) :
    Within n (normalAckLook cmdSend cmdStr ackCmd ackStr) := by
  rw [normalAckLook,if_pos ⟨hack,hgpd⟩]
  exact within_pure _

theorem normalAckLook_gpd {n : ℕ} (hn : 7 < n) (cmdSend : ℕ) (cmdStr ackStr : List UInt8) :
    Within n (normalAckLook cmdSend cmdStr GpsCmd.ackGpd.toNat ackStr) ↔
      (cmdStr.getD 6 0 = ackStr.getD 6 0 → cmdStr.getD 7 0 = ackStr.getD 7 0 → 8 < n) := by
  rw [normalAckLook,if_neg (by decide),if_pos rfl,within_bind,within_cell,
    and_iff_right (by omega : 6 < n),within_ite]
  split_ifs with hlow
  · exact iff_of_true (within_pure _) fun heq => absurd heq hlow
  · rw [within_bind,within_cell,and_iff_right hn,within_ite]
    split_ifs with hhigh
    · exact iff_of_true (within_pure _) fun _ heq => absurd heq hhigh
    · rw [within_bind,within_cell,and_iff_left (within_pure _)]
      exact ⟨fun h _ _ => h,fun h => h (not_not.1 hlow) (not_not.1 hhigh)⟩

/-! ### Text messages -/

section
variable {m tail : List UInt8}

theorem text_split {a b : List UInt8} (h : TextMessage (a++42::b)) (ha : 42 ∉ a) :
    ∃ body high low rest, a = 36::80::body ∧ b = high::low::rest ∧ 3 ≤ body.length := by
  obtain ⟨high,low,rest,rfl⟩ := h.behind_star rfl
  have hlen : 5 ≤ a.length := by
    by_contra hnot
    have hstart : a++[42] <+: cmdHeader := by
      have hwhole : a++[42] <+: a++42::high::low::rest := ⟨high::low::rest,by simp⟩
      refine List.prefix_of_prefix_length_le hwhole h.header ?_
      rw [List.length_append,List.length_singleton]
      exact not_le.1 hnot
    exact absurd (hstart.subset (show 42 ∈ a++[42] by simp)) (by decide)
  have hheader : cmdHeader <+: a :=
    List.prefix_of_prefix_length_le h.header (List.prefix_append _ _) hlen
  obtain ⟨t,rfl⟩ := hheader
  exact ⟨71::75::67::t,high,low,rest,rfl,rfl,by simp⟩

theorem within_gpsCheckParityLook (h : TextMessage m) (below : ℕ → UInt8) :
    Within m.length (gpsCheckParityLook below (m++tail)) ↔ 42 ∈ m ∨ 0 ∈ m := by
  have hstar : lit "*" = [42] := rfl
  rw [gpsCheckParityLook,within_bind,hstar,within_strstrLook,strstrLook_value,strstr]
  refine and_iff_left_of_imp fun hw => ?_
  rw [← within_strstrLook m tail] at hw
  cases hf : find [42] (cstring (m++tail)) with
  | none => exact within_pure _
  | some i =>
    obtain ⟨a,b,rfl,-,ha,-⟩ := of_within_strstrLook hw hf
    obtain ⟨body,high,low,rest,rfl,rfl,-⟩ := text_split h ha
    have hbody : 42 ∉ body := fun h42 => ha (by simp [h42])
    have htake : ((36::80::body++42::high::low::rest++tail).drop 2).takeWhile (· ≠ 42) = body := by
      have hdrop : (36::80::body++42::high::low::rest++tail).drop 2 =
          body++42::(high::low::rest++tail) := by simp
      rw [hdrop,List.takeWhile_append_of_pos fun x hx => by
        simpa using fun heq : x = 42 => hbody (heq ▸ hx)]
      simp
    have hlength : (36::80::body++42::high::low::rest).length = body.length+5+rest.length := by
      simp only [List.length_append,List.length_cons]
      omega
    simp only [within_bind,within_cell,htake,hlength]
    refine ⟨by omega,(within_shift (by omega)).2 (within_first.2 (by omega)),by omega,?_⟩
    split_ifs
    · rw [within_bind,within_cell]
      exact ⟨by omega,within_pure _⟩
    · exact within_pure _

/-- A text message with a checksum that the driver accepts. -/
def HasChecksum (below : ℕ → UInt8) (m : List UInt8) : Prop :=
  ∃ body high low rest, m = 36::(body++42::high::low::rest) ∧ 42 ∉ body ∧ 0 ∉ body ∧
    highMatches below body high = true ∧ low = hexDigit ((checksum body).toNat % 16)

theorem gpsCheckParity_iff_hasChecksum (h : TextMessage m) (hw : 42 ∈ m ∨ 0 ∈ m)
    (below : ℕ → UInt8) : gpsCheckParity below (m++tail) = true ↔ HasChecksum below m := by
  have hparity : ∀ body high low rest, m = 36::(body++42::high::low::rest) → 42 ∉ body →
      (gpsCheckParity below (m++tail) = true ↔ 0 ∉ body ∧ highMatches below body high = true ∧
        low = hexDigit ((checksum body).toNat % 16)) := by
    intro body high low rest hm hbody
    have hne : body ≠ [] := by
      rintro rfl
      have hheader := h.header
      rw [hm] at hheader
      have htwo : [36,42] <+: 36::([]++42::high::low::rest) := ⟨high::low::rest,rfl⟩
      exact absurd (List.prefix_of_prefix_length_le htwo hheader (by decide)) (by decide)
    have hmem : m++tail = 36::(body++42::(high::low::rest++tail)) := by
      rw [hm]
      simp
    rw [hmem,gpsCheckParity_eq_true (by decide) (by decide) hne hbody]
    rfl
  constructor
  · intro hp
    have hstar := star_of_gpsCheckParity hp
    rw [← within_strstrLook m tail] at hw
    obtain ⟨i,hi⟩ := Option.ne_none_iff_exists'.1
      fun hnone => find_singleton_eq_none.1 hnone hstar
    obtain ⟨a,b,rfl,-,ha,-⟩ := of_within_strstrLook hw hi
    obtain ⟨body,high,low,rest,rfl,rfl,-⟩ := text_split h ha
    have hbody : 42 ∉ 80::body := fun h42 => ha (List.mem_cons_of_mem _ h42)
    obtain ⟨h0,hhigh,hlow⟩ := (hparity (80::body) high low rest rfl hbody).1 hp
    exact ⟨80::body,high,low,rest,rfl,hbody,h0,hhigh,hlow⟩
  · rintro ⟨body,high,low,rest,hm,hbody,h0,hhigh,hlow⟩
    exact (hparity body high low rest hm hbody).2 ⟨h0,hhigh,hlow⟩

theorem HasChecksum.length_ge {below : ℕ → UInt8} (hc : HasChecksum below m)
    (h : TextMessage m) : 10 ≤ m.length := by
  obtain ⟨body,high,low,rest,rfl,hbody,-,-,hlow⟩ := hc
  obtain ⟨body',high',low',rest',hbody',-,hlen⟩ := text_split (a := 36::body) h (by simpa using hbody)
  have hdigits : ∀ k < 16, hexDigit k ≠ 13 ∧ hexDigit k ≠ 10 := by decide
  obtain ⟨h13,h10⟩ := hdigits _ (Nat.mod_lt (checksum body).toNat (by decide : 0 < 16))
  have htwo := two_behind (a := 36::(body++[42,high])) (b := rest) h.line_end (by simp)
    (hlow ▸ h13) (hlow ▸ h10)
  have hlength := congrArg List.length hbody'
  simp only [List.length_cons,List.length_append] at hlength ⊢
  omega

theorem within_strstrLook_header (h : cmdHeader <+: m) :
    Within m.length (strstrLook (m++tail) (lit "$PGKC")) := by
  rw [strstrLook,strstr_header h,within_first]
  exact h.length_le

theorem isBinaryLook_text (h : cmdHeader <+: m) : isBinaryLook (m++tail) = ⟨false,[0]⟩ := by
  obtain ⟨t,rfl⟩ := h
  rfl

theorem within_gpsGetAckCmdLook (h : cmdHeader <+: m) (hlength : 8 ≤ m.length) :
    Within m.length (gpsGetAckCmdLook (m++tail)) := by
  rw [gpsGetAckCmdLook,within_bind,strstrLook_value,strstr_header h]
  refine ⟨within_strstrLook_header h,?_⟩
  simp only [within_bind,within_cell]
  exact ⟨by omega,by omega,by omega,within_pure _⟩

/-- The two commas are looked for in the whole message and, without a terminator, behind it. -/
theorem within_gpsAckCheckLook (h : TextMessage m) (cmdSend : ℕ) :
    Within m.length (gpsAckCheckLook (m++tail) cmdSend) ↔ 0 ∈ m ∨ 2 ≤ m.count 44 := by
  have hcomma : lit "," = [44] := rfl
  have hpos : 0 < m.length := by
    have hle := h.header.length_le
    exact (by decide : 0 < cmdHeader.length).trans_le hle
  rw [gpsAckCheckLook,within_bind,isBinaryLook_text h.header]
  have hfirst : Within m.length (⟨false,[0]⟩ : Look Bool) := fun i hi => by
    rw [List.mem_singleton.1 hi]
    exact hpos
  rw [and_iff_right hfirst,if_neg Bool.false_ne_true,within_bind,strstrLook_value,
    strstr_header h.header,and_iff_right (within_strstrLook_header h.header)]
  obtain ⟨t,rfl⟩ := h.header
  have hdrop : (cmdHeader++t++tail).drop (0+5) = t++tail := rfl
  have hlen : (cmdHeader++t).length-(0+5) = t.length := by
    rw [List.length_append]
    exact Nat.add_sub_cancel_left 5 _
  have hzero : 0 ∈ cmdHeader++t ↔ 0 ∈ t := by simp [lit]
  have hcount : (cmdHeader++t).count 44 = t.count 44 := by simp [lit]
  rw [within_bind,within_shift (by rw [List.length_append]; exact Nat.le_add_right _ _),hdrop,hlen,
    hcomma,within_strstrLook,hzero,hcount]
  by_cases hw : 44 ∈ t ∨ 0 ∈ t
  · rw [and_iff_right hw]
    cases hf : find [44] (cstring (t++tail)) with
    | none =>
      have h0 : 0 ∈ t := by
        by_contra hno
        have hcs := find_singleton_eq_none.1 hf
        rw [cstring_append hno] at hcs
        exact hcs (List.mem_append_left _ (hw.resolve_right hno))
      simp only [strstrLook_value,strstr,hf]
      exact iff_of_true (within_pure _) (Or.inl h0)
    | some i =>
      rw [← within_strstrLook t tail] at hw
      obtain ⟨a,b,rfl,rfl,ha,h0⟩ := of_within_strstrLook hw hf
      have hzero' : 0 ∈ a++44::b ↔ 0 ∈ b := by simp [h0]
      have hcount' : 2 ≤ (a++44::b).count 44 ↔ 44 ∈ b := by
        rw [List.count_append,List.count_eq_zero.2 ha,List.count_cons_self,
          ← List.count_pos_iff]
        omega
      simp only [strstrLook_value,strstr,hf]
      have hlen2 : (cmdHeader++(a++44::b)).length = 0+5+a.length+1+b.length := by
        simp only [List.length_append,List.length_cons]
        exact (by omega : 5+(a.length+(b.length+1)) = 0+5+a.length+1+b.length)
      have hdrop2 : (cmdHeader++(a++44::b)++tail).drop (0+5+a.length+1) = b++tail := by
        have hsplit : cmdHeader++(a++44::b)++tail = cmdHeader++a++[44]++(b++tail) := by simp
        rw [hsplit]
        exact List.drop_left' (by simp only [List.length_append,List.length_singleton]; rfl)
      rw [hzero',hcount',or_comm,within_bind,hlen2,within_shift (Nat.le_add_right _ _),
        Nat.add_sub_cancel_left,hdrop2,within_strstrLook]
      refine and_iff_left_of_imp fun hw2 => ?_
      rw [← within_strstrLook b tail] at hw2
      cases hf2 : find [44] (cstring (b++tail)) with
      | none =>
        simp only [strstrLook_value,strstr,hf2]
        exact within_pure _
      | some j =>
        obtain ⟨a2,b2,rfl,rfl,-,-⟩ := of_within_strstrLook hw2 hf2
        have htwo : 2 ≤ b2.length := two_behind (a := cmdHeader++(a++44::a2)) (c := 44) h.line_end
          (by simp) (by decide) (by decide)
        simp only [strstrLook_value,strstr,hf2,within_bind,within_cell,List.length_append,
          List.length_cons]
        refine ⟨(within_shift (Nat.le_add_right _ _)).2 (within_first.2 ?_),by omega,within_pure _⟩
        omega
  · rw [not_or] at hw
    refine iff_of_false (fun hall => ?_) ?_
    · exact hall.1.elim hw.1 hw.2
    · rw [List.count_eq_zero.2 hw.1]
      exact fun hall => hall.elim hw.2 (by decide)

/-- The three bytes behind the header, read as digits whatever they are. -/
def commandNumber (m : List UInt8) : ℤ :=
  (charVal (m.getD 5 0)-48)*100+(charVal (m.getD 6 0)-48)*10+(charVal (m.getD 7 0)-48)

theorem charVal_range (b : UInt8) : -128 ≤ charVal b ∧ charVal b < 128 := by
  have hlt := b.toNat_lt
  rw [charVal]
  split_ifs <;> omega

theorem gpsGetAckCmd_eq_ack (h : cmdHeader <+: m) (hlength : 8 ≤ m.length)
    (tail : List UInt8) : gpsGetAckCmd (m++tail) = GpsCmd.ack.toNat ↔ commandNumber m = 1 := by
  have hget : ∀ i < 8, (m++tail).getD i 0 = m.getD i 0 := fun i hi =>
    List.getD_append m tail 0 i (hi.trans_le hlength)
  have h5 := charVal_range (m.getD 5 0)
  have h6 := charVal_range (m.getD 6 0)
  have h7 := charVal_range (m.getD 7 0)
  have hack : GpsCmd.ack.toNat = 1 := rfl
  rw [gpsGetAckCmd_eq h tail (by decide),sentenceNumber,hget 5 (by decide),hget 6 (by decide),
    hget 7 (by decide),toU16,commandNumber,hack]
  omega

theorem within_first_byte (h : cmdHeader <+: m) :
    Within m.length (⟨false,[0]⟩ : Look Bool) := fun i hi => by
  rw [List.mem_singleton.1 hi]
  exact (by decide : 0 < cmdHeader.length).trans_le h.length_le

theorem within_gpsSendCmdWaitAckLook_text (h : TextMessage m) (below : ℕ → UInt8) :
    Within m.length (gpsSendCmdWaitAckLook below (m++tail)) ↔ 42 ∈ m ∨ 0 ∈ m := by
  rw [gpsSendCmdWaitAckLook,within_bind,isBinaryLook_text h.header,
    and_iff_right (within_first_byte h.header),if_neg Bool.false_ne_true,within_bind,
    strstrLook_value,strstr_header h.header,and_iff_right (within_strstrLook_header h.header)]
  simp only [shift_zero,List.drop_zero]
  rw [within_bind,within_gpsCheckParityLook h,gpsCheckParityLook_value]
  refine and_iff_left_of_imp fun hw => ?_
  split_ifs with hparity
  · rw [gpsCheckParity_iff_hasChecksum h hw] at hparity
    have hlength := hparity.length_ge h
    rw [within_bind]
    exact ⟨within_gpsGetAckCmdLook h.header (by omega),within_pure _⟩
  · exact within_pure _

theorem gpsSendCmdWaitAckLook_text (h : TextMessage m) (below : ℕ → UInt8) :
    (gpsSendCmdWaitAckLook below (m++tail)).value =
      if gpsCheckParity below (m++tail) then (gpsGetAckCmd (m++tail),0)
      else (GpsCmd.fail.toNat,0) := by
  rw [gpsSendCmdWaitAckLook,value_bind,isBinaryLook_text h.header,if_neg Bool.false_ne_true,
    value_bind,strstrLook_value,strstr_header h.header]
  simp only [shift_zero,List.drop_zero]
  rw [value_bind,gpsCheckParityLook_value]
  cases gpsCheckParity below (m++tail) with
  | false => rfl
  | true =>
    rw [if_neg (not_not.2 rfl),value_bind,gpsGetAckCmdLook_value]
    rfl

/-- The text holds a star or a terminator; with a checksum that is accepted and the number of an
acknowledgement it also holds two commas or a terminator. -/
structure TextInside (below : ℕ → UInt8) (m : List UInt8) : Prop where
  star : 42 ∈ m ∨ 0 ∈ m
  commas : HasChecksum below m → commandNumber m = 1 → 0 ∈ m ∨ 2 ≤ m.count 44

theorem within_text (h : TextMessage m) (below : ℕ → UInt8) (cmdSend : GpsCmd)
    (cmdStr : List UInt8) (format : GpsFormat) :
    Within m.length (gpsSendWaiteNormalAckLook below cmdSend cmdStr format (m++tail)) ↔
      TextInside below m := by
  rw [gpsSendWaiteNormalAckLook,within_bind,within_gpsSendCmdWaitAckLook_text h,
    gpsSendCmdWaitAckLook_text h]
  by_cases hw : 42 ∈ m ∨ 0 ∈ m
  · rw [and_iff_right hw]
    by_cases hparity : gpsCheckParity below (m++tail) = true
    · have hsum := (gpsCheckParity_iff_hasChecksum h hw below).1 hparity
      have hlength := hsum.length_ge h
      have hnumber := gpsGetAckCmd_eq_ack h.header (by omega) tail
      rw [if_pos hparity,shift_zero,List.drop_zero]
      by_cases hack : gpsGetAckCmd (m++tail) = GpsCmd.ack.toNat
      · rw [hack,normalAckLook_ack,within_gpsAckCheckLook h]
        exact ⟨fun hin => ⟨hw,fun _ _ => hin⟩,fun hin => hin.commas hsum (hnumber.1 hack)⟩
      · refine iff_of_true ?_ ⟨hw,fun _ hone => absurd (hnumber.2 hone) hack⟩
        by_cases hgpd : gpsGetAckCmd (m++tail) = GpsCmd.ackGpd.toNat
        · rw [hgpd,normalAckLook_gpd (by omega)]
          exact fun _ _ => by omega
        · exact normalAckLook_other hack hgpd _ _ _ _
    · rw [if_neg hparity,shift_zero]
      refine iff_of_true (normalAckLook_other (by decide) (by decide) _ _ _ _) ⟨hw,fun hsum => ?_⟩
      exact absurd ((gpsCheckParity_iff_hasChecksum h hw below).2 hsum) hparity
  · exact iff_of_false (fun hall => hw hall.1) fun hall => hw hall.star

end

end AckReads
end A9GTracker
