import Mathlib.Data.List.Basic
import Mathlib.Tactic.Common
import A9GTracker.AckReads

/-! Which acknowledgements the checks read beyond: the text ones without the characters that are
looked for and the binary ones with a wrong length field. -/
namespace A9GTracker
namespace AckBounds

open CString Search RingBuffer Gps GpsCommand FrameExtraction AckDelivery AckCheck Look AckReads

/-! ### Binary messages -/

structure BinaryMessage (m : List UInt8) : Prop where
  header : cmdBinaryHeader <+: m
  line_end : find (lit "\r\n") m = some (m.length-2)
  length_le : m.length ≤ 1024

section
variable {m tail : List UInt8}

theorem BinaryMessage.split (h : BinaryMessage m) :
    ∃ body, m = 0xaa::0xf0::(body++[13,10]) := by
  obtain ⟨w,rfl⟩ := ends_crlf h.line_end
  obtain ⟨t,ht⟩ := h.header
  rcases w with _ | ⟨x,_ | ⟨y,body⟩⟩
  · exact absurd (List.cons.inj ht).1 (by decide)
  · exact absurd (List.cons.inj (List.cons.inj ht).2).1 (by decide)
  · obtain ⟨hx,ht⟩ := List.cons.inj ht
    obtain ⟨hy,-⟩ := List.cons.inj ht
    exact ⟨body,by rw [hx,hy]; rfl⟩

theorem isBinaryLook_binary (h : cmdBinaryHeader <+: m) :
    isBinaryLook (m++tail) = ⟨true,[0,1]⟩ := by
  obtain ⟨t,rfl⟩ := h
  rfl

theorem within_header_bytes (h : cmdBinaryHeader <+: m) :
    Within m.length (⟨true,[0,1]⟩ : Look Bool) := fun i hi => by
  have hle : 2 ≤ m.length := h.length_le
  rcases List.mem_cons.1 hi with rfl | hi
  · omega
  · rw [List.mem_singleton.1 hi]
    omega

def parityIndex (m : List UInt8) : ℕ := toU16 (declaredLength m-3)

theorem within_gpsCheckParityBinaryLook (hlength : 4 ≤ m.length) :
    Within m.length (gpsCheckParityBinaryLook (m++tail)) ↔ parityIndex m < m.length := by
  have h2 := List.getD_append m tail 0 2 (by omega)
  have h3 := List.getD_append m tail 0 3 (by omega)
  have hindex : toU16 ((m.getD 2 0).toNat+256*(m.getD 3 0).toNat-3) = parityIndex m := by
    rw [parityIndex,declaredLength]
    push_cast
    rfl
  simp only [gpsCheckParityBinaryLook,within_bind,within_cell,within_foldlM_cell,h2,h3,hindex]
  constructor
  · rintro ⟨-,-,-,hlt,-⟩
    exact hlt
  · intro hlt
    refine ⟨by omega,by omega,fun i hi => ?_,hlt,within_pure _⟩
    exact (List.mem_range.1 (List.mem_of_mem_drop hi)).trans hlt

theorem gpsCheckParityBinary_append (hlength : 4 ≤ m.length) (hindex : parityIndex m < m.length)
    (tail : List UInt8) : gpsCheckParityBinary (m++tail) = gpsCheckParityBinary m := by
  have hget : ∀ i < m.length, (m++tail).getD i 0 = m.getD i 0 := fun i hi =>
    List.getD_append m tail 0 i hi
  have heq : toU16 ((m.getD 2 0).toNat+256*(m.getD 3 0).toNat-3) = parityIndex m := by
    rw [parityIndex,declaredLength]
    push_cast
    rfl
  simp only [gpsCheckParityBinary,hget 2 (by omega),hget 3 (by omega),heq,hget _ hindex]
  rw [List.foldl_ext _ (fun r i => r ^^^ m.getD i 0)]
  intro r i hi
  rw [hget i ((List.mem_range.1 (List.mem_of_mem_drop hi)).trans hindex)]

theorem parityIndex_lt_iff (hlength : m.length ≤ 1024) :
    parityIndex m < m.length ↔ 3 ≤ declaredLength m ∧ declaredLength m ≤ m.length+2 := by
  have h2 := (m.getD 2 0).toNat_lt
  have h3 := (m.getD 3 0).toNat_lt
  rw [parityIndex,toU16,declaredLength]
  omega

def binaryNumber (m : List UInt8) : ℕ := (m.getD 4 0).toNat+256*(m.getD 5 0).toNat

theorem gpsGetAckCmdBinary_eq (h : cmdBinaryHeader <+: m) {n : ℕ}
    (hn : gpsIsCmdValid n = true) : gpsGetAckCmdBinary m = n ↔ binaryNumber m = n := by
  have hn0 : GpsCmd.fail.toNat ≠ n := by
    rintro rfl
    exact absurd hn (by decide)
  have hbinary : isBinary m = true := by
    obtain ⟨t,rfl⟩ := h
    rfl
  rw [gpsGetAckCmdBinary,if_neg (not_not.2 hbinary)]
  simp only [binaryNumber]
  by_cases hv : gpsIsCmdValid ((m.getD 4 0).toNat+256*(m.getD 5 0).toNat) = true
  · rw [if_pos hv]
  · rw [if_neg hv]
    refine iff_of_false hn0 fun heq => hv ?_
    rw [heq]
    exact hn

/-- A message of less than nine bytes with an acknowledgement's number and a right checksum. -/
theorem short_binary (h : BinaryMessage m) (hindex : parityIndex m < m.length)
    (hshort : m.length < 9) (hparity : gpsCheckParityBinary m = true)
    {n : ℕ} (hn : n = 1 ∨ n = 3) (hnumber : binaryNumber m = n) :
    m = [0xaa,0xf0,5,0,UInt8.ofNat n,0,13,10] := by
  obtain ⟨hle,hge⟩ := (parityIndex_lt_iff h.length_le).1 hindex
  obtain ⟨body,rfl⟩ := h.split
  rcases body with _ | ⟨a,_ | ⟨b,_ | ⟨c,_ | ⟨d,_ | ⟨e,body⟩⟩⟩⟩⟩
  · exact absurd hge (by decide)
  · have hdeclared : declaredLength (0xaa::0xf0::([a]++[13,10])) = a.toNat+256*13 := rfl
    simp only [hdeclared,List.length_cons,List.length_append,List.length_nil] at hge
    omega
  · have hnum : binaryNumber (0xaa::0xf0::([a,b]++[13,10])) = 13+256*10 := rfl
    omega
  · have hnum : binaryNumber (0xaa::0xf0::([a,b,c]++[13,10])) = c.toNat+256*13 := rfl
    omega
  · have hdeclared : declaredLength (0xaa::0xf0::([a,b,c,d]++[13,10])) = a.toNat+256*b.toNat := rfl
    have hnum : binaryNumber (0xaa::0xf0::([a,b,c,d]++[13,10])) = c.toNat+256*d.toNat := rfl
    simp only [hdeclared,List.length_cons,List.length_append,List.length_nil] at hge hle
    obtain rfl : b = 0 := UInt8.toNat_inj.1 (by simp only [UInt8.toNat_zero]; omega)
    obtain rfl : d = 0 := UInt8.toNat_inj.1 (by simp only [UInt8.toNat_zero]; omega)
    have hc : UInt8.ofNat n = c := by
      rw [← UInt8.ofNat_toNat (x := c)]
      congr 1
      simp only [UInt8.toNat_zero] at hnum
      omega
    have hall : ∀ k < 11, 3 ≤ k → ∀ n ∈ [1,3], gpsCheckParityBinary
        [0xaa,0xf0,UInt8.ofNat k,0,UInt8.ofNat n,0,13,10] = true → k = 5 := by decide
    have hfive := hall a.toNat (by omega) (by omega) n (by rcases hn with rfl | rfl <;> decide) (by
      rw [UInt8.ofNat_toNat,hc]
      exact hparity)
    have ha : a = 5 := UInt8.toNat_inj.1 hfive
    rw [ha,hc]
    rfl
  · simp only [List.length_cons,List.length_append,List.length_nil] at hshort
    omega

theorem within_gpsAckCheckLook_binary (h : cmdBinaryHeader <+: m) (cmdSend : ℕ) :
    Within m.length (gpsAckCheckLook (m++tail) cmdSend) ↔ 8 < m.length := by
  rw [gpsAckCheckLook,within_bind,isBinaryLook_binary h,and_iff_right (within_header_bytes h),
    if_pos rfl]
  simp only [within_bind,within_cell]
  constructor
  · rintro ⟨-,-,hlt,-⟩
    exact hlt
  · intro hlt
    exact ⟨by omega,by omega,hlt,within_pure _⟩

theorem six_le_length (h : BinaryMessage m) (hindex : parityIndex m < m.length) :
    6 ≤ m.length := by
  obtain ⟨hle,hge⟩ := (parityIndex_lt_iff h.length_le).1 hindex
  obtain ⟨body,rfl⟩ := h.split
  rcases body with _ | ⟨a,_ | ⟨b,body⟩⟩
  · exact absurd hge (by decide)
  · have hdeclared : declaredLength (0xaa::0xf0::([a]++[13,10])) = a.toNat+256*13 := rfl
    simp only [hdeclared,List.length_cons,List.length_append,List.length_nil] at hge
    omega
  · simp

theorem within_gpsSendCmdWaitAckLook_binary (h : BinaryMessage m) (below : ℕ → UInt8) :
    Within m.length (gpsSendCmdWaitAckLook below (m++tail)) ↔ parityIndex m < m.length := by
  have hlength : 4 ≤ m.length := by
    obtain ⟨body,rfl⟩ := h.split
    simp
  rw [gpsSendCmdWaitAckLook,within_bind,isBinaryLook_binary h.header,
    and_iff_right (within_header_bytes h.header),if_pos rfl,within_bind,
    within_gpsCheckParityBinaryLook hlength]
  refine and_iff_left_of_imp fun hindex => ?_
  have hsix := six_le_length h hindex
  split_ifs
  · rw [within_bind,gpsGetAckCmdBinaryLook,within_bind,isBinaryLook_binary h.header,
      and_iff_right (within_header_bytes h.header),if_neg (not_not.2 rfl)]
    simp only [within_bind,within_cell]
    exact ⟨⟨by omega,by omega,within_pure _⟩,within_pure _⟩
  · exact within_pure _

theorem gpsSendCmdWaitAckLook_binary (h : cmdBinaryHeader <+: m) (below : ℕ → UInt8) :
    (gpsSendCmdWaitAckLook below (m++tail)).value =
      if gpsCheckParityBinary (m++tail) then (gpsGetAckCmdBinary (m++tail),0)
      else (GpsCmd.fail.toNat,0) := by
  rw [gpsSendCmdWaitAckLook,value_bind,isBinaryLook_binary h,if_pos rfl,value_bind,
    gpsCheckParityBinaryLook_value]
  cases gpsCheckParityBinary (m++tail) with
  | false => rfl
  | true =>
    rw [if_neg (not_not.2 rfl),value_bind,gpsGetAckCmdBinaryLook_value]
    rfl

/-- The length field is at least 3 and exceeds the length of the message by 2 at most; and the
message is none of the two of eight bytes that end in front of the result. -/
structure BinaryInside (cmdStr m : List UInt8) : Prop where
  declared : 3 ≤ declaredLength m ∧ declaredLength m ≤ m.length+2
  ack : m ≠ [0xaa,0xf0,5,0,1,0,13,10]
  gpd : m = [0xaa,0xf0,5,0,3,0,13,10] → cmdStr.getD 6 0 = 13 → cmdStr.getD 7 0 ≠ 10

theorem within_binary (h : BinaryMessage m) (below : ℕ → UInt8) (cmdSend : GpsCmd)
    (cmdStr : List UInt8) (format : GpsFormat) :
    Within m.length (gpsSendWaiteNormalAckLook below cmdSend cmdStr format (m++tail)) ↔
      BinaryInside (gpsCmdSend below cmdStr format) m := by
  rw [gpsSendWaiteNormalAckLook,within_bind,within_gpsSendCmdWaitAckLook_binary h,
    gpsSendCmdWaitAckLook_binary h.header]
  by_cases hindex : parityIndex m < m.length
  · have hdeclared := (parityIndex_lt_iff h.length_le).1 hindex
    have hsix := six_le_length h hindex
    have hnumber : ∀ n, gpsIsCmdValid n = true →
        (gpsGetAckCmdBinary (m++tail) = n ↔ binaryNumber m = n) := by
      intro n hn
      have h4 := List.getD_append m tail 0 4 (by omega)
      have h5 := List.getD_append m tail 0 5 (by omega)
      rw [gpsGetAckCmdBinary_eq (h.header.trans (List.prefix_append _ _)) hn,binaryNumber,h4,h5]
      rfl
    rw [and_iff_right hindex,gpsCheckParityBinary_append (by omega) hindex]
    by_cases hparity : gpsCheckParityBinary m = true
    · rw [if_pos hparity,shift_zero,List.drop_zero]
      by_cases hack : gpsGetAckCmdBinary (m++tail) = GpsCmd.ack.toNat
      · rw [hack,normalAckLook_ack,within_gpsAckCheckLook_binary h.header]
        constructor
        · intro hlong
          exact ⟨hdeclared,fun heq => absurd hlong (by rw [heq]; decide),
            fun heq => absurd hlong (by rw [heq]; decide)⟩
        · intro hin
          by_contra hshort
          exact hin.ack (short_binary h hindex (by omega) hparity (Or.inl rfl)
            ((hnumber 1 (by decide)).1 hack))
      · have hnot : m ≠ [0xaa,0xf0,5,0,1,0,13,10] := fun heq =>
          hack ((hnumber 1 (by decide)).2 (by rw [heq]; rfl))
        by_cases hgpd : gpsGetAckCmdBinary (m++tail) = GpsCmd.ackGpd.toNat
        · by_cases hlong : 8 < m.length
          · rw [hgpd,normalAckLook_gpd (by omega)]
            exact iff_of_true (fun _ _ => hlong) ⟨hdeclared,hnot,fun heq => absurd hlong (by
              rw [heq]; decide)⟩
          · have heq := short_binary h hindex (by omega) hparity (Or.inr rfl)
              ((hnumber 3 (by decide)).1 hgpd)
            have h6 := List.getD_append m tail 0 6 (by rw [heq]; decide)
            have h7 := List.getD_append m tail 0 7 (by rw [heq]; decide)
            have h6' : m.getD 6 0 = 13 := by rw [heq]; rfl
            have h7' : m.getD 7 0 = 10 := by rw [heq]; rfl
            rw [hgpd,normalAckLook_gpd (by rw [heq]; decide),h6,h7,h6',h7']
            constructor
            · intro himp
              exact ⟨hdeclared,hnot,fun _ hlow hhigh => hlong (himp hlow hhigh)⟩
            · intro hin hlow hhigh
              exact absurd hhigh (hin.gpd heq hlow)
        · refine iff_of_true (normalAckLook_other hack hgpd _ _ _ _) ⟨hdeclared,hnot,fun heq => ?_⟩
          exact absurd ((hnumber 3 (by decide)).2 (by rw [heq]; rfl)) hgpd
    · rw [if_neg hparity,shift_zero]
      refine iff_of_true (normalAckLook_other (by decide) (by decide) _ _ _ _)
        ⟨hdeclared,fun heq => hparity ?_,fun heq => absurd ?_ hparity⟩
      · rw [heq]
        decide
      · rw [heq]
        decide
  · exact iff_of_false (fun hall => hindex hall.1) fun hin =>
      hindex ((parityIndex_lt_iff h.length_le).2 hin.declared)

end

/-! ### All messages -/

/-- What `GPS_Update` hands over: a text or a binary acknowledgement, through the first line
end. -/
structure AckMessage (m : List UInt8) : Prop where
  header : cmdHeader <+: m ∨ cmdBinaryHeader <+: m
  line_end : find (lit "\r\n") m = some (m.length-2)
  length_le : m.length ≤ 1024

theorem ackMessage_block {q m : List UInt8} {i j k : ℕ} (hij : i ≤ j)
    (hk : find crlf (q.drop i) = some k) (hm : (q.take (min (i+k+2) 1024)).drop j = m)
    (hheader : cmdHeader <+: m ∨ cmdBinaryHeader <+: m) (hend : crlf <:+ m) : AckMessage m := by
  have hlen := congrArg List.length hm
  rw [List.length_drop,List.length_take] at hlen
  have hprefix : m <+: q.drop j := by
    rw [← hm,List.drop_take]
    exact List.take_prefix _ _
  refine ⟨hheader,find_eq_some_of_first ?_ fun p hp ho => ?_,by omega⟩
  · obtain ⟨w,rfl⟩ := hend
    have hcrlf : crlf.length = 2 := rfl
    rw [Occurs,List.length_append,hcrlf,Nat.add_sub_cancel,List.drop_left]
  · have hq := occurs_drop.1 (ho.extend hprefix)
    have hfirst := (find_spec hk).2 (j-i+p) (by omega)
    rw [occurs_drop,(by omega : i+(j-i+p) = j+p)] at hfirst
    exact hfirst hq

/-- A waiting command is handed such a message or one that the frame buffer cuts off. -/
theorem ackUpdate_delivered {st : GpsState} (h : QueueInv st) (mallocOk : Bool) {m : List UInt8}
    (hm : (ackUpdate st mallocOk).ack = .delivered m) (hend : crlf <:+ m) :
    st.ack = .delivered m ∨ AckMessage m := by
  have hq : bufferQuery st.gpsNmeaBuffer (lit "$PGKC") 5 (bufferStartPostion st.gpsNmeaBuffer) =
      _ := query_start h (show cmdHeader.Nodup by decide) (by decide)
  have hb : bufferQuery st.gpsNmeaBuffer [0xaa,0xf0] 2 (bufferStartPostion st.gpsNmeaBuffer) = _ :=
    query_start h (show cmdBinaryHeader.Nodup by decide) (by decide)
  have hneg : ¬ (0 : ℤ) ≤ -1 := by decide
  have hlt : ∀ {header : List UInt8} {i : ℕ}, header ≠ [] → find header (queue st) = some i →
      i < (queue st).length := by
    intro header i hne hi
    have hle := (find_spec hi).1.add_length_le hne
    have hpos := List.length_pos_iff.2 hne
    omega
  cases hi : find cmdHeader (queue st) with
  | some i =>
    cases hc : find crlf ((queue st).drop i) with
    | some k =>
      obtain ⟨b',hstep⟩ := ackUpdate_text h mallocOk hi hc
      rw [hstep,deliverAck_eq_delivered] at hm
      obtain ⟨-,j,hj,hdrop⟩ := hm
      have hpre : cstring ((queue st).take (min (i+k+2) 1024)) <+: queue st :=
        (List.takeWhile_prefix _).trans (List.take_prefix _ _)
      have hheader := (find_spec hj).1.extend (List.takeWhile_prefix _)
      rw [Occurs,hdrop] at hheader
      exact Or.inr (ackMessage_block (find_le_of_extend hpre hj hi) hc hdrop (Or.inl hheader) hend)
    | none =>
      rw [hi] at hq
      simp only [ackUpdate,hq,query_crlf h (hlt (by decide) hi),hc,ge_iff_le,Int.natCast_nonneg,
        if_true,hneg,if_false] at hm
      exact Or.inl hm
  | none =>
    rw [hi] at hq
    cases hi2 : find cmdBinaryHeader (queue st) with
    | some i =>
      cases hc : find crlf ((queue st).drop i) with
      | some k =>
        obtain ⟨b',hstep⟩ := ackUpdate_binary h mallocOk hi hi2 hc
        rw [hstep,deliverAck_eq_delivered] at hm
        obtain ⟨-,j,hj,hdrop⟩ := hm
        have hheader := (find_spec hj).1
        rw [Occurs,hdrop] at hheader
        exact Or.inr (ackMessage_block (find_le_of_extend (List.take_prefix _ _) hj hi2) hc hdrop
          (Or.inr hheader) hend)
      | none =>
        rw [hi2] at hb
        simp only [ackUpdate,hq,hb,query_crlf h (hlt (by decide) hi2),hc,ge_iff_le,
          Int.natCast_nonneg,if_true,hneg,if_false] at hm
        exact Or.inl hm
    | none =>
      rw [hi2] at hb
      simp only [ackUpdate,hq,hb,ge_iff_le,hneg,if_false] at hm
      exact Or.inl hm

theorem frameStep_ack (st : GpsState) :
    (∃ st', frameStep st = .next st' ∧ st'.ack = st.ack) ∨ frameStep st = .done st := by
  simp only [frameStep]
  split_ifs
  · split
    · exact Or.inr rfl
    · exact Or.inl ⟨_,rfl,rfl⟩
  · exact Or.inl ⟨st,rfl,rfl⟩
  · exact Or.inr rfl

theorem loop_ack {st st' : GpsState} {fuel : ℕ} (h : Loop.run frameStep fuel st = some st') :
    st'.ack = st.ack := by
  refine Loop.run_partial (fun s => s.ack = st.ack) (fun s => s.ack = st.ack) ?_ ?_ rfl h
  · intro s s' hs hb
    rcases frameStep_ack s with ⟨s2,hnext,hack⟩ | hdone
    · rw [hnext] at hb
      cases hb
      exact hack.trans hs
    · rw [hdone] at hb
      cases hb
  · intro s s' hs hb
    rcases frameStep_ack s with ⟨s2,hnext,-⟩ | hdone
    · rw [hnext] at hb
      cases hb
    · rw [hdone] at hb
      cases hb
      exact hs

theorem gpsUpdate_delivered {st st' : GpsState} (h : QueueInv st) {fuel : ℕ} {data : List UInt8}
    {mallocOk : Bool} (hu : gpsUpdate fuel st data mallocOk = some st') {m : List UInt8}
    (hm : st'.ack = .delivered m) (hend : crlf <:+ m) : st.ack = .delivered m ∨ AckMessage m := by
  simp only [gpsUpdate] at hu
  split_ifs at hu
  · cases hu
    exact ackUpdate_delivered (receive_queueInv h data) mallocOk hm hend
  · rw [loop_ack hu] at hm
    exact Or.inl hm

/-- In every run: what a command has been handed, up to its line end, is such a message. -/
theorem reachable_ackMessage {log : LogSetting} {st : GpsState} (h : GpsReachable log st)
    {m : List UInt8} (hm : st.ack = .delivered m) (hend : crlf <:+ m) : AckMessage m := by
  induction h with
  | boot => cases hm
  | update hst hu ih =>
    rcases gpsUpdate_delivered (reachable_queueInv hst) hu hm hend with hold | hnew
    · exact ih hold
    · exact hnew
  | pending p hst ih => exact ih hm

/-- The checks of an acknowledgement read nothing but the message if and only if a text one
holds the characters they look for and a binary one the bytes its length field promises. -/
theorem gpsSendWaiteNormalAck_reads_iff {m : List UInt8} (h : AckMessage m) (below : ℕ → UInt8)
    (cmdSend : GpsCmd) (cmdStr : List UInt8) (format : GpsFormat) (tail : List UInt8) :
    (∀ i ∈ (gpsSendWaiteNormalAckLook below cmdSend cmdStr format (m++tail)).positions,
        i < m.length) ↔
      (cmdHeader <+: m → TextInside below m) ∧
        (cmdBinaryHeader <+: m → BinaryInside (gpsCmdSend below cmdStr format) m) := by
  have hdiffer : ¬ (cmdHeader <+: m ∧ cmdBinaryHeader <+: m) := by
    rintro ⟨htext,hbinary⟩
    exact absurd (List.prefix_of_prefix_length_le hbinary htext (by decide)) (by decide)
  rcases h.header with htext | hbinary
  · have hiff : Within m.length
        (gpsSendWaiteNormalAckLook below cmdSend cmdStr format (m++tail)) ↔ TextInside below m :=
      within_text ⟨htext,h.line_end⟩ below cmdSend cmdStr format
    exact ⟨fun hin => ⟨fun _ => hiff.1 hin,fun hbinary => absurd ⟨htext,hbinary⟩ hdiffer⟩,
      fun hin => hiff.2 (hin.1 htext)⟩
  · have hiff : Within m.length
        (gpsSendWaiteNormalAckLook below cmdSend cmdStr format (m++tail)) ↔
          BinaryInside (gpsCmdSend below cmdStr format) m :=
      within_binary ⟨hbinary,h.line_end,h.length_le⟩ below cmdSend cmdStr format
    exact ⟨fun hin => ⟨fun htext => absurd ⟨htext,hbinary⟩ hdiffer,fun _ => hiff.1 hin⟩,
      fun hin => hiff.2 (hin.2 hbinary)⟩

theorem gpsSendWaiteNormalAck_reads_interval :
    Within (lit "$PGKC001,101,3*2D\r\n").length
      (gpsSendWaiteNormalAckLook (fun _ => 0) .nmeaOutputInterval (lit "$PGKC101,1000") .nmea
        (lit "$PGKC001,101,3*2D\r\n"++[])) :=
  (gpsSendWaiteNormalAck_reads_iff ⟨Or.inl (by decide),by decide,by decide⟩ (fun _ => 0)
    .nmeaOutputInterval (lit "$PGKC101,1000") .nmea []).2
    ⟨fun _ => ⟨by decide,fun _ _ => Or.inr (by decide)⟩,fun h => absurd h (by decide)⟩

/-- An acknowledgement without a star, and the driver looks for one behind its end. -/
theorem gpsSendWaiteNormalAck_reads_beyond :
    (∃ st', gpsUpdate 0 gpsWaiting (lit "$PGKC001,101,3\r\n") true = some st' ∧
      st'.ack = .delivered (lit "$PGKC001,101,3\r\n")) ∧
    ∀ tail, ¬ ∀ i ∈ (gpsSendWaiteNormalAckLook (fun _ => 0) .nmeaOutputInterval
      (lit "$PGKC101,1000") .nmea (lit "$PGKC001,101,3\r\n"++tail)).positions,
        i < (lit "$PGKC001,101,3\r\n").length := by
  have htext : TextMessage (lit "$PGKC001,101,3\r\n") := ⟨by decide,by decide⟩
  constructor
  · rw [pending_update rfl]
    have hinv := reachable_queueInv gpsWaiting_reachable
    have hqueued : TextAck (queue (receive gpsWaiting (lit "$PGKC001,101,3\r\n"))) []
        (lit "$PGKC001,101,3\r\n") := by
      rw [receive_queue hinv,gpsWaiting_queue (by decide)]
      exact ⟨List.prefix_refl _,find_none (by decide),by decide,by decide⟩
    exact (text_delivered_iff (receive_queueInv hinv _) true hqueued).2
      ⟨rfl,by decide,by simp,by decide⟩
  · intro tail hall
    exact absurd ((within_text htext (fun _ => 0) .nmeaOutputInterval _ .nmea).1 hall).star
      (by decide)

end AckBounds
end A9GTracker
