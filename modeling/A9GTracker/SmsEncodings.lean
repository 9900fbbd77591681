import A9GTracker.CharBuffer
import A9GTracker.Loop
import A9GTracker.SmsRecognition

/-! The copy of a message into `cmd`, byte by byte: one loop for each encoding, and what they
leave in the buffer. -/
namespace A9GTracker
namespace SmsEncodings

open CString CharBuffer Sms SmsRecognition

/-! ### The loops -/

def zeroCmd : Buffer := ⟨List.replicate 176 0,[]⟩

def asciiCopy (contentStr : List UInt8) : Buffer :=
  strncpyFrom 0 (if contentStr.length < 175 then contentStr.length else 175) contentStr zeroCmd

/-- The variables of the loop; `i` and `cmdLen` have 16 bits. -/
structure UnicodeState where
  i : ℕ
  cmdLen : ℕ
  cmd : Buffer

def unicodeBody (contentStr : List UInt8) (st : UnicodeState) : Loop.Step UnicodeState Buffer :=
  if st.i < contentStr.length ∧ st.cmdLen < 175 then
    if st.i+1 < contentStr.length ∧ contentStr.getD st.i 0 = 0 then
      .next ⟨(st.i+2) % 65536,(st.cmdLen+1) % 65536,
        st.cmd.put st.cmdLen (contentStr.getD (st.i+1) 0)⟩
    else .next ⟨(st.i+2) % 65536,st.cmdLen,st.cmd⟩
  else .done st.cmd

/-- The buffer in front of `trim_whitespace`, or `none` when the fuel is used up or the
encoding is not supported. -/
def extractCmd (encodeType : SmsEncodeType) (contentStr : List UInt8) (fuel : ℕ) :
    Option Buffer :=
  match encodeType with
  | .ascii => some (asciiCopy contentStr)
  | .unicode => Loop.run (unicodeBody contentStr) fuel ⟨0,0,zeroCmd⟩
  | .other => none

/-! ### What they leave -/

def filled (s : List UInt8) : Buffer := ⟨padded 176 s,List.range s.length⟩

theorem filled_put {s : List UInt8} (h : s.length < 176) (c : UInt8) :
    (filled s).put s.length c = filled (s++[c]) := by
  rw [filled,filled,Buffer.put,padded_set h,List.length_append,List.length_singleton,
    List.range_succ]

/-- The copy writes every byte up to its bound, so a text without NULs is all it leaves. -/
theorem asciiCopy_eq {text : List UInt8} (h : (0 : UInt8) ∉ text) :
    asciiCopy text = filled (text.take 175) := by
  have hbound : (if text.length < 175 then text.length else 175) = (text.take 175).length := by
    rw [List.length_take]
    split_ifs <;> omega
  have hlen : (text.take 175).length ≤ 175 := List.length_take_le _ _
  have htake : text.take (text.take 175).length = text.take 175 := by
    rw [List.length_take,← List.take_take,List.take_length]
  have hbytes : (asciiCopy text).bytes = padded 176 (text.take 175) := by
    rw [asciiCopy,hbound,strncpyFrom_bytes h (by rw [zeroCmd,List.length_replicate]; omega),htake,
      zeroCmd,List.take_zero,List.nil_append,Nat.zero_add,List.drop_replicate,padded,padded,
      List.append_assoc,← List.replicate_add,Nat.sub_self,
      Nat.zero_add]
  have hwrites : (asciiCopy text).writes = List.range (text.take 175).length := by
    rw [asciiCopy,hbound,strncpyFrom_writes,List.range_eq_range']
    rfl
  rw [filled,← hbytes,← hwrites]

theorem unicodeBody_keeps {contentStr s : List UInt8} {i : ℕ} {low : UInt8}
    {rest : List UInt8} (hs : s.length < 175) (hi : i+2 < 65536)
    (hdrop : contentStr.drop i = 0::low::rest) :
    unicodeBody contentStr ⟨i,s.length,filled s⟩ =
      .next ⟨i+2,(s++[low]).length,filled (s++[low])⟩ := by
  have hlen := congrArg List.length hdrop
  rw [List.length_drop,List.length_cons,List.length_cons] at hlen
  have hlt : i < contentStr.length := by omega
  have hpair : i+1 < contentStr.length := by omega
  have hcmdLen : s.length+1 < 65536 := by omega
  have hhigh : contentStr.getD i 0 = 0 := by
    rw [← Nat.add_zero i,List.getD_eq_getElem?_getD,← List.getElem?_drop,hdrop]
    rfl
  have hlow : contentStr.getD (i+1) 0 = low := by
    rw [List.getD_eq_getElem?_getD,← List.getElem?_drop,hdrop]
    rfl
  rw [unicodeBody,if_pos ⟨hlt,hs⟩,if_pos ⟨hpair,hhigh⟩,hlow,filled_put (by omega),
    Nat.mod_eq_of_lt hi,List.length_append,List.length_singleton,Nat.mod_eq_of_lt hcmdLen]

theorem unicodeBody_skips {contentStr s : List UInt8} {i : ℕ} (hs : s.length < 175)
    (hlt : i < contentStr.length) (hskip : ∀ low rest, contentStr.drop i ≠ 0::low::rest) :
    unicodeBody contentStr ⟨i,s.length,filled s⟩ = .next ⟨(i+2) % 65536,s.length,filled s⟩ := by
  have hnot : ¬ (i+1 < contentStr.length ∧ contentStr.getD i 0 = 0) := by
    rintro ⟨hpair,hhigh⟩
    refine hskip (contentStr[i+1]) (contentStr.drop (i+2)) ?_
    rw [List.getD_eq_getElem?_getD,List.getElem?_eq_getElem hlt,Option.getD_some] at hhigh
    rw [List.drop_eq_getElem_cons hlt,List.drop_eq_getElem_cons hpair,hhigh]
  rw [unicodeBody,if_pos ⟨hlt,hs⟩,if_neg hnot]

theorem unicodeCmd_zero (contentStr : List UInt8) : unicodeCmd contentStr 0 = [] :=
  unicodeCmd.eq_2 _ _ (by simp)

theorem unicodeCmd_of_skip {contentStr : List UInt8} {room : ℕ}
    (hskip : ∀ low rest, contentStr ≠ 0::low::rest) :
    unicodeCmd contentStr room = unicodeCmd (contentStr.drop 2) room := by
  match contentStr, room with
  | [], _ => rfl
  | [_], room => cases room <;> rfl
  | high::low::rest, 0 => rw [unicodeCmd_zero,unicodeCmd_zero]
  | high::low::rest, room+1 =>
    rw [unicodeCmd,if_neg fun h => hskip low rest (by rw [h])]
    rfl

/-- As long as its index does not wrap, the loop leaves what the decoder on lists yields. -/
theorem unicode_run_eq {contentStr : List UInt8} {n i : ℕ} {s : List UInt8} {r : Buffer}
    (hs : s.length ≤ 175) (hwrap : i+2*n < 65536)
    (h : Loop.run (unicodeBody contentStr) n ⟨i,s.length,filled s⟩ = some r) :
    r = filled (s++unicodeCmd (contentStr.drop i) (175-s.length)) := by
  induction n generalizing i s with
  | zero => cases h
  | succ n ih =>
    by_cases hround : i < contentStr.length ∧ s.length < 175
    · obtain ⟨hi,hroom⟩ := hround
      by_cases hpair : ∃ low rest, contentStr.drop i = 0::low::rest
      · obtain ⟨low,rest,hdrop⟩ := hpair
        rw [Loop.run_next (unicodeBody_keeps hroom (by omega) hdrop)] at h
        have hdrop' : contentStr.drop (i+2) = rest := by
          rw [← List.drop_drop,hdrop]
          rfl
        obtain ⟨room,hsucc⟩ : ∃ room, 175-s.length = room+1 := ⟨175-s.length-1,by omega⟩
        have hroom' : 175-(s++[low]).length = room := by
          rw [List.length_append,List.length_singleton]
          omega
        rw [ih (by rw [List.length_append,List.length_singleton]; omega) (by omega) h,hdrop',
          hroom',hdrop,hsucc,unicodeCmd,if_pos rfl,List.append_assoc,List.singleton_append]
      · have hskip : ∀ low rest, contentStr.drop i ≠ 0::low::rest :=
          fun low rest hdrop => hpair ⟨low,rest,hdrop⟩
        rw [Loop.run_next (unicodeBody_skips hroom hi hskip),Nat.mod_eq_of_lt (by omega)] at h
        rw [ih hs (by omega) h,unicodeCmd_of_skip hskip,List.drop_drop]
    · have hstop : unicodeBody contentStr ⟨i,s.length,filled s⟩ = .done (filled s) :=
        if_neg hround
      have hnone : unicodeCmd (contentStr.drop i) (175-s.length) = [] := by
        rcases not_and_or.1 hround with hend | hfull
        · rw [List.drop_of_length_le (not_lt.1 hend),unicodeCmd.eq_2 _ _ (by simp)]
        · rw [(by omega : 175-s.length = 0),unicodeCmd_zero]
      rw [Loop.run_done hstop] at h
      rw [hnone,List.append_nil]
      exact (Option.some.inj h).symm

/-! ### Texts of 7-bit characters -/

theorem contentStr_ucs2 (text : List UInt8) :
    (SmsText.ucs2 (text.map UInt8.toUInt16)).contentStr = text.flatMap fun c => [0,c] := by
  rw [SmsText.contentStr,List.flatMap_map]
  congr 1
  funext c
  have hlt := c.toNat_lt
  rw [UInt8.toNat_toUInt16,Nat.div_eq_of_lt hlt,Nat.mod_eq_of_lt hlt,UInt8.ofNat_toNat]
  rfl

theorem unicodeCmd_text (text : List UInt8) (room : ℕ) :
    unicodeCmd (text.flatMap fun c => [0,c]) room = text.take room := by
  induction text generalizing room with
  | nil => cases room <;> rfl
  | cons c text ih =>
    cases room with
    | zero => exact unicodeCmd_zero _
    | succ room =>
      rw [List.flatMap_cons,List.cons_append,List.singleton_append,unicodeCmd,if_pos rfl,ih,
        List.take_succ_cons]

theorem drop_text (text : List UInt8) (k : ℕ) :
    (text.flatMap fun c => [0,c]).drop (2*k) = (text.drop k).flatMap fun c => [0,c] := by
  induction text generalizing k with
  | nil => simp
  | cons c text ih =>
    cases k with
    | zero => rfl
    | succ k => exact ih k

/-- Every round of the loop on such a text adds a character, so it ends. -/
theorem unicode_returns (text : List UInt8) :
    ∃ r, Loop.run (unicodeBody (text.flatMap fun c => [0,c])) 176 ⟨0,0,zeroCmd⟩ = some r := by
  have hround : ∀ st st' : UnicodeState,
      (∃ s : List UInt8, s.length ≤ 175 ∧ st = ⟨2*s.length,s.length,filled s⟩) →
      unicodeBody (text.flatMap fun c => [0,c]) st = .next st' →
      (∃ s : List UInt8, s.length ≤ 175 ∧ st' = ⟨2*s.length,s.length,filled s⟩) ∧
        175-st'.cmdLen < 175-st.cmdLen := by
    rintro st st' ⟨s,hs,rfl⟩ hbody
    by_cases hend : 2*s.length < (text.flatMap fun c => [0,c]).length ∧ s.length < 175
    · have hdrop := drop_text text s.length
      cases hrest : text.drop s.length with
      | nil =>
        rw [hrest] at hdrop
        have hlen := List.drop_eq_nil_iff.1 hdrop
        omega
      | cons c rest =>
        rw [hrest] at hdrop
        rw [unicodeBody_keeps hend.2 (by omega) hdrop] at hbody
        obtain rfl := Loop.Step.next.inj hbody
        refine ⟨⟨s++[c],?_,?_⟩,?_⟩
        · rw [List.length_append,List.length_singleton]
          omega
        · rw [List.length_append,List.length_singleton]
          rfl
        · simp only [List.length_append,List.length_singleton]
          omega
    · rw [unicodeBody,if_neg hend] at hbody
      cases hbody
  obtain ⟨r,hr,-⟩ := Loop.run_total
    (fun st : UnicodeState => ∃ s : List UInt8, s.length ≤ 175 ∧ st = ⟨2*s.length,s.length,filled s⟩)
    (fun _ => True) (fun st => 175-st.cmdLen) hround (fun _ _ _ _ => trivial) ⟨0,0,zeroCmd⟩
    ⟨[],by decide,rfl⟩
  exact ⟨r,hr⟩

theorem unicode_text {text : List UInt8} {fuel : ℕ} (h : 176 ≤ fuel) :
    extractCmd .unicode (SmsText.ucs2 (text.map UInt8.toUInt16)).contentStr fuel =
      some (filled (text.take 175)) := by
  obtain ⟨r,hr⟩ := unicode_returns text
  have heq := unicode_run_eq (s := []) (by decide) (by decide) hr
  rw [List.drop_zero,List.nil_append,List.length_nil,Nat.sub_zero,unicodeCmd_text] at heq
  rw [contentStr_ucs2,← heq]
  exact Loop.run_mono h hr

/-! ### The bounds of the buffer -/

theorem filled_writes {s : List UInt8} (h : s.length ≤ 176) : ∀ i ∈ (filled s).writes, i < 176 :=
  fun _ hi => (List.mem_range.1 hi).trans_le h

/-! ### The two encodings -/

/-- Both encodings of a text leave the same buffer, with the first 175 characters of the text
as its string, and no write is outside of it. -/
theorem encodings_agree (text : List UInt8) (h : ∀ c ∈ text, c ≠ 0 ∧ c < 128) :
    ∃ cmd : Buffer,
      (∀ fuel, extractCmd .ascii (SmsText.ascii text).contentStr fuel = some cmd) ∧
      (∀ fuel, 176 ≤ fuel →
        extractCmd .unicode (SmsText.ucs2 (text.map UInt8.toUInt16)).contentStr fuel = some cmd) ∧
      cstring cmd.bytes = text.take 175 ∧ cmd.bytes.length = 176 ∧ ∀ i ∈ cmd.writes, i < 176 := by
  have h0 : (0 : UInt8) ∉ text := fun hmem => (h 0 hmem).1 rfl
  have hlen : (text.take 175).length ≤ 176 := (List.length_take_le _ _).trans (by decide)
  refine ⟨filled (text.take 175),fun fuel => ?_,fun fuel hfuel => unicode_text hfuel,?_,
    length_padded hlen,filled_writes hlen⟩
  · exact congrArg some (asciiCopy_eq h0)
  · rw [filled,cstring_padded]
    exact cstring_eq_self fun hmem => h0 (List.mem_of_mem_take hmem)

theorem encodings_agree_location :
    ∃ cmd : Buffer,
      (∀ fuel, extractCmd .ascii (SmsText.ascii (lit "get location")).contentStr fuel = some cmd) ∧
      (∀ fuel, 176 ≤ fuel →
        extractCmd .unicode (SmsText.ucs2 ((lit "get location").map UInt8.toUInt16)).contentStr
          fuel = some cmd) ∧
      cstring cmd.bytes = (lit "get location").take 175 ∧ cmd.bytes.length = 176 ∧
        ∀ i ∈ cmd.writes, i < 176 :=
  encodings_agree (lit "get location") (by decide +kernel)

end SmsEncodings
end A9GTracker
