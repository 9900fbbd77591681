import Mathlib.Data.List.Basic
import Mathlib.Tactic.Common
import A9GTracker.AckDelivery
import A9GTracker.GpsCommand

/-! Which text messages make `GPS_SendWaiteNormalAck` report success. -/
namespace A9GTracker
namespace AckCheck

open CString Search GpsCommand AckDelivery

/-! ### Acknowledgements -/

def checksum (body : List UInt8) : UInt8 := body.foldl (· ^^^ ·) 0

def numeral (digits : List UInt8) : ℕ := digits.foldl (fun n c => 10*n+(c.toNat-48)) 0

def ackBody (field extra : List UInt8) : List UInt8 := lit "PGKC001,"++field++lit ",3"++extra

/-- A `PGKC001` sentence with the number `c` in its first field and 3 in its second one, and
with the right low digit of the checksum; `high` stands where the other digit belongs. -/
structure AckShape (m : List UInt8) (c : ℕ) (field extra : List UInt8) (high : UInt8)
    (rest : List UInt8) : Prop where
  eq : m = 36::(ackBody field extra++
    42::high::hexDigit ((checksum (ackBody field extra)).toNat % 16)::rest)
  field_ne : field ≠ []
  digits : ∀ d ∈ field, isdigit d = true
  number : numeral field = c
  no_star : 42 ∉ extra
  next_field : ∀ x ∈ extra.head?, x = 44

/-- The message acknowledges the command number `c`. -/
def Acknowledges (m : List UInt8) (c : ℕ) : Prop :=
  ∃ field extra rest, AckShape m c field extra
    (hexDigit ((checksum (ackBody field extra)).toNat / 16)) rest

structure TextMessage (m : List UInt8) : Prop where
  header : cmdHeader <+: m
  line_end : find (lit "\r\n") m = some (m.length-2)

/-! ### How the driver reads a message -/

/-- The texts in front of the first comma, between the commas and behind the 3 that follows
the second comma. -/
structure Reading (mem name field rest : List UInt8) : Prop where
  eq : cstring mem = cmdHeader++(name++44::(field++44::51::rest))
  name_comma : 44 ∉ name
  field_comma : 44 ∉ field

/-- What is read has the form of an acknowledgement: nothing but 001 in front of the first
comma, a numeral without overflow, a second field that ends behind the 3, a star in the
message itself. -/
structure WellFormedReading (m name field rest : List UInt8) : Prop where
  name_eq : name = lit "001"
  digits : ∀ d ∈ field, isdigit d = true
  small : numeral field < 65536
  ends : rest.head? = some 44 ∨ rest.head? = some 42
  star : 42 ∈ m

/-- The byte the driver compares the high digit of the checksum with matches. -/
def highMatches (below : ℕ → UInt8) (body : List UInt8) (high : UInt8) : Bool :=
  hexMatches (hexStr below (charVal (checksum body) / 16)) high

/-- The sentence number is 003 and the pack number of the command is repeated. -/
structure GpdReading (mem cmdStr : List UInt8) : Prop where
  number : sentenceNumber mem = GpsCmd.ackGpd.toNat
  low : cmdStr.getD 6 0 = mem.getD 6 0
  high : cmdStr.getD 7 0 = mem.getD 7 0
  result : mem.getD 8 0 = 1

theorem strstr_header {m : List UInt8} (h : cmdHeader <+: m) (tail : List UInt8) :
    strstr (cstring (m++tail)) (lit "$PGKC") = some 0 := by
  obtain ⟨t,rfl⟩ := h
  have hcs : cstring (cmdHeader++t++tail) = cmdHeader++cstring (t++tail) := by
    rw [List.append_assoc,cstring_append (by decide)]
  rw [hcs]
  exact find_eq_some_of_first (occurs_zero.mpr (List.prefix_append _ _)) (by simp)

theorem isBinary_header {m : List UInt8} (h : cmdHeader <+: m) (tail : List UInt8) :
    isBinary (m++tail) = false := by
  obtain ⟨t,rfl⟩ := h
  rfl

theorem ackResult_eq_success {ackCmd result c : ℕ} :
    ackResult ackCmd result c = gpsCmdAckExecSuccess ↔
      gpsIsCmdValid c = true ∧ ackCmd = c ∧ result = 3 := by
  simp only [ackResult,gpsCmdAckFail,gpsCmdAckExecSuccess]
  by_cases hv : gpsIsCmdValid ackCmd = true
  · by_cases hc : ackCmd = c
    · subst hc
      by_cases hr : result = 3
      · simp [hv,hr,gpsIsCmdAckValid]
      · simp only [hv,hr]
        split_ifs <;> simp_all
    · simp [hv,hc]
  · by_cases hc : ackCmd = c
    · subst hc
      simp [hv]
    · simp [hv,hc]

theorem toU8_eq_three {c : UInt8} : toU8 (charVal c-48) = 3 ↔ c = 51 := by
  have hlt := c.toNat_lt
  rw [← UInt8.toNat_inj]
  unfold toU8 charVal
  have h51 : (51 : UInt8).toNat = 51 := rfl
  rw [h51]
  split_ifs <;> omega

theorem gpsAckCheck_eq_success {m : List UInt8} (h : cmdHeader <+: m) (tail : List UInt8) (c : ℕ) :
    gpsAckCheck (m++tail) c = gpsCmdAckExecSuccess ↔
      gpsIsCmdValid c = true ∧
        ∃ name field rest, Reading (m++tail) name field rest ∧ fieldNumber field = c := by
  have hstart := strstr_header h tail
  have hbin := isBinary_header h tail
  obtain ⟨w,hw⟩ : ∃ w, cstring (m++tail) = cmdHeader++w := by
    obtain ⟨t,rfl⟩ := h
    exact ⟨cstring (t++tail),by rw [List.append_assoc,cstring_append (by decide)]⟩
  rw [hw,strstr] at hstart
  have hfail : GpsCmd.fail.toNat ≠ gpsCmdAckExecSuccess := by decide
  have hdrop : (cmdHeader++w).drop (0+5) = w := rfl
  have hcomma : lit "," = [44] := rfl
  simp only [gpsAckCheck,hbin,Bool.false_eq_true,if_false,hw,strstr,hstart,hdrop,hcomma]
  cases hf : find [44] w with
  | none =>
    refine iff_of_false hfail ?_
    rintro ⟨_,name,field,rest,hr,_⟩
    have he := hr.eq
    rw [hw] at he
    have hmem : 44 ∈ w := by
      rw [List.append_cancel_left he]
      simp
    exact find_singleton_eq_none.mp hf hmem
  | some comma =>
    obtain ⟨name,w2,rfl,rfl,hname⟩ := find_singleton_eq_some hf
    have hdrop2 : (cmdHeader++(name++44::w2)).drop (0+5+name.length+1) = w2 := by
      have hlen : 0+5+name.length+1 = (cmdHeader++name++[44]).length := by
        simp only [List.length_append,List.length_singleton]
        rfl
      rw [hlen,show cmdHeader++(name++44::w2) = cmdHeader++name++[44]++w2 by simp]
      exact List.drop_left
    simp only [hdrop2]
    cases hf2 : find [44] w2 with
    | none =>
      refine iff_of_false hfail ?_
      rintro ⟨_,name',field,rest,hr,_⟩
      have he := hr.eq
      rw [hw] at he
      have hw2 := (append_cons_inj hname hr.name_comma (List.append_cancel_left he)).2
      refine find_singleton_eq_none.mp hf2 ?_
      rw [hw2]
      simp
    | some length =>
      obtain ⟨field,w3,rfl,rfl,hfield⟩ := find_singleton_eq_some hf2
      have hchar : (m++tail).getD (0+5+name.length+1+field.length+1) 0 = w3.getD 0 0 := by
        have hlen : 0+5+name.length+1+field.length+1 =
            (cmdHeader++name++[44]++field++[44]).length := by
          simp only [List.length_append,List.length_singleton]
          rfl
        have hsplit : cmdHeader++(name++44::(field++44::w3)) =
            cmdHeader++name++[44]++field++[44]++w3 := by simp
        have hle : 0+5+name.length+1+field.length+1 ≤ (cstring (m++tail)).length := by
          rw [hw,hsplit,hlen]
          exact (List.prefix_append _ _).length_le
        rw [getD_cstring hle,hw,hsplit,hlen,List.getD_eq_getElem?_getD,
          List.getElem?_append_right le_rfl,Nat.sub_self,List.getD_eq_getElem?_getD]
      simp only [List.take_left,hchar]
      rw [ackResult_eq_success,toU8_eq_three]
      refine and_congr_right fun _ => ?_
      constructor
      · rintro ⟨hn,h3⟩
        cases w3 with
        | nil => exact absurd h3 (by decide)
        | cons x rest =>
          obtain rfl : x = 51 := h3
          exact ⟨name,field,rest,⟨hw,hname,hfield⟩,hn⟩
      · rintro ⟨name',field',rest,hr,hn⟩
        have he := hr.eq
        rw [hw] at he
        obtain ⟨-,hw2⟩ := append_cons_inj hname hr.name_comma (List.append_cancel_left he)
        obtain ⟨rfl,rfl⟩ := append_cons_inj hfield hr.field_comma hw2
        exact ⟨hn,rfl⟩

/-! ### Success -/

theorem normalAck_eq_true (c : ℕ) (cmdStr : List UInt8) (ackCmd : ℕ) (ackStr : List UInt8) :
    normalAck c cmdStr ackCmd ackStr = true ↔
      ackCmd = GpsCmd.ackGpd.toNat ∧ cmdStr.getD 6 0 = ackStr.getD 6 0 ∧
          cmdStr.getD 7 0 = ackStr.getD 7 0 ∧ ackStr.getD 8 0 = 1 ∨
        ackCmd = GpsCmd.ack.toNat ∧ gpsAckCheck ackStr c = gpsCmdAckExecSuccess := by
  have hne : GpsCmd.ack.toNat ≠ GpsCmd.ackGpd.toNat := by decide
  simp only [normalAck]
  by_cases h1 : ackCmd = GpsCmd.ack.toNat
  · simp [h1,hne]
  · by_cases h3 : ackCmd = GpsCmd.ackGpd.toNat
    · simp only [h3,hne.symm,not_or,not_not,ne_eq,not_false_eq_true,not_true_eq_false,and_false,
        if_false,if_true,true_and,false_and,or_false,decide_eq_true_eq]
    · simp [h1,h3]

theorem gpsGetAckCmd_eq {m : List UInt8} (h : cmdHeader <+: m) (tail : List UInt8) {n : ℕ}
    (hn : gpsIsCmdValid n = true) :
    gpsGetAckCmd (m++tail) = n ↔ sentenceNumber (m++tail) = n := by
  have hn0 : n ≠ 0 := by
    rintro rfl
    exact absurd hn (by decide)
  simp only [gpsGetAckCmd,strstr_header h tail,List.drop_zero]
  by_cases hv : gpsIsCmdValid (sentenceNumber (m++tail)) = true
  · simp [hv]
  · have hne : sentenceNumber (m++tail) ≠ n := by
      rintro rfl
      exact hv hn
    have hv' : gpsIsCmdValid (sentenceNumber (m++tail)) = false := by simpa using hv
    simp [hv',hne,GpsCmd.toNat,hn0.symm]

theorem gpsSendWaiteNormalAck_eq_true {m : List UInt8} (h : cmdHeader <+: m)
    (below : ℕ → UInt8) (tail : List UInt8) (c : GpsCmd) (cmdStr : List UInt8) :
    gpsSendWaiteNormalAck below c cmdStr .nmea (some (m++tail)) = true ↔
      gpsCheckParity below (m++tail) = true ∧
        (GpdReading (m++tail) (gpsCmdSend below cmdStr .nmea) ∨
          sentenceNumber (m++tail) = GpsCmd.ack.toNat ∧ gpsIsCmdValid c.toNat = true ∧
            ∃ name field rest, Reading (m++tail) name field rest ∧
              fieldNumber field = c.toNat) := by
  have hgpd : GpdReading (m++tail) (gpsCmdSend below cmdStr .nmea) ↔
      sentenceNumber (m++tail) = GpsCmd.ackGpd.toNat ∧
        (gpsCmdSend below cmdStr .nmea).getD 6 0 = (m++tail).getD 6 0 ∧
        (gpsCmdSend below cmdStr .nmea).getD 7 0 = (m++tail).getD 7 0 ∧
        (m++tail).getD 8 0 = 1 :=
    ⟨fun hg => ⟨hg.number,hg.low,hg.high,hg.result⟩,fun hg => ⟨hg.1,hg.2.1,hg.2.2.1,hg.2.2.2⟩⟩
  rw [← gpsAckCheck_eq_success h tail c.toNat,hgpd,
    ← gpsGetAckCmd_eq h tail (show gpsIsCmdValid GpsCmd.ack.toNat = true by decide),
    ← gpsGetAckCmd_eq h tail (show gpsIsCmdValid GpsCmd.ackGpd.toNat = true by decide)]
  simp only [gpsSendWaiteNormalAck,gpsSendCmdWaitAck,isBinary_header h tail,
    strstr_header h tail,List.drop_zero,Bool.false_eq_true,if_false]
  by_cases hp : gpsCheckParity below (m++tail) = true
  · simp only [hp,not_true_eq_false,if_false,true_and]
    exact normalAck_eq_true _ _ _ _
  · have hp' : gpsCheckParity below (m++tail) = false := by simpa using hp
    simp [hp',normalAck_eq_true,GpsCmd.toNat]

/-! ### The checksum -/

theorem hexMatches_hexDigit {k : ℕ} (hk : k < 16) (c : UInt8) :
    hexMatches (hexDigit k) c = true ↔ c = hexDigit k := by
  have hlow : (hexDigit k).toNat < 128 := by
    have hall : ∀ k < 16, (hexDigit k).toNat < 128 := by decide
    exact hall k hk
  have hlt := c.toNat_lt
  rw [hexMatches,decide_eq_true_iff,← UInt8.toNat_inj,charVal]
  split_ifs <;> omega

theorem checksum_cons (b : UInt8) (body : List UInt8) :
    checksum (b::body) = body.foldl (· ^^^ ·) b := by
  simp [checksum]

/-- The checksum is compared behind the first star, which no terminator may precede. -/
theorem gpsCheckParity_eq_true {below : ℕ → UInt8} {first : UInt8} {body rest : List UInt8}
    (hfirst : first ≠ 42) (hfirst0 : first ≠ 0) (hne : body ≠ []) (hstar : 42 ∉ body) :
    gpsCheckParity below (first::(body++42::rest)) = true ↔
      0 ∉ body ∧ highMatches below body (rest.getD 0 0) = true ∧
        rest.getD 1 0 = hexDigit ((checksum body).toNat % 16) := by
  obtain ⟨b,body,rfl⟩ := List.exists_cons_of_ne_nil hne
  have hfound : 42 ∈ cstring (first::(b::body++42::rest)) ↔ (0 : UInt8) ∉ b::body := by
    have h := mem_cstring_append (show (42 : UInt8) ≠ 0 by decide) (a := first::b::body)
      (by simpa [hfirst.symm] using hstar) rest
    simpa [hfirst0.symm] using h
  have hstr : lit "*" = [42] := rfl
  rw [← hfound]
  simp only [gpsCheckParity,strstr,hstr]
  cases hf : find [42] (cstring (first::(b::body++42::rest))) with
  | none => exact iff_of_false Bool.false_ne_true fun h => find_singleton_eq_none.mp hf h.1
  | some i =>
    have hmem : 42 ∈ cstring (first::(b::body++42::rest)) := by
      by_contra hno
      rw [find_singleton_eq_none.mpr hno] at hf
      cases hf
    have hrest : ∀ x ∈ body, decide (x ≠ 42) = true := by
      intro x hx
      have hx42 : x ≠ 42 := fun he => hstar (by simp [← he,hx])
      simpa using hx42
    have htake : ((first::(b::body++42::rest)).drop 2).takeWhile (· ≠ 42) = body := by
      show (body++42::rest).takeWhile (· ≠ 42) = body
      rw [List.takeWhile_append_of_pos hrest]
      simp
    have hat : ∀ k, (first::(b::body++42::rest)).getD (body.length+2+1+k) 0 = rest.getD k 0 := by
      intro k
      have hlen : body.length+2+1+k = (first::b::(body++[42])).length+k := by
        simp only [List.length_cons,List.length_append,List.length_nil]
      rw [hlen,show first::(b::body++42::rest) = first::b::(body++[42])++rest by simp,
        List.getD_eq_getElem?_getD,List.getElem?_append_right (Nat.le_add_right _ _),
        Nat.add_sub_cancel_left,List.getD_eq_getElem?_getD]
    have hat0 := hat 0
    have hat1 : (first::(b::body++42::rest)).getD (body.length+2+2) 0 = rest.getD 1 0 := hat 1
    rw [Nat.add_zero] at hat0
    have hb : (first::(b::body++42::rest)).getD 1 0 = b := rfl
    simp only [htake,hat0,hat1,hb,hmem,true_and,Bool.and_eq_true,highMatches,checksum_cons,
      hexMatches_hexDigit (Nat.mod_lt _ (show 0 < 16 by decide))]

/-! ### Reading an acknowledgement -/

theorem fieldNumber_eq_mod {field : List UInt8} (h : ∀ d ∈ field, isdigit d = true) :
    fieldNumber field = numeral field % 65536 := by
  have hfold : ∀ (n : ℕ), field.foldl (fun (a : ℕ) c => toU16 (a*10+(charVal c-48))) (n % 65536) =
      field.foldl (fun n c => 10*n+(c.toNat-48)) n % 65536 := by
    induction field with
    | nil => simp
    | cons d field ih =>
      intro n
      have hd := h d (by simp)
      have hrange : 48 ≤ d.toNat ∧ d.toNat ≤ 57 := by
        simpa [isdigit,UInt8.le_iff_toNat_le] using hd
      have hstep : toU16 (((n % 65536 : ℕ) : ℤ)*10+(charVal d-48)) =
          (10*n+(d.toNat-48)) % 65536 := by
        unfold toU16 charVal
        split_ifs <;> omega
      rw [List.foldl_cons,List.foldl_cons,hstep]
      exact ih (fun d' hd' => h d' (by simp [hd'])) _
  exact hfold 0

section
variable {m : List UInt8} {c : ℕ} {field extra : List UInt8} {high : UInt8} {rest : List UInt8}

/-- The bytes of a message of the right shape and what follows it in memory. -/
theorem AckShape.mem_eq (h : AckShape m c field extra high rest) (tail : List UInt8) :
    m++tail = 36::(ackBody field extra++
      42::(high::hexDigit ((checksum (ackBody field extra)).toNat % 16)::(rest++tail))) := by
  rw [h.eq]
  simp

theorem AckShape.fields_eq (h : AckShape m c field extra high rest) (tail : List UInt8) :
    m++tail = cmdHeader++(lit "001"++44::(field++44::51::(extra++
      42::(high::hexDigit ((checksum (ackBody field extra)).toNat % 16)::(rest++tail))))) := by
  rw [h.mem_eq tail]
  simp [ackBody,lit]

theorem AckShape.header (h : AckShape m c field extra high rest) : cmdHeader <+: m := by
  have he := h.fields_eq []
  rw [List.append_nil] at he
  rw [he]
  exact List.prefix_append _ _

theorem AckShape.notMem_field (h : AckShape m c field extra high rest) {x : UInt8}
    (hx : isdigit x = false) : x ∉ field := by
  intro hmem
  rw [h.digits x hmem] at hx
  cases hx

theorem AckShape.star_notMem (h : AckShape m c field extra high rest) :
    42 ∉ ackBody field extra := by
  have hf := h.notMem_field (x := 42) (by decide)
  have he := h.no_star
  simp [ackBody,lit,hf,he]

theorem AckShape.zero_mem (h : AckShape m c field extra high rest) :
    0 ∈ ackBody field extra ↔ 0 ∈ extra := by
  have hf := h.notMem_field (x := 0) (by decide)
  simp [ackBody,lit,hf]

/-- The checksum of such a message is accepted when no NUL precedes the star and the driver
finds the high digit it compares with. -/
theorem AckShape.gpsCheckParity_iff (h : AckShape m c field extra high rest)
    (below : ℕ → UInt8) (tail : List UInt8) :
    gpsCheckParity below (m++tail) = true ↔
      0 ∉ extra ∧ highMatches below (ackBody field extra) high = true := by
  rw [h.mem_eq tail,gpsCheckParity_eq_true (by decide) (by decide) (by simp [ackBody,lit])
    h.star_notMem,h.zero_mem]
  simp

theorem AckShape.sentenceNumber_eq (h : AckShape m c field extra high rest)
    (tail : List UInt8) : sentenceNumber (m++tail) = GpsCmd.ack.toNat := by
  rw [h.fields_eq tail]
  rfl

theorem AckShape.reading (h : AckShape m c field extra high rest) (tail : List UInt8) :
    ∃ rest', Reading (m++tail) (lit "001") field rest' := by
  have hf0 := h.notMem_field (x := 0) (by decide)
  refine ⟨cstring (extra++42::(high::hexDigit ((checksum (ackBody field extra)).toNat % 16)::
    (rest++tail))),?_,by decide,h.notMem_field (by decide)⟩
  have hsplit : ∀ w : List UInt8, cmdHeader++(lit "001"++44::(field++44::51::w)) =
      (cmdHeader++lit "001"++[44]++field++[44,51])++w := by simp
  rw [h.fields_eq tail,hsplit,hsplit,cstring_append]
  simp [lit,hf0]

theorem AckShape.reading_unique (h : AckShape m c field extra high rest) {tail : List UInt8}
    {name field' rest' : List UInt8} (hr : Reading (m++tail) name field' rest') :
    name = lit "001" ∧ field' = field ∧ (rest'.head? = some 44 ∨ rest'.head? = some 42) := by
  obtain ⟨z,hz,hz0⟩ := exists_cstring_append (m++tail)
  rw [hr.eq,h.fields_eq tail] at hz
  simp only [List.append_assoc,List.cons_append] at hz
  obtain ⟨hname,hz⟩ := append_cons_inj (by decide) hr.name_comma (List.append_cancel_left hz)
  obtain ⟨hfield,hz⟩ := append_cons_inj (h.notMem_field (by decide)) hr.field_comma hz
  have hrest := (List.cons.inj hz).2
  refine ⟨hname.symm,hfield.symm,?_⟩
  have hhead : (rest'++z).head? = some 44 ∨ (rest'++z).head? = some 42 := by
    rw [← hrest]
    cases hx : extra with
    | nil => exact .inr rfl
    | cons x extra' =>
      have hx44 := h.next_field x (by simp [hx])
      rw [hx44]
      exact .inl rfl
  cases rest' with
  | nil =>
    rw [List.nil_append] at hhead
    rcases hhead with hh | hh <;> exact absurd (hz0 _ hh) (by decide)
  | cons x rest' => exact hhead

theorem AckShape.high_eq (h : AckShape m c field extra high rest) {c' : ℕ}
    {field' extra' : List UInt8} {high' : UInt8} {rest' : List UInt8}
    (h' : AckShape m c' field' extra' high' rest') :
    ackBody field extra = ackBody field' extra' ∧ high = high' := by
  have he := h.eq.symm.trans h'.eq
  obtain ⟨hbody,htail⟩ := append_cons_inj h.star_notMem h'.star_notMem (List.cons.inj he).2
  exact ⟨hbody,(List.cons.inj htail).1⟩

end

/-! ### The message behind a reading -/

theorem star_of_gpsCheckParity {below : ℕ → UInt8} {str : List UInt8}
    (h : gpsCheckParity below str = true) : 42 ∈ cstring str := by
  by_contra hno
  have hf : find [42] (cstring str) = none := find_singleton_eq_none.mpr hno
  have hstr : lit "*" = [42] := rfl
  simp only [gpsCheckParity,strstr,hstr,hf] at h
  cases h

theorem TextMessage.behind_star {m : List UInt8} (h : TextMessage m) {a m2 : List UInt8}
    (hm : m = a++42::m2) : ∃ high low rest, m2 = high::low::rest := by
  obtain ⟨w,t,hw,hlen⟩ := (find_spec h.line_end).1.eq_append (by decide)
  have hl := congrArg List.length hw
  have ht : t = [] := by
    simp only [List.length_append] at hl
    have hcr : (lit "\r\n").length = 2 := rfl
    exact List.eq_nil_of_length_eq_zero (by omega)
  have hcrlf : lit "\r\n" = [13,10] := rfl
  rw [ht,List.append_nil,hcrlf,hm] at hw
  match m2, hw with
  | [], hw =>
    rw [List.append_cons w 13] at hw
    exact absurd (List.append_inj' hw rfl).2 (by decide)
  | [x], hw =>
    have he := (List.append_inj' hw rfl).2
    exact absurd (List.cons.inj he).1 (by decide)
  | high::low::rest, _ => exact ⟨high,low,rest,rfl⟩

/-- A well-formed reading of a message with an accepted checksum gives it its shape. -/
theorem shape_of_reading {m : List UInt8} (hm : TextMessage m) {below : ℕ → UInt8}
    {tail name field rest : List UInt8} (hp : gpsCheckParity below (m++tail) = true)
    (hr : Reading (m++tail) name field rest) (hw : WellFormedReading m name field rest)
    (hne : field ≠ []) :
    ∃ extra high rest', AckShape m (numeral field) field extra high rest' := by
  obtain ⟨z,hz,-⟩ := exists_cstring_append (m++tail)
  have hstar := star_of_gpsCheckParity hp
  have hfield : 42 ∉ field := fun h42 => absurd (hw.digits 42 h42) (by decide)
  rw [hr.eq,hw.name_eq] at hz hstar
  have hrest : 42 ∈ rest := by
    simpa [lit,hfield] using hstar
  obtain ⟨extra,rest1,rfl,hextra⟩ := List.eq_append_cons_of_mem hrest
  obtain ⟨a,m2,hma,ha⟩ := List.eq_append_cons_of_mem hw.star
  have hbody : 42 ∉ 36::ackBody field extra := by
    simp [ackBody,lit,hfield,hextra]
  have hmem : a++42::(m2++tail) = 36::ackBody field extra++42::(rest1++z) := by
    rw [← List.cons_append,← List.append_assoc,← hma,hz]
    simp [ackBody,lit]
  obtain ⟨rfl,htail⟩ := append_cons_inj ha hbody hmem
  obtain ⟨high,low,rest',rfl⟩ := hm.behind_star hma
  have hmt : m++tail = 36::(ackBody field extra++42::(high::low::(rest'++tail))) := by
    rw [hma]
    simp
  rw [hmt,gpsCheckParity_eq_true (by decide) (by decide) (by simp [ackBody,lit])
    fun h => hbody (by simp [h])] at hp
  have hlow : low = hexDigit ((checksum (ackBody field extra)).toNat % 16) := hp.2.2
  refine ⟨extra,high,rest',?_,hne,hw.digits,rfl,hextra,?_⟩
  · rw [hma,← hlow]
    rfl
  · intro x hx
    cases extra with
    | nil => cases hx
    | cons y extra =>
      obtain rfl : y = x := by simpa using hx
      rcases hw.ends with he | he
      · simpa using he
      · have hy : y = 42 := by simpa using he
        exact absurd (by simp [hy]) hextra

/-! ### Success and acknowledgement -/

/-- The messages on which the driver does not go wrong: one with an accepted checksum that
adds up to an acknowledgement of `c` is well formed, the numbers of a binary
acknowledgement do not occur, and in one of the right form the high digit of the checksum is
right exactly if nothing keeps the driver from seeing that. -/
structure Unmistakable (below : ℕ → UInt8) (m tail cmdStr : List UInt8) (c : GpsCmd) :
    Prop where
  well_formed : gpsCheckParity below (m++tail) = true →
    sentenceNumber (m++tail) = GpsCmd.ack.toNat → gpsIsCmdValid c.toNat = true →
    ∀ name field rest, Reading (m++tail) name field rest → fieldNumber field = c.toNat →
      WellFormedReading m name field rest
  no_gpd : gpsCheckParity below (m++tail) = true →
    ¬ GpdReading (m++tail) (gpsCmdSend below cmdStr .nmea)
  legible : ∀ field extra high rest, AckShape m c.toNat field extra high rest →
    (high = hexDigit ((checksum (ackBody field extra)).toNat / 16) ↔
      gpsIsCmdValid c.toNat = true ∧ 0 ∉ extra ∧ highMatches below (ackBody field extra) high = true)

theorem AckShape.not_gpd {m : List UInt8} {c : ℕ} {field extra rest : List UInt8} {high : UInt8}
    (h : AckShape m c field extra high rest) (tail cmdStr : List UInt8) :
    ¬ GpdReading (m++tail) cmdStr := by
  intro hg
  have hn := hg.number
  rw [h.sentenceNumber_eq tail] at hn
  exact absurd hn (by decide)

/-- The driver reports success on a message of the right shape if it can read it. -/
theorem AckShape.accepted_iff {m : List UInt8} {c : GpsCmd} {field extra rest : List UInt8}
    {high : UInt8} (h : AckShape m c.toNat field extra high rest) (below : ℕ → UInt8)
    (tail cmdStr : List UInt8) :
    gpsSendWaiteNormalAck below c cmdStr .nmea (some (m++tail)) = true ↔
      gpsIsCmdValid c.toNat = true ∧ 0 ∉ extra ∧
        highMatches below (ackBody field extra) high = true := by
  have hng := h.not_gpd tail (gpsCmdSend below cmdStr .nmea)
  rw [gpsSendWaiteNormalAck_eq_true h.header,h.gpsCheckParity_iff]
  constructor
  · rintro ⟨⟨h0,hh⟩,hg | ⟨_,hv,_⟩⟩
    · exact absurd hg hng
    · exact ⟨hv,h0,hh⟩
  · rintro ⟨hv,h0,hh⟩
    obtain ⟨rest',hr⟩ := h.reading tail
    have hlt : c.toNat < 65536 := by cases c <;> decide
    have hn : fieldNumber field = c.toNat := by
      rw [fieldNumber_eq_mod h.digits,h.number,Nat.mod_eq_of_lt hlt]
    exact ⟨⟨h0,hh⟩,.inr ⟨h.sentenceNumber_eq tail,hv,_,_,rest',hr,hn⟩⟩

/-- The driver reports success exactly on the acknowledgements of the command if and only if
the message is unmistakable. -/
theorem acknowledged_iff {m : List UInt8} (hm : TextMessage m) (below : ℕ → UInt8)
    (tail : List UInt8) (c : GpsCmd) (cmdStr : List UInt8) :
    (gpsSendWaiteNormalAck below c cmdStr .nmea (some (m++tail)) = true ↔
        Acknowledges m c.toNat) ↔
      Unmistakable below m tail cmdStr c := by
  constructor
  · intro hiff
    refine ⟨?_,?_,?_⟩
    · intro hp hn hv name field rest hr hf
      have hacc := (gpsSendWaiteNormalAck_eq_true hm.header below tail c cmdStr).mpr
        ⟨hp,.inr ⟨hn,hv,name,field,rest,hr,hf⟩⟩
      obtain ⟨field',extra,rest',hs⟩ := hiff.mp hacc
      obtain ⟨hname,rfl,hends⟩ := hs.reading_unique hr
      have hlt : c.toNat < 65536 := by cases c <;> decide
      refine ⟨hname,hs.digits,by rwa [hs.number],hends,?_⟩
      rw [hs.eq]
      simp
    · intro hp hg
      have hacc := (gpsSendWaiteNormalAck_eq_true hm.header below tail c cmdStr).mpr
        ⟨hp,.inl hg⟩
      obtain ⟨field,extra,rest,hs⟩ := hiff.mp hacc
      exact hs.not_gpd tail _ hg
    · intro field extra high rest hs
      rw [← hs.accepted_iff below tail cmdStr,hiff]
      constructor
      · rintro rfl
        exact ⟨field,extra,rest,hs⟩
      · rintro ⟨field',extra',rest',hs'⟩
        obtain ⟨hbody,hhigh⟩ := hs.high_eq hs'
        rw [hhigh,hbody]
  · intro hu
    constructor
    · intro hacc
      obtain ⟨hp,hg | ⟨hn,hv,name,field,rest,hr,hf⟩⟩ :=
        (gpsSendWaiteNormalAck_eq_true hm.header below tail c cmdStr).mp hacc
      · exact absurd hg (hu.no_gpd hp)
      · have hw := hu.well_formed hp hn hv name field rest hr hf
        have hne : field ≠ [] := by
          rintro rfl
          rw [← hf] at hv
          exact absurd hv (by decide)
        have hnum : numeral field = c.toNat := by
          rw [← hf,fieldNumber_eq_mod hw.digits,Nat.mod_eq_of_lt hw.small]
        obtain ⟨extra,high,rest',hs⟩ := shape_of_reading hm hp hr hw hne
        rw [hnum] at hs
        have hhigh := (hu.legible _ _ _ _ hs).mpr ((hs.accepted_iff below tail cmdStr).mp hacc)
        exact ⟨field,extra,rest',hhigh ▸ hs⟩
    · rintro ⟨field,extra,rest,hs⟩
      exact (hs.accepted_iff below tail cmdStr).mpr ((hu.legible _ _ _ _ hs).mp rfl)

theorem acknowledged_iff_interval :
    (gpsSendWaiteNormalAck (fun _ => 0) .nmeaOutputInterval (lit "$PGKC101,1000") .nmea
        (some (lit "$PGKC001,101,3*2D\r\n"++[0])) = true ↔
      Acknowledges (lit "$PGKC001,101,3*2D\r\n") 101) ↔
    Unmistakable (fun _ => 0) (lit "$PGKC001,101,3*2D\r\n") [0] (lit "$PGKC101,1000")
      .nmeaOutputInterval :=
  acknowledged_iff ⟨by decide,by decide⟩ (fun _ => 0) [0] .nmeaOutputInterval (lit "$PGKC101,1000")

/-- The second field is 30, of which the driver looks at the 3 only. -/
theorem failure_taken_for_success :
    ¬ ∀ (m : List UInt8), TextMessage m →
      ∀ (below : ℕ → UInt8) (tail : List UInt8) (c : GpsCmd) (cmdStr : List UInt8),
        (gpsSendWaiteNormalAck below c cmdStr .nmea (some (m++tail)) = true ↔
          Acknowledges m c.toNat) := by
  intro h
  obtain ⟨field,extra,rest,hs⟩ := (h (lit "$PGKC001,101,30*1D\r\n") ⟨by decide,by decide⟩
    (fun _ => 0) [0] .nmeaOutputInterval (lit "$PGKC101,1000")).mp (by decide)
  have hr : Reading (lit "$PGKC001,101,30*1D\r\n"++[0]) (lit "001") (lit "101")
      (lit "0*1D\r\n") := ⟨by decide,by decide,by decide⟩
  exact absurd (hs.reading_unique hr).2.2 (by decide)

end AckCheck
end A9GTracker
