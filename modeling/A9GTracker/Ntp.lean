import A9GTracker.ConfigLoad
import A9GTracker.RingBuffer
import A9GTracker.Utils

/-! `NTP_Update` of `libs/utils/src/ntp.c`. The correction of the clock is computed without
signs, so a clock that is ahead of the server is set far off. -/
namespace A9GTracker
namespace Ntp

open Utils ConfigLoad RingBuffer

/-! ### The code -/

/-- One round of the wait for the reply: `select`, `FD_ISSET`, and the read that follows. -/
structure NtpRound where
  selectRet : ℤ
  isSet : Bool
  read : ReadResult

/-- The answers of the system. Both readings of the clock are in seconds since 1970. -/
structure NtpAnswers where
  sockfd : ℤ
  dnsRet : ℤ
  connectRet : ℤ
  sendTime : ℤ
  writeRet : ℤ
  rounds : ℕ → NtpRound
  receiveTime : ℤ
  setSystemTime : Bool

def ntpTimestamp70Years : ℤ := 2208988800

def time2000To1970 : ℤ := 946684800

/-- A field of 32 bits, in the order of the network. -/
def field (packet : List UInt8) (offset : ℕ) : ℕ :=
  ((packet.drop offset).take 4).foldl (fun n c => 256*n+c.toNat) 0

def bigEndian (n : ℕ) : List UInt8 :=
  [UInt8.ofNat (n/16777216),UInt8.ofNat (n/65536),UInt8.ofNat (n/256),UInt8.ofNat n]

def origTm (packet : List UInt8) : ℕ := field packet 24
def rxTm (packet : List UInt8) : ℕ := field packet 32
def txTm (packet : List UInt8) : ℕ := field packet 40

/-- The request: version 4, client mode, and the time of sending in the last field but one. -/
def requestPacket (sendTime : ℤ) : List UInt8 :=
  35::List.replicate 39 0++bigEndian (u32 (sendTime+ntpTimestamp70Years))++List.replicate 4 0

structure ReceiveState where
  recvLen : ℕ
  packet : List UInt8
  round : ℕ

/-- One round of the loop; the errors are those of `NTP_Update`. -/
def receiveBody (rounds : ℕ → NtpRound) (st : ReceiveState) :
    Loop.Step ReceiveState (Except ℤ (List UInt8)) :=
  let r := rounds st.round
  if r.selectRet = -1 then .done (.error (-4))
  else if r.selectRet = 0 then .done (.error (-5))
  else if r.isSet then
    match r.read with
    | .error _ => .done (.error (-6))
    | .bytes bs =>
      if bs = [] then .done (.error (-7))
      else
        let recvLen := u16 (st.recvLen+bs.length)
        let packet := st.packet.take st.recvLen++bs++st.packet.drop (st.recvLen+bs.length)
        if recvLen = 48 then .done (.ok packet) else .next ⟨recvLen,packet,st.round+1⟩
  else .next { st with round := st.round+1 }

/-- The time in the reply that came in at the reading `receiveTime` of the clock. -/
def ntpTime (packet : List UInt8) (receiveTime : ℤ) : ℤ :=
  let t4 := u32 (receiveTime+ntpTimestamp70Years)
  let sum := u32 ((u32 ((rxTm packet : ℤ)-origTm packet) : ℤ)+u32 ((txTm packet : ℤ)-t4))
  let delta := wrap32 ((sum/2 : ℕ) : ℤ)
  wrap32 (u32 (t4+delta-ntpTimestamp70Years))

/-- The result, what `timeNow` is set to, and what the clock of the system is asked to be
set to, in seconds since 2000. -/
structure NtpResult where
  ret : ℤ
  timeNow : Option ℤ
  rtc : Option ℤ

def ntpFinish (a : NtpAnswers) (isSetRTC : Bool) : Except ℤ (List UInt8) → NtpResult
  | .error ret => ⟨ret,none,none⟩
  | .ok packet =>
    let timeNow := ntpTime packet a.receiveTime
    if isSetRTC then
      ⟨if a.setSystemTime then 0 else -8,some timeNow,some (u32 (timeNow-time2000To1970))⟩
    else ⟨0,some timeNow,none⟩

def ntpUpdate (a : NtpAnswers) (isSetRTC : Bool) (fuel : ℕ) : Option NtpResult :=
  if a.sockfd < 0 then some ⟨-1,none,none⟩
  else if a.dnsRet ≠ 0 then some ⟨-11,none,none⟩
  else if a.connectRet < 0 then some ⟨-2,none,none⟩
  else if a.writeRet < 0 then some ⟨-3,none,none⟩
  else
    (Loop.run (receiveBody a.rounds) fuel ⟨0,requestPacket a.sendTime,0⟩).map
      (ntpFinish a isSetRTC)

/-! ### The reply -/

section reply
variable (reply : List UInt8) (cuts : ℕ → ℕ)

/-- Where the `i`-th read starts, when it is cut to `cuts i` bytes, but to no less than one
byte and no more than was requested. -/
def position : ℕ → ℕ
  | 0 => 0
  | i+1 => position i+min (48-position i) (max 1 (cuts i))

def replyRounds (i : ℕ) : NtpRound where
  selectRet := 1
  isSet := true
  read := .bytes ((reply.drop (position cuts i)).take (min (48-position cuts i) (max 1 (cuts i))))

structure Receiving (st : ReceiveState) : Prop where
  recvLen : st.recvLen = position cuts st.round
  lt : st.recvLen < 48
  packet : st.packet.take st.recvLen = reply.take st.recvLen
  length : st.packet.length = 48

variable {reply cuts}

theorem receiveBody_reply (hreply : reply.length = 48) {st : ReceiveState}
    (h : Receiving reply cuts st) :
    ∃ st', st.recvLen < st'.recvLen ∧
      ((st'.recvLen = 48 ∧ receiveBody (replyRounds reply cuts) st = .done (.ok reply)) ∨
        receiveBody (replyRounds reply cuts) st = .next st' ∧ Receiving reply cuts st') := by
  set k := min (48-st.recvLen) (max 1 (cuts st.round)) with hk
  have hlt := h.lt
  have hkpos : 0 < k := by omega
  have hkle : st.recvLen+k ≤ 48 := by omega
  have hread : (replyRounds reply cuts st.round).read =
      .bytes ((reply.drop st.recvLen).take k) := by
    rw [replyRounds,← h.recvLen]
  have hlen : ((reply.drop st.recvLen).take k).length = k := by
    rw [List.length_take,List.length_drop]
    omega
  have hne : (reply.drop st.recvLen).take k ≠ [] := List.ne_nil_of_length_pos (by omega)
  have hu16 : u16 (st.recvLen+k) = st.recvLen+k := Nat.mod_eq_of_lt (by omega)
  have hfront : st.packet.take st.recvLen++(reply.drop st.recvLen).take k =
      reply.take (st.recvLen+k) := by
    rw [h.packet,List.take_add]
  have hselect : ¬ (replyRounds reply cuts st.round).selectRet = -1 ∧
      ¬ (replyRounds reply cuts st.round).selectRet = 0 :=
    ⟨by simp [replyRounds],by simp [replyRounds]⟩
  refine ⟨⟨st.recvLen+k,reply.take (st.recvLen+k)++st.packet.drop (st.recvLen+k),st.round+1⟩,
    by simp only; omega,?_⟩
  simp only [receiveBody,if_neg hselect.1,if_neg hselect.2,hread,if_neg hne,hlen,hu16,hfront]
  rw [if_pos (show (replyRounds reply cuts st.round).isSet = true from rfl)]
  by_cases hfull : st.recvLen+k = 48
  · refine Or.inl ⟨hfull,?_⟩
    rw [if_pos hfull,hfull,List.take_of_length_le hreply.le,
      List.drop_of_length_le h.length.le,List.append_nil]
  · rw [if_neg hfull]
    refine Or.inr ⟨rfl,⟨?_,by simp only; omega,?_,?_⟩⟩
    · simp only [position]
      rw [← h.recvLen,hk]
    · simp only
      rw [List.take_left' (by rw [List.length_take]; omega)]
    · simp only [List.length_append,List.length_take,List.length_drop,h.length]
      omega

/-- A reply of 48 bytes is received as it was sent, in whatever pieces. -/
theorem receive_reply (hreply : reply.length = 48) (sendTime : ℤ) :
    ∃ fuel, Loop.run (receiveBody (replyRounds reply cuts)) fuel ⟨0,requestPacket sendTime,0⟩ =
      some (.ok reply) := by
  have hstart : Receiving reply cuts ⟨0,requestPacket sendTime,0⟩ :=
    ⟨rfl,Nat.zero_lt_succ 47,rfl,by simp [requestPacket,bigEndian]⟩
  have hnext : ∀ st st', Receiving reply cuts st →
      receiveBody (replyRounds reply cuts) st = .next st' →
      Receiving reply cuts st' ∧ 48-st'.recvLen < 48-st.recvLen := by
    intro st st' h hbody
    obtain ⟨t,hlt,⟨-,hdone⟩ | ⟨hstep,ht⟩⟩ := receiveBody_reply hreply h
    · rw [hbody] at hdone
      cases hdone
    · rw [hbody] at hstep
      cases hstep
      have hbound := ht.lt
      exact ⟨ht,by omega⟩
  have hdone : ∀ st r, Receiving reply cuts st →
      receiveBody (replyRounds reply cuts) st = .done r → r = .ok reply := by
    intro st r h hbody
    obtain ⟨t,-,⟨-,hstep⟩ | ⟨hstep,-⟩⟩ := receiveBody_reply hreply h
    · rw [hbody] at hstep
      cases hstep
      rfl
    · rw [hbody] at hstep
      cases hstep
  obtain ⟨r,hr,rfl⟩ := Loop.run_total _ _ (fun st => 48-st.recvLen) hnext hdone _ hstart
  exact ⟨_,hr⟩

end reply

/-! ### The correction -/

/-- The four times of an exchange, in seconds since 1900; the fields of the reply hold their
last 32 bits. -/
structure Exchange (reply : List UInt8) (receiveTime orig rx tx t4 : ℤ) : Prop where
  orig : (origTm reply : ℤ) = orig % 4294967296
  rx : (rxTm reply : ℤ) = rx % 4294967296
  tx : (txTm reply : ℤ) = tx % 4294967296
  t4 : t4 = receiveTime+ntpTimestamp70Years

def offsetSum (orig rx tx t4 : ℤ) : ℤ := (rx-orig)+(tx-t4)

/-- The local time of receipt, corrected by the signed average of the two differences, in
seconds since 1970 and as a `time_t`. -/
def correctedTime (orig rx tx t4 : ℤ) : ℤ :=
  wrap32 (t4+(offsetSum orig rx tx t4).tdiv 2-ntpTimestamp70Years)

variable {reply : List UInt8} {receiveTime orig rx tx t4 : ℤ}

theorem ntpTime_eq (h : Exchange reply receiveTime orig rx tx t4) :
    ntpTime reply receiveTime =
      wrap32 (t4+offsetSum orig rx tx t4 % 4294967296/2-ntpTimestamp70Years) := by
  have ⟨horig,hrx,htx,ht4⟩ := h
  have hsum : (u32 ((u32 ((rxTm reply : ℤ)-origTm reply) : ℤ)+
      u32 ((txTm reply : ℤ)-u32 t4)) : ℤ) = offsetSum orig rx tx t4 % 4294967296 := by
    rw [horig,hrx,htx,offsetSum]
    unfold u32
    omega
  have hhalf : wrap32 (offsetSum orig rx tx t4 % 4294967296/2) =
      offsetSum orig rx tx t4 % 4294967296/2 := by
    unfold wrap32
    omega
  simp only [ntpTime,← ht4,Int.natCast_ediv,hsum,Nat.cast_ofNat,hhalf]
  unfold wrap32 u32
  omega

/-- Apart from a clock that is ahead the halved sum is the signed average. -/
theorem ntpTime_eq_corrected_iff (h : Exchange reply receiveTime orig rx tx t4)
    (hlow : -2147483648 < offsetSum orig rx tx t4) (hhigh : offsetSum orig rx tx t4 < 2147483648) :
    ntpTime reply receiveTime = correctedTime orig rx tx t4 ↔ 0 ≤ offsetSum orig rx tx t4 := by
  rw [ntpTime_eq h,correctedTime]
  generalize offsetSum orig rx tx t4 = sum at hlow hhigh
  unfold wrap32
  rcases le_or_gt 0 sum with hsign | hsign
  · rw [Int.tdiv_eq_ediv_of_nonneg hsign]
    omega
  · have haverage : sum.tdiv 2 = -(-sum/2) := by
      rw [← Int.tdiv_eq_ediv_of_nonneg (by omega),Int.neg_tdiv,neg_neg]
    rw [haverage]
    omega

/-! ### The function -/

/-- `NTP_Update` returns, and it has set the time. -/
def Sets (a : NtpAnswers) (isSetRTC : Bool) (time : ℤ) : Prop :=
  (∃ fuel r, ntpUpdate a isSetRTC fuel = some r) ∧
    ∀ fuel r, ntpUpdate a isSetRTC fuel = some r → r.timeNow = some time

theorem Sets.unique {a : NtpAnswers} {isSetRTC : Bool} {time time' : ℤ}
    (h : Sets a isSetRTC time) (h' : Sets a isSetRTC time') : time = time' := by
  obtain ⟨⟨fuel,r,hr⟩,hset⟩ := h
  exact Option.some.inj ((hset fuel r hr).symm.trans (h'.2 fuel r hr))

/-- All calls in front of the wait succeed, and the reply comes in. -/
structure Answered (a : NtpAnswers) (reply : List UInt8) (cuts : ℕ → ℕ) : Prop where
  sockfd : 0 ≤ a.sockfd
  dnsRet : a.dnsRet = 0
  connectRet : 0 ≤ a.connectRet
  writeRet : 0 ≤ a.writeRet
  rounds : a.rounds = replyRounds reply cuts
  length : reply.length = 48

theorem Answered.sets {a : NtpAnswers} {cuts : ℕ → ℕ} (h : Answered a reply cuts)
    (isSetRTC : Bool) : Sets a isSetRTC (ntpTime reply a.receiveTime) := by
  obtain ⟨hsock,hdns,hconnect,hwrite,hrounds,hlength⟩ := h
  obtain ⟨fuel,hfuel⟩ : ∃ fuel, Loop.run (receiveBody (replyRounds reply cuts)) fuel
      ⟨0,requestPacket a.sendTime,0⟩ = some (.ok reply) := receive_reply hlength a.sendTime
  rw [← hrounds] at hfuel
  have hupdate : ∀ fuel, ntpUpdate a isSetRTC fuel =
      (Loop.run (receiveBody a.rounds) fuel ⟨0,requestPacket a.sendTime,0⟩).map
        (ntpFinish a isSetRTC) := by
    intro fuel
    rw [ntpUpdate,if_neg (by omega),if_neg (by simp [hdns]),if_neg (by omega),if_neg (by omega)]
  refine ⟨⟨fuel,_,by rw [hupdate,hfuel]; rfl⟩,fun fuel' r hr => ?_⟩
  rw [hupdate] at hr
  obtain ⟨received,hreceived,rfl⟩ := Option.map_eq_some_iff.1 hr
  obtain rfl := Loop.run_unique hreceived hfuel
  cases isSetRTC with
  | true => rfl
  | false => rfl

/-- An exchange whose offset is below 2^30 seconds sets the corrected time exactly when the
local clock is not ahead of the server. -/
theorem ntpUpdate_corrects_iff {a : NtpAnswers} {cuts : ℕ → ℕ} (ha : Answered a reply cuts)
    (h : Exchange reply a.receiveTime orig rx tx t4)
    (hlow : -2147483648 < offsetSum orig rx tx t4) (hhigh : offsetSum orig rx tx t4 < 2147483648)
    (isSetRTC : Bool) :
    Sets a isSetRTC (correctedTime orig rx tx t4) ↔ 0 ≤ offsetSum orig rx tx t4 := by
  rw [← ntpTime_eq_corrected_iff h hlow hhigh]
  constructor
  · exact fun hsets => (ha.sets isSetRTC).unique hsets
  · intro heq
    rw [← heq]
    exact ha.sets isSetRTC

def replyOf (orig rx tx : ℕ) : List UInt8 :=
  List.replicate 24 0++bigEndian orig++List.replicate 4 0++bigEndian rx++List.replicate 4 0++
    bigEndian tx++List.replicate 4 0

/-- An exchange at the local time 1000 in which nothing fails. -/
def answersAt1000 (reply : List UInt8) : NtpAnswers where
  sockfd := 3
  dnsRet := 0
  connectRet := 0
  sendTime := 998
  writeRet := 48
  rounds := replyRounds reply fun _ => 20
  receiveTime := 1000
  setSystemTime := true

/-- The server is 100 seconds ahead. -/
theorem ntpUpdate_corrects_slow_clock :
    Sets (answersAt1000 (replyOf 2208989798 2208989899 2208989900)) true 1100 := by
  have hanswered : Answered (answersAt1000 (replyOf 2208989798 2208989899 2208989900))
      (replyOf 2208989798 2208989899 2208989900) fun _ => 20 :=
    ⟨by decide,rfl,by decide,by decide,rfl,by decide⟩
  have hexchange : Exchange (replyOf 2208989798 2208989899 2208989900) 1000 2208989798 2208989899
      2208989900 2208989800 :=
    ⟨by decide,by decide,by decide,rfl⟩
  exact (ntpUpdate_corrects_iff hanswered hexchange (by decide) (by decide) true).2 (by decide)

/-- With the local clock ten seconds ahead the time is set to the year 1901. -/
theorem fast_clock_not_corrected :
    ¬ ∀ (a : NtpAnswers) (reply : List UInt8) (cuts : ℕ → ℕ) (orig rx tx t4 : ℤ),
      Answered a reply cuts → Exchange reply a.receiveTime orig rx tx t4 →
      -2147483648 < offsetSum orig rx tx t4 → offsetSum orig rx tx t4 < 2147483648 →
      ∀ isSetRTC, Sets a isSetRTC (correctedTime orig rx tx t4) := by
  intro h
  have hanswered : Answered (answersAt1000 (replyOf 2208989800 2208989790 2208989790))
      (replyOf 2208989800 2208989790 2208989790) fun _ => 20 :=
    ⟨by decide,rfl,by decide,by decide,rfl,by decide⟩
  have hsets := h _ _ _ 2208989800 2208989790 2208989790 2208989800 hanswered
    ⟨by decide,by decide,by decide,rfl⟩ (by decide) (by decide) true
  exact absurd ((hanswered.sets true).unique hsets) (by decide)

end Ntp
end A9GTracker
