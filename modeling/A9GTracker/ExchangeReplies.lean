import A9GTracker.CommandExchange

/-! The replies of the exchange: which bytes the message that a command judges is made of, and
that a reply is judged as it was sent. -/
namespace A9GTracker
namespace ExchangeReplies

open CString RingBuffer Gps FrameExtraction GpsCommand Search AckDelivery Runs CommandExchange

/-! ### The bytes of a reply -/

/-- Since a text command was sent the queue holds, and the buffers hold, only what arrived. -/
structure Fresh (s : Exchange) : Prop where
  queued : queue s.gps <:+ s.arrived
  handed : ∀ m, some m ∈ s.handed.drop s.early → m <:+: s.arrived

/-- Until the command is sent every buffer is an early one. -/
inductive FreshAt (s : Exchange) : Phase → Prop
  | idle : FreshAt s .idle
  | create (hearly : s.early = s.handed.length) : FreshAt s .create
  | send (hearly : s.early = s.handed.length) : FreshAt s .send
  | sent {p : Phase} (hcreate : p ≠ .create) (hsend : p ≠ .send)
      (hle : s.early ≤ s.handed.length) (h : s.given.format = .nmea → Fresh s) : FreshAt s p

structure SameReplies (s t : Exchange) : Prop where
  queue : queue t.gps = queue s.gps
  arrived : t.arrived = s.arrived
  handed : t.handed = s.handed
  early : t.early = s.early
  given : t.given = s.given

theorem FreshAt.same {s t : Exchange} {p : Phase} (h : FreshAt s p) (ht : SameReplies s t) :
    FreshAt t p := by
  cases h with
  | idle => exact .idle
  | create hearly => exact .create (by rw [ht.early,ht.handed,hearly])
  | send hearly => exact .send (by rw [ht.early,ht.handed,hearly])
  | sent hcreate hsend hle h =>
    refine .sent hcreate hsend (by rw [ht.early,ht.handed]; exact hle) fun hf => ?_
    rw [ht.given] at hf
    obtain ⟨hqueue,hhanded⟩ := h hf
    refine ⟨by rw [ht.queue,ht.arrived]; exact hqueue,fun m hm => ?_⟩
    rw [ht.handed,ht.early] at hm
    rw [ht.arrived]
    exact hhanded m hm

theorem Fresh.arrive {s : Exchange} (h : Fresh s) {gps : GpsState} {fresh : List UInt8}
    (hqueue : queue gps <:+ queue s.gps++fresh) :
    Fresh { s with gps := gps, arrived := s.arrived++fresh } where
  queued := by
    obtain ⟨front,hfront⟩ := h.queued
    exact hqueue.trans ⟨front,by rw [← List.append_assoc,hfront]⟩
  handed m hm := (h.handed m hm).trans (List.prefix_append _ _).isInfix

theorem FreshAt.arrive {s : Exchange} {p : Phase} (h : FreshAt s p) {gps : GpsState}
    {fresh : List UInt8} (hqueue : queue gps <:+ queue s.gps++fresh) :
    FreshAt { s with gps := gps, arrived := s.arrived++fresh } p := by
  cases h with
  | idle => exact .idle
  | create hearly => exact .create hearly
  | send hearly => exact .send hearly
  | sent hcreate hsend hle h => exact .sent hcreate hsend hle fun hf => (h hf).arrive hqueue

theorem FreshAt.hand {s : Exchange} (h : FreshAt s s.phase) (hidle : s.phase ≠ .idle)
    (hcreate : s.phase ≠ .create) {msg : Option (List UInt8)}
    (hmsg : s.given.format = .nmea → s.phase ≠ .send → ∀ m, msg = some m → m <:+: s.arrived) :
    FreshAt (s.hand msg) s.phase := by
  generalize hp : s.phase = p at h hidle hcreate
  cases h with
  | idle => exact absurd rfl hidle
  | create => exact absurd rfl hcreate
  | send hearly =>
    refine .send ?_
    simp only [Exchange.hand,hp,if_true,List.length_append,List.length_singleton,hearly]
  | sent _ hsend hle h =>
    have hearly : (s.hand msg).early = s.early := by simp [Exchange.hand,hp,hsend]
    have hhanded : (s.hand msg).handed = s.handed++[msg] := rfl
    refine .sent hcreate hsend ?_ fun hf => ⟨(h hf).queued,fun m hm => ?_⟩
    · rw [hearly,hhanded,List.length_append]
      omega
    · rw [hearly,hhanded,List.drop_append_of_le_length hle,List.mem_append] at hm
      rcases hm with hm | hm
      · exact (h hf).handed m hm
      · exact hmsg hf (hp ▸ hsend) m (List.mem_singleton.1 hm).symm

theorem FreshAt.fresh {s : Exchange} {p : Phase} (h : FreshAt s p) (hidle : p ≠ .idle)
    (hcreate : p ≠ .create) (hsend : p ≠ .send) :
    s.early ≤ s.handed.length ∧ (s.given.format = .nmea → Fresh s) := by
  cases h with
  | idle => exact absurd rfl hidle
  | create => exact absurd rfl hcreate
  | send => exact absurd rfl hsend
  | sent _ _ hle h => exact ⟨hle,h⟩

theorem fresh_update {s s' : Exchange} (hinv : Inv s) (h : FreshAt s s.phase) {fuel : ℕ}
    {data : List UInt8} {mallocOk : Bool} (hu : updateStep s fuel data mallocOk = some s') :
    FreshAt s' s'.phase := by
  obtain ⟨gps,fresh,-,hqueue,hout⟩ := updateStep_cases hinv.queue hu
  have harrive := h.arrive hqueue
  have hphase : s.sem ≠ .null → s.phase ≠ .idle ∧ s.phase ≠ .create := by
    intro hsem
    have hat := hinv.phase
    constructor <;>
      (intro hp
       rw [hp] at hat
       cases hat with
       | _ hnull => exact hsem hnull)
  cases hout with
  | quiet hs => exact hs ▸ harrive
  | @delivered hsem _ m hin hs =>
    obtain ⟨hidle,hcreate⟩ := hphase hsem
    have hmsg : s.given.format = .nmea → s.phase ≠ .send → ∀ m', some m = some m' →
        m' <:+: s.arrived++fresh := by
      rintro hf hsend m' ⟨⟩
      obtain ⟨front,hfront⟩ := ((h.fresh hidle hcreate hsend).2 hf).queued
      have hqueued : queue s.gps++fresh <:+ s.arrived++fresh :=
        ⟨front,by rw [← List.append_assoc,hfront]⟩
      exact hin.trans hqueued.isInfix
    have hhand := harrive.hand hidle hcreate hmsg
    rw [hs]
    exact hhand.same ⟨rfl,rfl,rfl,rfl,rfl⟩
  | noMemory hsem _ hs =>
    obtain ⟨hidle,hcreate⟩ := hphase hsem
    exact hs ▸ harrive.hand hidle hcreate fun _ _ m hm => by cases hm
  | trapped _ _ hs =>
    rw [hs]
    exact harrive.same ⟨rfl,rfl,rfl,rfl,rfl⟩

theorem cmdSend_queue {s : Exchange} (hf : s.given.format = .nmea) : queue s.cmdSend.gps = [] := by
  refine List.eq_nil_of_length_eq_zero ?_
  rw [queue,contents_length,Exchange.cmdSend,if_pos hf,count]
  simp [bufferClear]

theorem fresh_cmdSend {s : Exchange} (hearly : s.early = s.handed.length)
    {p : Phase} (hcreate : p ≠ .create) (hsend : p ≠ .send) : FreshAt s.cmdSend p := by
  refine .sent hcreate hsend (le_of_eq hearly) fun hf => ⟨?_,fun m hm => ?_⟩
  · rw [cmdSend_queue (show s.given.format = .nmea from hf)]
    exact List.nil_suffix
  · have hnone : s.handed.drop s.early = [] := by rw [hearly,List.drop_length]
    rw [show s.cmdSend.handed.drop s.cmdSend.early = s.handed.drop s.early from rfl,hnone] at hm
    cases hm

theorem fresh_task {below : ℕ → UInt8} {s s' : Exchange} (h : FreshAt s s.phase)
    {stopDrops : Bool} {beyond : List UInt8}
    (hs : taskStep below s stopDrops beyond = some s') : FreshAt s' s'.phase := by
  generalize hp : s.phase = p at h
  -- behind the sending every phase is followed by one that is there too
  have hsent : ∀ {t : Exchange} {q : Phase}, p ≠ .idle → p ≠ .create → p ≠ .send → q ≠ .create →
      q ≠ .send → SameReplies s t → FreshAt t q := by
    intro t q hidle hcreate hsend hcreate' hsend' ht
    obtain ⟨hle,hfresh⟩ := h.fresh hidle hcreate hsend
    exact (FreshAt.sent hcreate' hsend' hle hfresh).same ht
  cases p <;> simp only [taskStep,hp] at hs
  case idle => cases hs
  case create =>
    cases hs
    cases h with
    | create hearly => exact .send hearly
    | sent hcreate => exact absurd rfl hcreate
  case send =>
    cases hs
    cases h with
    | send hearly =>
      exact (fresh_cmdSend (p := .startTimer) hearly (by decide) (by decide)).same
        ⟨rfl,rfl,rfl,rfl,rfl⟩
    | sent _ hsend => exact absurd rfl hsend
  case startTimer | delete | forget | stopTimer | free =>
    cases hs
    exact hsent (by simp) (by simp) (by simp) (by simp) (by simp)
      ⟨rfl,rfl,rfl,rfl,rfl⟩
  case wait | check =>
    split at hs <;> cases hs
    exact hsent (by simp) (by simp) (by simp) (by simp) (by simp)
      ⟨rfl,rfl,rfl,rfl,rfl⟩
  case testTimeOut =>
    split_ifs at hs <;> cases hs <;>
      exact hsent (by simp) (by simp) (by simp) (by simp) (by simp)
        ⟨rfl,rfl,rfl,rfl,rfl⟩

theorem fresh_step {below : ℕ → UInt8} {s s' : Exchange} (hinv : Inv s)
    (h : FreshAt s s.phase) {e : Event} (hs : step below s e = some s') :
    FreshAt s' s'.phase := by
  obtain ⟨-,hs⟩ := live_of_step hs
  cases e with
  | command given =>
    simp only [liveStep] at hs
    split_ifs at hs
    cases hs
    exact .create rfl
  | task stopDrops beyond => exact fresh_task h hs
  | expire =>
    simp only [liveStep] at hs
    split_ifs at hs
    cases hs
    exact h.same ⟨rfl,rfl,rfl,rfl,rfl⟩
  | callback =>
    simp only [liveStep] at hs
    split at hs <;> cases hs
    exact h.same ⟨rfl,rfl,rfl,rfl,rfl⟩
  | update fuel data mallocOk => exact fresh_update hinv h hs

/-! ### Success -/

/-- Success was judged on the message that `gpsAckMsg` holds. -/
def Judged (below : ℕ → UInt8) (s : Exchange) : Prop :=
  s.phase = .free → s.answer = true → ∃ m, s.ackMsg = some m ∧
    gpsSendWaiteNormalAck below s.given.cmdSend s.given.cmdStr s.given.format
      (some (m++s.behind)) = true

theorem gpsSendWaiteNormalAck_none (below : ℕ → UInt8) (given : Given) :
    gpsSendWaiteNormalAck below given.cmdSend given.cmdStr given.format none = false := rfl

theorem judged_task {below : ℕ → UInt8} {s s' : Exchange} {stopDrops : Bool}
    {beyond : List UInt8} (hs : taskStep below s stopDrops beyond = some s') : Judged below s' := by
  cases hp : s.phase <;> simp only [taskStep,hp] at hs
  case idle => cases hs
  case create | send | startTimer | delete | forget | stopTimer | free =>
    cases hs
    rintro ⟨⟩
  case wait =>
    split at hs <;> cases hs
    rintro ⟨⟩
  case testTimeOut =>
    split_ifs at hs <;> cases hs
    · rintro - hanswer
      rw [gpsSendWaiteNormalAck_none] at hanswer
      cases hanswer
    · rintro ⟨⟩
  case check =>
    split at hs
    · cases hs
    · rename_i m hm
      cases hs
      exact fun _ hanswer => ⟨m,hm,hanswer⟩

theorem judged_step {below : ℕ → UInt8} {s s' : Exchange} (hinv : Inv s)
    (h : Judged below s) {e : Event} (hs : step below s e = some s') : Judged below s' := by
  obtain ⟨-,hs⟩ := live_of_step hs
  cases e with
  | command given =>
    simp only [liveStep] at hs
    split_ifs at hs
    cases hs
    rintro ⟨⟩
  | task stopDrops beyond => exact judged_task hs
  | expire =>
    simp only [liveStep] at hs
    split_ifs at hs
    cases hs
    exact h
  | callback =>
    simp only [liveStep] at hs
    split at hs <;> cases hs
    exact h
  | update fuel data mallocOk =>
    obtain ⟨gps,fresh,-,-,hout⟩ := updateStep_cases hinv.queue hs
    have hnull : s.phase = .free → s.sem = .null := by
      intro hp
      have hat := hinv.phase
      rw [hp] at hat
      cases hat with
      | free hsem => exact hsem
    cases hout with
    | quiet hs => exact hs ▸ h
    | delivered hsem _ _ hs => exact hs ▸ fun hp => absurd (hnull hp) hsem
    | noMemory hsem _ hs => exact hs ▸ fun hp => absurd (hnull hp) hsem
    | trapped hsem _ hs => exact hs ▸ fun hp => absurd (hnull hp) hsem

/-- A text command succeeds only on the message that `gpsAckMsg` holds when the call returns, with
the bytes behind it in memory, and the receiver has sent this message since the command, unless all
the buffers of the exchange were handed over between the creation of the semaphore and the sending
of the command. -/
theorem success_fresh {below : ℕ → UInt8} {allowed : Event → Prop} {log : LogSetting}
    {given : Given} {s : Exchange} (h : Reachable below allowed log given s)
    (hf : s.given.format = .nmea) (hp : s.phase = .free) (hanswer : s.answer = true) :
    ∃ m, s.ackMsg = some m ∧
      gpsSendWaiteNormalAck below s.given.cmdSend s.given.cmdStr .nmea
        (some (m++s.behind)) = true ∧
      (m <:+: s.arrived ∨ s.early = s.handed.length) := by
  have hstep : ∀ s s' e, (Inv s ∧ FreshAt s s.phase ∧ Judged below s) → allowed e →
      step below s e = some s' → Inv s' ∧ FreshAt s' s'.phase ∧ Judged below s' :=
    fun _ _ _ hs _ hstep => ⟨inv_step hs.1 hstep,fresh_step hs.1 hs.2.1 hstep,
      judged_step hs.1 hs.2.2 hstep⟩
  obtain ⟨hinv,hfresh,hjudged⟩ := Reaches.invariant hstep h
    ⟨boot_inv log given,.idle,fun hboot => by cases hboot⟩
  obtain ⟨m,hm,hsuccess⟩ := hjudged hp hanswer
  refine ⟨m,hm,by rw [← hf]; exact hsuccess,?_⟩
  have hat := hinv.phase
  rw [hp] at hat hfresh
  cases hat with
  | free _ hslot =>
    obtain ⟨hle,hsince⟩ := hfresh.fresh (by decide) (by decide) (by decide)
    by_cases hearly : s.early = s.handed.length
    · exact .inr hearly
    · have hlast : (s.handed.drop s.early).getLast? = some (some m) := by
        rw [List.getLast?_drop,if_neg (by omega)]
        rw [hslot] at hm
        exact Option.join_eq_some_iff.1 hm
      exact .inl ((hsince hf).handed m (List.mem_of_getLast? hlast))

/-! ### A whole exchange -/

theorem ackUpdate_no_line {st : GpsState} (h : QueueInv st) (hno : find crlf (queue st) = none)
    (mallocOk : Bool) : ackUpdate st mallocOk = st := by
  have hrest : ∀ i, find crlf ((queue st).drop i) = none := by
    intro i
    cases hc : find crlf ((queue st).drop i) with
    | none => rfl
    | some k => exact absurd (occurs_drop.1 (find_spec hc).1) (find_none hno _)
  have hq : bufferQuery st.gpsNmeaBuffer (lit "$PGKC") 5 (bufferStartPostion st.gpsNmeaBuffer) =
      _ := query_start h (show cmdHeader.Nodup by decide) (by decide)
  have hb : bufferQuery st.gpsNmeaBuffer [0xaa,0xf0] 2 (bufferStartPostion st.gpsNmeaBuffer) = _ :=
    query_start h (show cmdBinaryHeader.Nodup by decide) (by decide)
  have hneg : ¬ (0 : ℤ) ≤ -1 := by decide
  have hlt : ∀ {header : List UInt8} {i : ℕ}, header ≠ [] → find header (queue st) = some i →
      i < (queue st).length := by
    intro header i hne hi
    have hle := (find_spec hi).1.add_length_le hne
    have hpos := List.length_pos_iff.2 hne
    omega
  cases hi : find cmdHeader (queue st) with
  | some i =>
    rw [hi] at hq
    simp only [ackUpdate,hq,query_crlf h (hlt (by decide) hi),hrest,ge_iff_le,
      Int.natCast_nonneg,if_true,hneg,if_false]
  | none =>
    rw [hi] at hq
    cases hi2 : find cmdBinaryHeader (queue st) with
    | some i =>
      rw [hi2] at hb
      simp only [ackUpdate,hq,hb,query_crlf h (hlt (by decide) hi2),hrest,ge_iff_le,
        Int.natCast_nonneg,if_true,hneg,if_false]
    | none =>
      rw [hi2] at hb
      simp only [ackUpdate,hq,hb,ge_iff_le,hneg,if_false]

structure Waiting (s : Exchange) (queued : List UInt8) : Prop where
  live : s.trapped = false
  inv : QueueInv s.gps
  phase : s.phase = .wait
  sem : s.sem = .live 0
  queue_eq : queue s.gps = queued
  handed : s.handed = []
  ackMsg : s.ackMsg = none
  lost : s.lost = []
  flag : s.isCmdSendTimeOut = false

structure Replied (s : Exchange) (m : List UInt8) : Prop where
  live : s.trapped = false
  phase : s.phase = .wait
  sem : s.sem = .live 1
  handed : s.handed = [some m]
  ackMsg : s.ackMsg = some m
  lost : s.lost = []
  flag : s.isCmdSendTimeOut = false

def before (s : Exchange) : GpsState :=
  { s.gps with cmdPending := s.sem ≠ .null, ack := .unchanged }

structure Receives (s : Exchange) (data queued : List UInt8) : Prop where
  inv : QueueInv (receive (before s) data)
  queue_eq : queue (receive (before s) data) = queued
  pending : (receive (before s) data).cmdPending = true

theorem Waiting.receives {s : Exchange} {queued data : List UInt8} (h : Waiting s queued)
    (hfit : queued.length+data.length ≤ 1024) : Receives s data (queued++data) := by
  have hinv : QueueInv (before s) := ⟨h.inv.wellFormed,h.inv.maxSize_eq⟩
  have hqueue : queue (before s) = queued := h.queue_eq
  have hmod : data.length % 65536 = data.length := Nat.mod_eq_of_lt (by omega)
  refine ⟨receive_queueInv hinv data,?_,?_⟩
  · rw [receive_queue hinv,hqueue,queueAfter,hmod,if_pos (by omega),List.take_length]
  · simp [receive,before,h.sem]

theorem updateStep_eq {s : Exchange} {data queued : List UInt8} (h : Receives s data queued)
    (fuel : ℕ) : ∃ arrived, updateStep s fuel data true =
      match (ackUpdate (receive (before s) data) true).ack with
      | .unchanged => some { s with
          gps := ackUpdate (receive (before s) data) true, arrived := arrived }
      | .delivered m => some { { s with
            gps := ackUpdate (receive (before s) data) true, arrived := arrived }.hand (some m) with
          sem := s.sem.release }
      | .noMemory => some (Exchange.hand { s with
          gps := ackUpdate (receive (before s) data) true, arrived := arrived } none)
      | .wild => some { s with
          gps := ackUpdate (receive (before s) data) true, arrived := arrived, trapped := true } := by
  have hgps : gpsUpdate fuel (before s) data true =
      some (ackUpdate (receive (before s) data) true) := by
    simp only [gpsUpdate,h.pending,if_true]
  refine ⟨s.arrived++(queue (receive (before s) data)).drop (queue (before s)).length,?_⟩
  change (gpsUpdate fuel (before s) data true).bind _ = _
  rw [hgps]
  rfl

theorem no_line_in_part {m part : List UInt8} (hline : find crlf m = some (m.length-2))
    (hpart : part <+: m) (hlt : part.length < m.length) : find crlf part = none := by
  cases hk : find crlf part with
  | none => rfl
  | some k =>
    have hocc := (find_spec hk).1
    have hle : k+2 ≤ part.length := hocc.add_length_le (by decide)
    exact absurd (hocc.extend hpart) ((find_spec hline).2 k (by omega))

theorem waiting_part {s : Exchange} {m queued data : List UInt8} (h : Waiting s queued)
    (hdel : Deliverable [] m) (hpart : queued++data <+: m)
    (hlt : (queued++data).length < m.length) (fuel : ℕ) :
    ∃ s', updateStep s fuel data true = some s' ∧ Waiting s' (queued++data) ∧
      s'.given = s.given := by
  have hfits := hdel.fits
  rw [List.length_nil,Nat.zero_add] at hfits
  rw [List.length_append] at hlt
  have hrec : Receives s data (queued++data) := h.receives (by omega)
  obtain ⟨arrived,hstep⟩ := updateStep_eq hrec fuel
  have hno := no_line_in_part hdel.line_end hpart (by rw [List.length_append]; exact hlt)
  have hsame := ackUpdate_no_line hrec.inv (by rw [hrec.queue_eq]; exact hno) true
  rw [hsame] at hstep
  refine ⟨_,hstep,?_,rfl⟩
  exact ⟨h.live,hrec.inv,h.phase,h.sem,hrec.queue_eq,h.handed,h.ackMsg,h.lost,h.flag⟩

theorem waiting_whole {s : Exchange} {m queued data : List UInt8} (h : Waiting s queued)
    (hack : CompleteAck m [] m) (hdel : Deliverable [] m) (hwhole : queued++data = m) (fuel : ℕ) :
    ∃ s', updateStep s fuel data true = some s' ∧ Replied s' m ∧ s'.given = s.given := by
  have hfits := hdel.fits
  rw [List.length_nil,Nat.zero_add] at hfits
  have hlength := congrArg List.length hwhole
  rw [List.length_append] at hlength
  have hrec : Receives s data (queued++data) := h.receives (by omega)
  obtain ⟨arrived,hstep⟩ := updateStep_eq hrec fuel
  have hqueue := hrec.queue_eq.trans hwhole
  have hdelivered : (ackUpdate (receive (before s) data) true).ack = .delivered m := by
    cases hack with
    | text ht => exact (text_delivered_iff hrec.inv true (hqueue ▸ ht)).2 ⟨rfl,hdel⟩
    | binary hb => exact (binary_delivered_iff hrec.inv true (hqueue ▸ hb)).2 ⟨rfl,hdel⟩
  rw [hdelivered] at hstep
  refine ⟨_,hstep,?_,rfl⟩
  exact ⟨h.live,h.phase,by rw [h.sem]; rfl,by simp [Exchange.hand,h.handed],rfl,
    by simp [Exchange.hand,h.lost,h.ackMsg],h.flag⟩

def feed (fuel : ℕ) (chunks : List (List UInt8)) : List Event :=
  chunks.map fun data => .update fuel data true

theorem chunks_replied (below : ℕ → UInt8) {s : Exchange} {m queued : List UInt8}
    (hack : CompleteAck m [] m) (hdel : Deliverable [] m) (fuel : ℕ) {chunks : List (List UInt8)}
    (hchunks : ∀ data ∈ chunks, data ≠ []) (hne : chunks ≠ [])
    (h : Waiting s queued) (hwhole : queued++chunks.flatten = m) :
    ∃ t, runAll (step below) s (feed fuel chunks) = some t ∧ Replied t m ∧ t.given = s.given := by
  induction chunks generalizing s queued with
  | nil => exact absurd rfl hne
  | cons data chunks ih =>
    rw [List.flatten_cons,← List.append_assoc] at hwhole
    cases chunks with
    | nil =>
      rw [List.flatten_nil,List.append_nil] at hwhole
      obtain ⟨t,hstep,ht,hgiven⟩ := waiting_whole h hack hdel hwhole fuel
      refine ⟨t,?_,ht,hgiven⟩
      simp only [feed,List.map_cons,List.map_nil,runAll,step_of_live h.live,liveStep,hstep,
        Option.bind_some]
    | cons next chunks =>
      have hnext := List.length_pos_iff.2 (hchunks next (by simp))
      have hlt : (queued++data).length < m.length := by
        have hlength := congrArg List.length hwhole
        simp only [List.length_append,List.flatten_cons] at hlength ⊢
        omega
      obtain ⟨s',hstep,hs',hgiven⟩ := waiting_part h hdel ⟨_,hwhole⟩ hlt fuel
      obtain ⟨t,hrun,ht,hgiven'⟩ := ih (fun d hd => hchunks d (by simp [hd])) (by simp) hs' hwhole
      refine ⟨t,?_,ht,hgiven'.trans hgiven⟩
      rw [feed,List.map_cons,runAll,step_of_live h.live]
      change (updateStep s fuel data true).bind _ = _
      rw [hstep]
      exact hrun

theorem idle_waits (below : ℕ → UInt8) {s : Exchange} (h : Inv s) (hlive : s.trapped = false)
    (hidle : s.phase = .idle) (given : Given) (hclear : given.format = .nmea ∨ queue s.gps = []) (stopDrops : Bool)
    (beyond : List UInt8) :
    ∃ t, runAll (step below) s (.command given::List.replicate 3 (.task stopDrops beyond)) =
      some t ∧ Waiting t [] ∧ t.given = given := by
  have hat := h.phase
  rw [hidle] at hat
  cases hat with
  | idle hsem hack =>
    let sent : Exchange := { s with given := given }
    have hinv : QueueInv sent.cmdSend.gps := cmdSend_queueInv h.queue
    have hqueue : queue sent.cmdSend.gps = [] := by
      by_cases hf : given.format = .nmea
      · exact cmdSend_queue hf
      · have hkeep : sent.cmdSend.gps = s.gps := if_neg hf
        rw [hkeep]
        exact hclear.resolve_left hf
    simp only [runAll,step,hlive,Exchange.cmdSend,liveStep,hidle,Bool.false_eq_true,if_true,
      if_false,Option.bind_some,List.replicate,taskStep]
    exact ⟨_,rfl,⟨by rfl,hinv,rfl,rfl,hqueue,rfl,hack,rfl,rfl⟩,rfl⟩

theorem replied_judged (below : ℕ → UInt8) {s : Exchange} {m : List UInt8} (h : Replied s m)
    (stopDrops : Bool) (beyond : List UInt8) :
    ∃ t, runAll (step below) s (List.replicate 6 (.task stopDrops beyond)) = some t ∧
      t.phase = .free ∧ t.lost = [] ∧ t.given = s.given ∧
      t.answer = gpsSendWaiteNormalAck below s.given.cmdSend s.given.cmdStr s.given.format
        (some (m++beyond)) := by
  simp only [runAll,step,h.live,liveStep,List.replicate,taskStep,h.phase,h.sem,h.flag,h.ackMsg,Option.bind_some,
    Bool.false_eq_true,if_false]
  exact ⟨_,rfl,rfl,h.lost,rfl,rfl⟩

def exchange (given : Given) (fuel : ℕ) (chunks : List (List UInt8)) (stopDrops : Bool)
    (beyond : List UInt8) : List Event :=
  .command given::List.replicate 3 (.task stopDrops beyond)++
    (feed fuel chunks++List.replicate 6 (.task stopDrops beyond))

theorem idle_exchange (below : ℕ → UInt8) {s : Exchange} (h : Inv s)
    (hlive : s.trapped = false) (hidle : s.phase = .idle) (given : Given) (hclear : given.format = .nmea ∨ queue s.gps = []) {m : List UInt8}
    (hack : CompleteAck m [] m) (hdel : Deliverable [] m) (fuel : ℕ) {chunks : List (List UInt8)}
    (hchunks : ∀ data ∈ chunks, data ≠ []) (hflat : chunks.flatten = m) (stopDrops : Bool)
    (beyond : List UInt8) :
    ∃ t, runAll (step below) s (exchange given fuel chunks stopDrops beyond) = some t ∧
      t.phase = .free ∧ t.lost = [] ∧ t.given = given ∧
      t.answer = gpsSendWaiteNormalAck below given.cmdSend given.cmdStr given.format
        (some (m++beyond)) := by
  have hne : chunks ≠ [] := by
    rintro rfl
    have hline := (find_spec hdel.line_end).1.add_length_le (by decide)
    rw [← hflat] at hline
    exact absurd hline (by decide)
  obtain ⟨w,hcommand,hw,hgiven⟩ := idle_waits below h hlive hidle given hclear stopDrops beyond
  obtain ⟨r,hfeed,hr,hgiven'⟩ := chunks_replied below hack hdel fuel hchunks hne hw hflat
  obtain ⟨t,hend,hp,hlost,hgiven'',hanswer⟩ := replied_judged below hr stopDrops beyond
  rw [hgiven',hgiven] at hanswer hgiven''
  exact ⟨t,by rw [exchange,runAll_append hcommand,runAll_append hfeed,hend],hp,hlost,hgiven'',
    hanswer⟩

/-- A reply that arrives in time is judged as it was sent, in whatever chunks it comes, and no
buffer is lost. -/
theorem exchange_answers {below : ℕ → UInt8} {allowed : Event → Prop} {log : LogSetting}
    {first : Given} {s : Exchange} (h : Reachable below allowed log first s)
    (hidle : s.phase = .idle) (given : Given)
    (hclear : given.format = .nmea ∨ queue s.gps = []) {m : List UInt8}
    (hack : CompleteAck m [] m) (hdel : Deliverable [] m) (fuel : ℕ) {chunks : List (List UInt8)}
    (hchunks : ∀ data ∈ chunks, data ≠ []) (hflat : chunks.flatten = m) (stopDrops : Bool)
    (beyond : List UInt8) :
    ∃ t, runAll (step below) s (exchange given fuel chunks stopDrops beyond) = some t ∧
      t.phase = .free ∧ t.lost = [] ∧ t.given = given ∧
      t.answer = gpsSendWaiteNormalAck below given.cmdSend given.cmdStr given.format
        (some (m++beyond)) :=
  idle_exchange below (reachable_inv h) (live_of_idle h hidle) hidle given hclear hack hdel fuel
    hchunks hflat stopDrops beyond

def rebootReply : List UInt8 := lit "$PGKC001,30,3*1E\r\n"

def rebootExchange : List Event :=
  exchange rebootGiven 0 [rebootReply.take 7,rebootReply.drop 7] true [0]

theorem rebootReply_complete : CompleteAck rebootReply [] rebootReply :=
  .text ⟨List.prefix_refl _,find_none (by decide),by decide,by decide⟩

theorem rebootReply_deliverable : Deliverable [] rebootReply := ⟨by decide,by simp,by decide⟩

theorem rebootReply_flat : [rebootReply.take 7,rebootReply.drop 7].flatten = rebootReply := by
  decide

theorem exchange_answers_reboot :
    ∃ t, runAll (step fun _ => 0) (boot ⟨false,.null⟩ rebootGiven) rebootExchange = some t ∧
      t.phase = .free ∧ t.lost = [] ∧ t.given = rebootGiven ∧
      t.answer = gpsSendWaiteNormalAck (fun _ => 0) rebootGiven.cmdSend rebootGiven.cmdStr
        rebootGiven.format (some (rebootReply++[0])) := by
  have hboot : Reachable (fun _ => 0) (fun _ => True) ⟨false,.null⟩ rebootGiven
      (boot ⟨false,.null⟩ rebootGiven) := .refl
  exact exchange_answers hboot rfl rebootGiven (.inl rfl) rebootReply_complete
    rebootReply_deliverable 0 (by decide) rebootReply_flat true [0]

theorem success_fresh_reboot : ∃ s : Exchange, s.phase = .free ∧ ∃ m, s.ackMsg = some m ∧
    gpsSendWaiteNormalAck (fun _ => 0) s.given.cmdSend s.given.cmdStr .nmea
      (some (m++s.behind)) = true ∧ (m <:+: s.arrived ∨ s.early = s.handed.length) := by
  have hsuccess : gpsSendWaiteNormalAck (fun _ => 0) rebootGiven.cmdSend rebootGiven.cmdStr
      rebootGiven.format (some (rebootReply++[0])) = true := by decide
  obtain ⟨t,hrun,hp,-,hgiven,hanswer⟩ := idle_exchange (fun _ => 0)
    (boot_inv ⟨false,.null⟩ rebootGiven) rfl rfl rebootGiven (.inl rfl) rebootReply_complete
    rebootReply_deliverable 0 (by decide) rebootReply_flat true [0]
  exact ⟨t,hp,success_fresh (reaches_of_runAll hrun) (by rw [hgiven]; rfl) hp
    (hanswer.trans hsuccess)⟩

end ExchangeReplies
end A9GTracker
