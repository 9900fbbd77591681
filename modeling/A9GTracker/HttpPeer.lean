import A9GTracker.HttpLoops

/-! `http_send_receive` with a peer that takes the request and sends a response, both in any
pieces. -/
namespace A9GTracker
namespace HttpPeer

open CString ConfigLoad HttpTransfer HttpLoops

/-! ### The peer -/

/-- What follows the last byte of a response: the peer closes the connection, it leaves it
open, or the network fails. -/
inductive Ending
  | closes | timeout | selectError | recvError
  deriving DecidableEq

inductive Incoming
  | finite (response : List UInt8) (ending : Ending)
  | endless (bytes : ℕ → UInt8)

/-- The answers to all calls of one exchange. The `i`-th `send` takes `accepts i` bytes where
as many are offered, the `i`-th `recv` delivers `cuts i` bytes but at least one. -/
structure Peer where
  address : Option (List UInt8)
  descriptor : ℤ
  connected : ℤ
  accepts : ℕ → ℤ
  cuts : ℕ → ℕ
  sends : ℕ
  recvs : ℕ
  incoming : Incoming

def Incoming.select : Incoming → SelectResult
  | .finite [] .timeout => .timeout
  | .finite [] .selectError => .error
  | _ => .ready true

def Incoming.recv (k : ℕ) : Incoming → ReadResult × Incoming
  | .finite [] .recvError => (.error (-1),.finite [] .recvError)
  | .finite response ending => (.bytes (response.take k),.finite (response.drop k) ending)
  | .endless bytes => (.bytes ((List.range k).map bytes),.endless fun i => bytes (i+k))

def peerSockets : Sockets Peer where
  getHostByName p _ := (p.address,p)
  socket p := (p.descriptor,p)
  connect p _ _ := (p.connected,p)
  send p offered := (min (p.accepts p.sends) offered.length,{ p with sends := p.sends+1 })
  select p := (p.incoming.select,p)
  recv p n :=
    let r := p.incoming.recv (min n (max 1 (p.cuts p.recvs)))
    (r.1,{ p with recvs := p.recvs+1, incoming := r.2 })

theorem length_recv_le {k : ℕ} {incoming : Incoming} {bs : List UInt8}
    (h : (incoming.recv k).1 = .bytes bs) : bs.length ≤ k := by
  cases incoming with
  | endless bytes =>
    obtain rfl := ReadResult.bytes.inj h
    simp
  | finite response ending =>
    cases response with
    | nil =>
      cases ending with
      | recvError => simp [Incoming.recv] at h
      | _ =>
        obtain rfl := ReadResult.bytes.inj h
        simp
    | cons b response =>
      obtain rfl := ReadResult.bytes.inj h
      exact List.length_take_le _ _

theorem peerSockets_lawful : Lawful peerSockets where
  send_le p offered := min_le_right _ _
  recv_le p n bs h := (length_recv_le h).trans (min_le_left _ _)
  isSet p b h := by
    cases hin : p.incoming with
    | endless bytes => simpa [peerSockets,Incoming.select,hin] using h.symm
    | finite response ending =>
      cases response with
      | cons c response => simpa [peerSockets,Incoming.select,hin] using h.symm
      | nil => cases ending <;> simp_all [peerSockets,Incoming.select]

structure Received (response : List UInt8) (ending : Ending) (size : ℤ) (mem : List UInt8)
    (taken rest : List UInt8) (st : RecvState Peer) : Prop where
  split : response = taken++rest
  incoming : st.network.incoming = .finite rest ending
  recvLen : st.recvLen.toNat = taken.length % 65536
  room : size ≤ 65535 → (taken.length : ℤ) ≤ size
  length : st.retBuffer.length = mem.length
  front : taken.length ≤ 65535 → st.retBuffer.take taken.length = taken

/-- How the second loop ends on a response: with the buffer full, or at its end. -/
structure Ended (response : List UInt8) (ending : Ending) (size : ℤ) (taken : List UInt8)
    (r : RecvResult Peer) : Prop where
  begins : taken <+: response
  room : size ≤ 65535 → (taken.length : ℤ) ≤ size
  front : taken.length ≤ 65535 → r.retBuffer.take taken.length = taken
  ret : r.ret = (taken.length % 65536 : ℕ) ∧
      (size ≤ 65535 ∧ (taken.length : ℤ) = size ∨ taken = response ∧ ending = .closes) ∨
    r.ret = -1 ∧ taken = response ∧ ending ≠ .closes

section peer
variable {response : List UInt8} {ending : Ending} {size : ℤ} {mem taken rest : List UInt8}

theorem recvBody_at_end {st : RecvState Peer} (hmore : (st.recvLen.toNat : ℤ) < size)
    (hin : st.network.incoming = .finite [] ending) :
    ∃ network exit, recvBody peerSockets size st =
      .done ⟨if ending = .closes then st.recvLen.toNat else -1,st.retBuffer,network,exit⟩ := by
  cases ending with
  | closes =>
    exact ⟨_,_,by
      simp only [recvBody,if_pos hmore,peerSockets,Incoming.select,Incoming.recv,hin,if_true,
        List.take_nil]; rfl⟩
  | recvError =>
    exact ⟨_,_,by
      simp only [recvBody,if_pos hmore,peerSockets,Incoming.select,Incoming.recv,hin]; rfl⟩
  | _ => exact ⟨_,_,by simp only [recvBody,if_pos hmore,peerSockets,Incoming.select,hin]; rfl⟩

theorem Received.next {st : RecvState Peer} {bs : List UInt8} (hsize : size ≤ mem.length)
    (h : Received response ending size mem taken (bs++rest) st)
    (hfit : (st.recvLen.toNat : ℤ)+bs.length ≤ size) {network : Peer}
    (hnetwork : network.incoming = .finite rest ending) :
    Received response ending size mem (taken++bs) rest
      ⟨st.recvLen+UInt16.ofNat bs.length,write st.retBuffer st.recvLen.toNat bs,network⟩ := by
  have hlen := h.recvLen
  have hlength := h.length
  refine ⟨by rw [List.append_assoc]; exact h.split,hnetwork,?_,fun hsmall => ?_,?_,fun hshort => ?_⟩
  · rw [UInt16.toNat_add,UInt16.toNat_ofNat',hlen,List.length_append]
    omega
  · have htaken := h.room hsmall
    rw [List.length_append]
    omega
  · exact (length_write (by omega)).trans hlength
  · rw [List.length_append] at hshort
    have hexact : st.recvLen.toNat = taken.length := by omega
    rw [hexact,List.length_append,take_write (by omega),h.front (by omega)]

/-- A round on a finite response: it ends the loop, or receives the next bytes. -/
theorem received_round {st : RecvState Peer} (hpos : 0 < size) (hsize : size ≤ mem.length)
    (h : Received response ending size mem taken rest st) :
    (∃ r, recvBody peerSockets size st = .done r ∧ Ended response ending size taken r) ∨
    ∃ bs rest' st', recvBody peerSockets size st = .next st' ∧ rest = bs++rest' ∧ bs ≠ [] ∧
      Received response ending size mem (taken++bs) rest' st' := by
  have hin := h.incoming
  have hlen := h.recvLen
  have hroom := h.room
  by_cases hmore : (st.recvLen.toNat : ℤ) < size
  · cases rest with
    | nil =>
      have hall : taken = response := by simpa using h.split.symm
      obtain ⟨network,exit,hdone⟩ := recvBody_at_end hmore hin
      refine Or.inl ⟨_,hdone,hall ▸ List.prefix_rfl,hroom,h.front,?_⟩
      split_ifs with hclose
      · exact Or.inl ⟨congrArg Nat.cast hlen,Or.inr ⟨hall,hclose⟩⟩
      · exact Or.inr ⟨rfl,hall,hclose⟩
    | cons b rest =>
      let k := min (size-st.recvLen.toNat).toNat (max 1 (st.network.cuts st.network.recvs))
      have hk : 0 < k := lt_min (by omega) (by omega)
      have hkle : k ≤ (size-st.recvLen.toNat).toNat := min_le_left _ _
      have hne : (b::rest).take k ≠ [] := by
        intro hnil
        rcases List.take_eq_nil_iff.1 hnil with hzero | hnil
        · omega
        · simp at hnil
      have hle : ((b::rest).take k).length ≤ k := List.length_take_le _ _
      have hsplit := (List.take_append_drop k (b::rest)).symm
      let network : Peer :=
        { st.network with
          recvs := st.network.recvs+1
          incoming := .finite ((b::rest).drop k) ending }
      have hnext : recvBody peerSockets size st =
          .next ⟨st.recvLen+UInt16.ofNat ((b::rest).take k).length,
            write st.retBuffer st.recvLen.toNat ((b::rest).take k),network⟩ := by
        simp only [recvBody,if_pos hmore,peerSockets,Incoming.select,Incoming.recv,hin,if_true,
          if_neg hne,k,network]
      rw [hsplit] at h
      have hreceived := h.next hsize (by omega) (rfl : network.incoming = _)
      exact Or.inr ⟨_,_,_,hnext,hsplit,hne,hreceived⟩
  · refine Or.inl ⟨⟨st.recvLen.toNat,st.retBuffer,st.network,.full⟩,
      by simp only [recvBody,if_neg hmore],⟨⟨rest,h.split.symm⟩,hroom,h.front,Or.inl ⟨by rw [hlen],Or.inl ?_⟩⟩⟩
    have hsmall : size ≤ 65535 := by omega
    exact ⟨hsmall,by have := hroom hsmall; omega⟩

def unread (st : RecvState Peer) : ℕ :=
  match st.network.incoming with
  | .finite rest _ => rest.length
  | .endless _ => 0

theorem recv_finite {p : Peer} (hpos : 0 < size) (hsize : size ≤ mem.length)
    (hin : p.incoming = .finite response ending) :
    ∃ r taken, Loop.run (recvBody peerSockets size) (response.length+1) ⟨0,mem,p⟩ = some r ∧
      Ended response ending size taken r := by
  obtain ⟨r,hr,taken,hended⟩ := @Loop.run_total _ _ (recvBody peerSockets size)
    (fun st => ∃ taken rest, Received response ending size mem taken rest st)
    (fun r => ∃ taken, Ended response ending size taken r) unread
    (fun st st' ⟨taken,rest,hst⟩ hb => by
      rcases received_round hpos hsize hst with ⟨r,hdone,-⟩ | ⟨bs,rest',s,hnext,hrest,hbs,hs⟩
      · rw [hdone] at hb
        simp at hb
      · obtain rfl := Loop.Step.next.inj (hnext.symm.trans hb)
        refine ⟨⟨_,_,hs⟩,?_⟩
        have hlen := List.length_pos_iff.2 hbs
        simp only [unread,hst.incoming,hs.incoming,hrest,List.length_append]
        omega)
    (fun st r ⟨taken,rest,hst⟩ hb => by
      rcases received_round hpos hsize hst with ⟨s,hdone,hended⟩ | ⟨bs,rest',s,hnext,-⟩
      · obtain rfl := Loop.Step.done.inj (hdone.symm.trans hb)
        exact ⟨taken,hended⟩
      · rw [hnext] at hb
        simp at hb)
    ⟨0,mem,p⟩ ⟨[],response,rfl,hin,rfl,fun _ => by simp; omega,rfl,fun _ => rfl⟩
  exact ⟨r,taken,by simpa only [unread,hin] using hr,hended⟩

end peer

/-! ### The whole call -/

section call
variable {hostName port sendBuffer mem : List UInt8} {size : ℤ} {p : Peer}

def exchange (sendBuffer mem : List UInt8) (size : ℤ) (fuel : ℕ) (p : Peer) :
    Option (TransferResult Peer) :=
  (Loop.run (sendBody peerSockets sendBuffer) fuel ⟨0,[],p⟩).bind fun sent =>
    if ¬ sent.ok then
      some ⟨-1,[.opened p.descriptor,.closed p.descriptor],sent.wire,mem,sent.network⟩
    else
      (Loop.run (recvBody peerSockets size) fuel ⟨0,mem,sent.network⟩).map fun r =>
        ⟨r.ret,.opened p.descriptor::r.exit.calls p.descriptor,sent.wire,r.retBuffer,r.network⟩

structure Connects (port sendBuffer : List UInt8) (size : ℤ) (p : Peer) : Prop where
  request : sendBuffer ≠ []
  size : 0 < size
  address : p.address ≠ none
  descriptor : 0 ≤ p.descriptor
  port : ¬ invalidPort port
  connected : 0 ≤ p.connected

theorem httpSendReceive_of_connects (h : Connects port sendBuffer size p) (fuel : ℕ) :
    httpSendReceive peerSockets hostName port sendBuffer mem size fuel p =
      exchange sendBuffer mem size fuel p := by
  obtain ⟨ipAddr,haddress⟩ := Option.ne_none_iff_exists'.1 h.address
  simp only [httpSendReceive,peerSockets,haddress,h.request,not_le.2 h.size,
    not_lt.2 h.descriptor,h.port,not_lt.2 h.connected,or_self,if_false]
  rfl

structure Refused (mem : List UInt8) (r : TransferResult Peer) : Prop where
  ret : r.ret = -1
  wire : r.wire = []
  retBuffer : r.retBuffer = mem

theorem httpSendReceive_of_not_connects (h : ¬ Connects port sendBuffer size p) :
    ∃ r, Refused mem r ∧
      ∀ fuel, httpSendReceive peerSockets hostName port sendBuffer mem size fuel p = some r := by
  by_cases hparam : sendBuffer = [] ∨ size ≤ 0
  · exact ⟨_,⟨rfl,rfl,rfl⟩,fun _ => by rw [httpSendReceive,if_pos hparam]⟩
  cases haddress : p.address with
  | none =>
    refine ⟨⟨-1,[],[],mem,p⟩,⟨rfl,rfl,rfl⟩,fun _ => ?_⟩
    simp only [httpSendReceive,if_neg hparam,peerSockets,haddress]
  | some ipAddr =>
    simp only [httpSendReceive,if_neg hparam,peerSockets,haddress]
    by_cases hsocket : p.descriptor < 0
    · exact ⟨_,⟨rfl,rfl,rfl⟩,fun _ => by rw [if_pos hsocket]⟩
    by_cases hport : invalidPort port
    · exact ⟨_,⟨rfl,rfl,rfl⟩,fun _ => by rw [if_neg hsocket,if_pos hport]⟩
    by_cases hconnect : p.connected < 0
    · exact ⟨_,⟨rfl,rfl,rfl⟩,fun _ => by rw [if_neg hsocket,if_neg hport,if_pos hconnect]⟩
    rw [not_or] at hparam
    exact absurd ⟨hparam.1,by omega,by simp [haddress],by omega,hport,by omega⟩ h

theorem incoming_of_send {fuel : ℕ} {r : SendResult Peer}
    (h : Loop.run (sendBody peerSockets sendBuffer) fuel ⟨0,[],p⟩ = some r) :
    r.network.incoming = p.incoming := by
  refine Loop.run_partial (fun st : SendState Peer => st.network.incoming = p.incoming)
    (fun r : SendResult Peer => r.network.incoming = p.incoming) (fun st st' hst hb => ?_)
    (fun st r hst hb => ?_) rfl h
  all_goals
    simp only [sendBody] at hb
    split_ifs at hb
  · exact Loop.Step.next.inj hb ▸ hst
  · exact Loop.Step.done.inj hb ▸ hst
  · exact Loop.Step.done.inj hb ▸ hst

/-- A peer that takes bytes with every `send` takes the whole request. -/
theorem send_ok (haccepts : ∀ i, 0 < p.accepts i) {fuel : ℕ} {r : SendResult Peer}
    (h : Loop.run (sendBody peerSockets sendBuffer) fuel ⟨0,[],p⟩ = some r) : r.ok = true := by
  refine Loop.run_partial (fun st : SendState Peer => st.network.accepts = p.accepts)
    (fun r : SendResult Peer => r.ok = true) (fun st st' hst hb => ?_) (fun st r hst hb => ?_)
    rfl h
  · simp only [sendBody] at hb
    split_ifs at hb
    exact Loop.Step.next.inj hb ▸ hst
  · simp only [sendBody] at hb
    split_ifs at hb with hmore hfail
    · have hpos := haccepts st.network.sends
      change min (st.network.accepts st.network.sends) ((sendBuffer.drop st.totalSent).length : ℤ) ≤ 0
        at hfail
      rw [hst,List.length_drop] at hfail
      omega
    · exact Loop.Step.done.inj hb ▸ rfl

/-- With enough fuel for the request the exchange fails in the first loop, or it is what the
second loop makes of it. -/
theorem exchange_cases (sendBuffer mem : List UInt8) (size : ℤ) (p : Peer) :
    (∃ r, r.ret = -1 ∧ r.wire ≠ sendBuffer ∧ r.retBuffer = mem ∧
      ∀ fuel > sendBuffer.length, exchange sendBuffer mem size fuel p = some r) ∨
    ∃ q : Peer, q.incoming = p.incoming ∧ ∀ fuel > sendBuffer.length,
      exchange sendBuffer mem size fuel p =
        (Loop.run (recvBody peerSockets size) fuel ⟨0,mem,q⟩).map fun r =>
          ⟨r.ret,[.opened p.descriptor,.closed p.descriptor],sendBuffer,r.retBuffer,r.network⟩ := by
  obtain ⟨sent,hsent,hok⟩ := send_spec peerSockets_lawful sendBuffer p
  have hmore : ∀ fuel > sendBuffer.length,
      Loop.run (sendBody peerSockets sendBuffer) fuel ⟨0,[],p⟩ = some sent :=
    fun fuel hfuel => Loop.run_mono hfuel hsent
  by_cases hwire : sent.wire = sendBuffer
  · refine Or.inr ⟨sent.network,incoming_of_send hsent,fun fuel hfuel => ?_⟩
    rw [exchange,hmore fuel hfuel,Option.bind_some,if_neg (by simp [hok.2 hwire]),hwire]
    simp only [RecvExit.calls_eq]
  · refine Or.inl ⟨⟨-1,[.opened p.descriptor,.closed p.descriptor],sent.wire,mem,sent.network⟩,
      rfl,hwire,rfl,fun fuel hfuel => ?_⟩
    rw [exchange,hmore fuel hfuel,Option.bind_some,if_pos (fun h => hwire (hok.1 h))]

/-! ### Nothing is lost -/

/-- What a call that returns has done: a successful one has sent the request, one that has sent
it returns what the peer sent before it closed, and none has written outside `retBuffer`. -/
structure Delivers (incoming : Incoming) (size : ℤ) (sendBuffer mem : List UInt8)
    (r : TransferResult Peer) : Prop where
  sent : 0 ≤ r.ret → r.wire = sendBuffer
  received : sendBuffer ≠ [] → r.wire = sendBuffer →
    ∀ response, incoming = .finite response .closes →
      r.ret = min (response.length : ℤ) size ∧
      r.retBuffer.take (min response.length size.toNat) =
        response.take (min response.length size.toNat)
  inside : SameBehind size mem r.retBuffer

/-- Every call with a buffer of `size` bytes and this response returns and loses nothing. -/
def Lossless (size : ℤ) (incoming : Incoming) : Prop :=
  ∀ (hostName port sendBuffer mem : List UInt8) (p : Peer), size ≤ mem.length →
    p.incoming = incoming → ∃ fuel r,
      httpSendReceive peerSockets hostName port sendBuffer mem size fuel p = some r ∧
      Delivers incoming size sendBuffer mem r

/-- The peer sends without end, or 2^16 bytes and more before it closes. -/
def Incoming.Overlong : Incoming → Prop
  | .finite response ending => ending = .closes ∧ 65535 < response.length
  | .endless _ => True

theorem Refused.delivers {r : TransferResult Peer} (h : Refused mem r) (incoming : Incoming) :
    Delivers incoming size sendBuffer mem r where
  sent hret := by rw [h.ret] at hret; omega
  received hne hwire := absurd (hwire.symm.trans h.wire) hne
  inside := by rw [h.retBuffer]; exact SameBehind.refl size mem

theorem Ended.received {response taken : List UInt8} {r : RecvResult Peer}
    (h : Ended response .closes size taken r) (hpos : 0 < size)
    (hfit : size ≤ 65535 ∨ response.length ≤ 65535) :
    r.ret = min (response.length : ℤ) size ∧
      r.retBuffer.take (min response.length size.toNat) =
        response.take (min response.length size.toNat) := by
  have hle := h.begins.length_le
  have hroom := h.room
  have hshort : taken.length ≤ 65535 := by omega
  have htaken : taken = response.take taken.length := (List.prefix_iff_eq_take.1 h.begins)
  have hfront := h.front hshort
  rcases h.ret with ⟨hret,⟨hsmall,hfull⟩ | ⟨hall,-⟩⟩ | ⟨-,-,hno⟩
  · have hmin : min response.length size.toNat = taken.length := by omega
    rw [hmin,hfront]
    exact ⟨by omega,htaken⟩
  · subst hall
    have hmin : min taken.length size.toNat = taken.length := by omega
    rw [hmin,hfront,List.take_length]
    exact ⟨by omega,rfl⟩
  · exact absurd rfl hno

theorem lossless_of_fits {incoming : Incoming} (h : size ≤ 65535 ∨ ¬ incoming.Overlong) :
    Lossless size incoming := by
  intro hostName port sendBuffer mem p hsize hin
  by_cases hconnects : Connects port sendBuffer size p
  · rcases exchange_cases sendBuffer mem size p with
      ⟨r,hret,hwire,hbuffer,hr⟩ | ⟨q,hq,hr⟩
    · refine ⟨_,r,(httpSendReceive_of_connects hconnects _).trans (hr _ (Nat.lt_succ_self _)),
        fun hpos => ?_,fun _ hsent => absurd hsent hwire,?_⟩
      · rw [hret] at hpos
        omega
      · rw [hbuffer]
        exact SameBehind.refl size mem
    · have hloop : ∃ fuel received, Loop.run (recvBody peerSockets size) fuel ⟨0,mem,q⟩ =
          some received ∧ ∀ response, incoming = .finite response .closes →
            received.ret = min (response.length : ℤ) size ∧
            received.retBuffer.take (min response.length size.toNat) =
              response.take (min response.length size.toNat) := by
        cases incoming with
        | endless bytes =>
          have hsmall : size ≤ 65535 := h.resolve_right fun hno => hno trivial
          obtain ⟨fuel,received,hrun⟩ := recv_total peerSockets_lawful hsmall mem q
          exact ⟨fuel,received,hrun,by simp⟩
        | finite response ending =>
          obtain ⟨received,taken,hrun,hended⟩ :=
            recv_finite hconnects.size hsize (hq.trans hin)
          refine ⟨_,received,hrun,fun response' heq => ?_⟩
          obtain ⟨rfl,rfl⟩ := Incoming.finite.inj heq
          refine hended.received hconnects.size (h.imp_right fun hno => ?_)
          exact not_lt.1 fun hlong => hno ⟨rfl,hlong⟩
      obtain ⟨fuel,received,hrun,hreceived⟩ := hloop
      let enough := max fuel (sendBuffer.length+1)
      have hrun' := Loop.run_mono (le_max_left fuel (sendBuffer.length+1)) hrun
      have hall := hr enough (Nat.lt_of_succ_le (le_max_right fuel (sendBuffer.length+1)))
      rw [hrun',Option.map_some] at hall
      exact ⟨_,_,(httpSendReceive_of_connects hconnects _).trans hall,fun _ => rfl,
        fun _ _ => hreceived,recv_sameBehind peerSockets_lawful hsize hrun'⟩
  · obtain ⟨r,hrefused,hr⟩ := httpSendReceive_of_not_connects hconnects
    exact ⟨0,r,hr 0,hrefused.delivers incoming⟩

end call

/-! ### Too long a response -/

/-- A peer that takes a byte with every `send` and sends one with every `recv`. -/
def bytewise (incoming : Incoming) : Peer where
  address := some []
  descriptor := 0
  connected := 0
  accepts _ := 1
  cuts _ := 1
  sends := 0
  recvs := 0
  incoming := incoming

section overlong
variable {mem : List UInt8} {size : ℤ} {incoming : Incoming}

theorem connects_bytewise (hsize : 0 < size) :
    Connects (lit "80") [0] size (bytewise incoming) :=
  ⟨by simp,hsize,by simp [bytewise],by simp [bytewise],by decide,by simp [bytewise]⟩

theorem exchange_mono {sendBuffer : List UInt8} {p : Peer} {fuel fuel' : ℕ}
    {r : TransferResult Peer} (hle : fuel ≤ fuel')
    (h : exchange sendBuffer mem size fuel p = some r) :
    exchange sendBuffer mem size fuel' p = some r := by
  obtain ⟨sent,hsent,hr⟩ := Option.bind_eq_some_iff.1 h
  rw [exchange,Loop.run_mono hle hsent,Option.bind_some]
  split_ifs at hr ⊢ with hok
  · obtain ⟨received,hrun,rfl⟩ := Option.map_eq_some_iff.1 hr
    rw [Loop.run_mono hle hrun,Option.map_some]
  · exact hr

theorem exchange_bytewise {fuel : ℕ} {r : TransferResult Peer}
    (h : exchange [0] mem size fuel (bytewise incoming) = some r) :
    r.wire = [0] ∧ ∃ (q : Peer) (fuel : ℕ) (received : RecvResult Peer), q.incoming = incoming ∧
      Loop.run (recvBody peerSockets size) fuel ⟨0,mem,q⟩ = some received ∧
      r.ret = received.ret := by
  have hsend : Loop.run (sendBody peerSockets [0]) 2 ⟨0,[],bytewise incoming⟩ =
      some ⟨true,[0],{ bytewise incoming with sends := 1 }⟩ := rfl
  have hr := exchange_mono (le_max_left fuel 2) h
  rw [exchange,Loop.run_mono (le_max_right fuel 2) hsend,Option.bind_some,if_neg (by simp)] at hr
  obtain ⟨received,hrun,rfl⟩ := Option.map_eq_some_iff.1 hr
  exact ⟨rfl,_,_,received,rfl,hrun,rfl⟩

theorem recv_endless_diverges (hsize : 65535 < size) {p : Peer} {bytes : ℕ → UInt8}
    (hin : p.incoming = .endless bytes) :
    ¬ Loop.Halts (recvBody peerSockets size) ⟨0,mem,p⟩ := by
  refine Loop.run_diverges (fun st : RecvState Peer => ∃ bytes, st.network.incoming = .endless bytes)
    (fun st ⟨bytes,hst⟩ => ?_) ⟨0,mem,p⟩ ⟨bytes,hin⟩
  have hmore : (st.recvLen.toNat : ℤ) < size := by
    have hlt := st.recvLen.toNat_lt
    omega
  let k := min (size-st.recvLen.toNat).toNat (max 1 (st.network.cuts st.network.recvs))
  have hk : 0 < k := lt_min (by omega) (by omega)
  have hne : (List.range k).map bytes ≠ [] := by
    simp only [ne_eq,List.map_eq_nil_iff,List.range_eq_nil]
    omega
  refine ⟨⟨st.recvLen+UInt16.ofNat ((List.range k).map bytes).length,
    write st.retBuffer st.recvLen.toNat ((List.range k).map bytes),
    { st.network with
      recvs := st.network.recvs+1
      incoming := .endless fun i => bytes (i+k) }⟩,?_,_,rfl⟩
  simp only [recvBody,if_pos hmore,peerSockets,Incoming.select,Incoming.recv,hst,if_true,
    if_neg hne,k]

theorem not_lossless_of_overlong (hsize : 65535 < size) (h : incoming.Overlong) :
    ¬ Lossless size incoming := by
  intro hlossless
  let mem := List.replicate size.toNat (0 : UInt8)
  have hmem : size ≤ mem.length := by
    rw [List.length_replicate]
    omega
  obtain ⟨fuel,r,hr,hdelivers⟩ := hlossless [] (lit "80") [0] mem (bytewise incoming) hmem rfl
  rw [httpSendReceive_of_connects (connects_bytewise (by omega))] at hr
  obtain ⟨hwire,q,fuel,received,hq,hrun,hret⟩ := exchange_bytewise hr
  cases incoming with
  | endless bytes => exact recv_endless_diverges hsize hq ⟨fuel,received,hrun⟩
  | finite response ending =>
    obtain ⟨rfl,hlong⟩ := h
    obtain ⟨received',taken,hrun',hended⟩ := recv_finite (by omega) hmem hq
    obtain rfl := Loop.run_unique hrun hrun'
    have hmin := (hdelivers.received (by simp) hwire response rfl).1
    rcases hended.ret with ⟨hcount,-⟩ | ⟨-,-,hno⟩
    · omega
    · exact hno rfl

end overlong

/-- The transfer loses nothing exactly when the size of the buffer fits the 16 bits of the
length, or the peer neither sends without end nor closes after 2^16 bytes or more. -/
theorem lossless_iff (size : ℤ) (incoming : Incoming) :
    Lossless size incoming ↔ size ≤ 65535 ∨ ¬ incoming.Overlong := by
  constructor
  · intro h
    by_contra hno
    rw [not_or,not_not,not_le] at hno
    exact not_lossless_of_overlong hno.1 hno.2 h
  · exact lossless_of_fits

/-- After 65536 bytes the length is zero again. -/
theorem response_of_65536_bytes_lost : ¬ ∀ (size : ℤ) (incoming : Incoming), 0 < size →
    Lossless size incoming := by
  intro h
  have hoverlong : (Incoming.finite (List.replicate 65536 0) .closes).Overlong :=
    ⟨rfl,by rw [List.length_replicate]; decide⟩
  exact not_lossless_of_overlong (by decide : (65535 : ℤ) < 70000) hoverlong
    (h _ _ (by decide))

end HttpPeer
end A9GTracker
