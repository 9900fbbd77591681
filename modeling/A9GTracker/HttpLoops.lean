import A9GTracker.HttpTransfer

/-! The two loops of `http_send_receive` for every way to cut the request and the response. -/
namespace A9GTracker
namespace HttpLoops

open CString ConfigLoad HttpTransfer

/-! ### Memory -/

section write
variable {mem bs : List UInt8} {offset : ℕ}

theorem length_write (h : offset+bs.length ≤ mem.length) :
    (write mem offset bs).length = mem.length := by
  simp only [write,List.length_append,List.length_take,List.length_drop]
  omega

theorem take_write (h : offset+bs.length ≤ mem.length) :
    (write mem offset bs).take (offset+bs.length) = mem.take offset++bs := by
  refine List.take_left' ?_
  rw [List.length_append,List.length_take]
  omega

theorem drop_write {n : ℕ} (hn : offset+bs.length ≤ n) (h : n ≤ mem.length) :
    (write mem offset bs).drop n = mem.drop n := by
  have hlen : (mem.take offset++bs).length = offset+bs.length := by
    rw [List.length_append,List.length_take]
    omega
  rw [write,List.drop_append,hlen,List.drop_of_length_le (by omega),List.nil_append,List.drop_drop]
  congr 1
  omega

end write

/-! ### Any network -/

variable {δ : Type}

/-- What the SDK says of its calls: `send` takes no more than it is offered, `recv` delivers no
more than it is asked for, and the only descriptor is set when `select` is ready. -/
structure Lawful (api : Sockets δ) : Prop where
  send_le : ∀ network offered, (api.send network offered).1 ≤ offered.length
  recv_le : ∀ network n bs, (api.recv network n).1 = .bytes bs → bs.length ≤ n
  isSet : ∀ network b, (api.select network).1 = .ready b → b = true

section network
variable {api : Sockets δ}

/-- The bytes on the wire are the first ones of the request. -/
structure Sending (sendBuffer : List UInt8) (st : SendState δ) : Prop where
  room : st.totalSent ≤ sendBuffer.length
  wire : st.wire = sendBuffer.take st.totalSent

/-- The first loop ends, and it succeeds when every byte of the request has been taken once
and in order. -/
theorem send_spec (h : Lawful api) (sendBuffer : List UInt8) (network : δ) :
    ∃ r, Loop.run (sendBody api sendBuffer) (sendBuffer.length+1) ⟨0,[],network⟩ = some r ∧
      (r.ok = true ↔ r.wire = sendBuffer) := by
  have hrun := @Loop.run_total _ _ (sendBody api sendBuffer) (Sending sendBuffer)
    (fun r => r.ok = true ↔ r.wire = sendBuffer) (fun st => sendBuffer.length-st.totalSent)
    (fun st st' hst hb => ?_) (fun st r hst hb => ?_) ⟨0,[],network⟩ ⟨by simp,by simp⟩
  · simpa using hrun
  · simp only [sendBody] at hb
    split_ifs at hb with hmore hfail
    have hle := h.send_le st.network (sendBuffer.drop st.totalSent)
    rw [List.length_drop] at hle
    obtain rfl := Loop.Step.next.inj hb
    refine ⟨⟨by simp only; omega,?_⟩,by simp only; omega⟩
    simp only [hst.wire,List.take_add]
  · simp only [sendBody] at hb
    split_ifs at hb with hmore hfail
    · obtain rfl := Loop.Step.done.inj hb
      have hpart : st.wire ≠ sendBuffer := by
        intro hall
        have hlen := congrArg List.length (hst.wire.symm.trans hall)
        rw [List.length_take] at hlen
        omega
      simpa using hpart
    · obtain rfl := Loop.Step.done.inj hb
      have hall : st.totalSent = sendBuffer.length := le_antisymm hst.room (not_lt.1 hmore)
      simp only [hst.wire,hall,List.take_length]

structure SameBehind (size : ℤ) (mem mem' : List UInt8) : Prop where
  length : mem'.length = mem.length
  behind : mem'.drop size.toNat = mem.drop size.toNat

theorem SameBehind.refl (size : ℤ) (mem : List UInt8) : SameBehind size mem mem := ⟨rfl,rfl⟩

theorem SameBehind.write {size : ℤ} {mem mem' bs : List UInt8} {offset : ℕ}
    (h : SameBehind size mem mem') (hsize : size ≤ mem.length)
    (hroom : (offset : ℤ)+bs.length ≤ size) : SameBehind size mem (write mem' offset bs) := by
  have hlen := h.length
  refine ⟨(length_write (by omega)).trans hlen,?_⟩
  rw [drop_write (by omega) (by omega),h.behind]

/-- A further round of the second loop has received some bytes that fit. -/
theorem recvBody_next (h : Lawful api) {size : ℤ} {st st' : RecvState δ}
    (hb : recvBody api size st = .next st') :
    ∃ bs, bs ≠ [] ∧ (st.recvLen.toNat : ℤ)+bs.length ≤ size ∧
      st'.recvLen = st.recvLen+UInt16.ofNat bs.length ∧
      st'.retBuffer = write st.retBuffer st.recvLen.toNat bs := by
  simp only [recvBody] at hb
  split_ifs at hb with hmore
  cases hselect : (api.select st.network).1 with
  | error => simp [hselect] at hb
  | timeout => simp [hselect] at hb
  | ready isSet =>
    obtain rfl := h.isSet _ _ hselect
    cases hrecv : (api.recv (api.select st.network).2 (size-st.recvLen.toNat).toNat).1 with
    | error code => simp only [hselect,hrecv,if_true] at hb; simp at hb
    | bytes bs =>
      simp only [hselect,hrecv,if_true] at hb
      split_ifs at hb with hbs
      obtain rfl := Loop.Step.next.inj hb
      have hle := h.recv_le _ _ _ hrecv
      exact ⟨bs,hbs,by omega,rfl,rfl⟩

theorem recvBody_done {size : ℤ} {st : RecvState δ} {r : RecvResult δ}
    (hb : recvBody api size st = .done r) : r.retBuffer = st.retBuffer := by
  simp only [recvBody] at hb
  split_ifs at hb
  · cases hselect : (api.select st.network).1 with
    | error => simp only [hselect] at hb; exact Loop.Step.done.inj hb ▸ rfl
    | timeout => simp only [hselect] at hb; exact Loop.Step.done.inj hb ▸ rfl
    | ready isSet =>
      simp only [hselect] at hb
      split_ifs at hb
      cases hrecv : (api.recv (api.select st.network).2 (size-st.recvLen.toNat).toNat).1 with
      | error code => simp only [hrecv] at hb; exact Loop.Step.done.inj hb ▸ rfl
      | bytes bs =>
        simp only [hrecv] at hb
        split_ifs at hb
        exact Loop.Step.done.inj hb ▸ rfl
  · exact Loop.Step.done.inj hb ▸ rfl

/-- Whatever the second loop returns, it has not written outside the buffer. -/
theorem recv_sameBehind (h : Lawful api) {size : ℤ} {mem : List UInt8} (hsize : size ≤ mem.length)
    {fuel : ℕ} {network : δ} {r : RecvResult δ}
    (hr : Loop.run (recvBody api size) fuel ⟨0,mem,network⟩ = some r) :
    SameBehind size mem r.retBuffer := by
  refine Loop.run_partial (fun st : RecvState δ => SameBehind size mem st.retBuffer)
    (fun r : RecvResult δ => SameBehind size mem r.retBuffer) (fun st st' hst hb => ?_)
    (fun st r hst hb => ?_) (SameBehind.refl size mem) hr
  · obtain ⟨bs,-,hroom,-,hbuffer⟩ := recvBody_next h hb
    rw [hbuffer]
    exact hst.write hsize hroom
  · rw [recvBody_done hb]
    exact hst

theorem toNat_add_ofNat {n : UInt16} {k : ℕ} (h : n.toNat+k ≤ 65535) :
    (n+UInt16.ofNat k).toNat = n.toNat+k := by
  rw [UInt16.toNat_add,UInt16.toNat_ofNat']
  omega

/-- With a buffer whose size fits 16 bits the second loop ends on every network. -/
theorem recv_total (h : Lawful api) {size : ℤ} (hsize : size ≤ 65535) (mem : List UInt8)
    (network : δ) :
    ∃ fuel r, Loop.run (recvBody api size) fuel ⟨0,mem,network⟩ = some r := by
  have hless : ∀ st st' : RecvState δ, recvBody api size st = .next st' →
      size.toNat-st'.recvLen.toNat < size.toNat-st.recvLen.toNat := by
    intro st st' hb
    obtain ⟨bs,hbs,hroom,hlen,-⟩ := recvBody_next h hb
    have hpos := List.length_pos_iff.2 hbs
    rw [hlen,toNat_add_ofNat (by omega)]
    omega
  obtain ⟨r,hr,-⟩ := @Loop.run_total _ _ (recvBody api size) (fun _ => True) (fun _ => True)
    (fun st => size.toNat-st.recvLen.toNat) (fun st st' _ hb => ⟨trivial,hless st st' hb⟩)
    (fun _ _ _ _ => trivial) ⟨0,mem,network⟩ trivial
  exact ⟨_,r,hr⟩

end network

end HttpLoops
end A9GTracker
