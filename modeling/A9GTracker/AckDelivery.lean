import Mathlib.Data.List.Basic
import Mathlib.Tactic.Common
import A9GTracker.FrameExtraction

/-! What the waiting command is handed. The acknowledgement is searched in the ring, copied
to the frame buffer of 1024 bytes together with all bytes in front of it, and searched there
once more. -/
namespace A9GTracker
namespace AckDelivery

open CString RingBuffer Gps Search FrameExtraction

abbrev cmdHeader : List UInt8 := lit "$PGKC"
abbrev cmdBinaryHeader : List UInt8 := [0xaa,0xf0]

/-- The length field of a binary frame; it counts the whole frame. -/
def declaredLength (frame : List UInt8) : ℕ := (frame.getD 2 0).toNat+256*(frame.getD 3 0).toNat

/-- A text acknowledgement, from its header through its first line end. -/
structure TextAck (q pre ack : List UInt8) : Prop where
  queued : pre++ack <+: q
  pre_clean : ∀ i, ¬ Occurs cmdHeader pre i
  header : cmdHeader <+: ack
  line_end : find crlf ack = some (ack.length-2)

/-- A binary acknowledgement of the length it declares, when no text one is queued. -/
structure BinaryAck (q pre ack : List UInt8) : Prop where
  queued : pre++ack <+: q
  no_text : ∀ i, ¬ Occurs cmdHeader q i
  pre_clean : ∀ i, ¬ Occurs cmdBinaryHeader pre i
  header : cmdBinaryHeader <+: ack
  length_eq : ack.length = declaredLength ack
  line_end : crlf <:+ ack

inductive CompleteAck (q pre ack : List UInt8) : Prop
  | text (h : TextAck q pre ack)
  | binary (h : BinaryAck q pre ack)

/-- The acknowledgement fits into the frame buffer with what precedes it, no NUL stands in
front of a text one, and its first line end is the one it ends with. -/
structure Deliverable (pre ack : List UInt8) : Prop where
  fits : pre.length+ack.length ≤ 1024
  no_nul : cmdHeader <+: ack → 0 ∉ pre
  line_end : find crlf ack = some (ack.length-2)

/-! ### What `GPS_Update` takes out -/

theorem gets_block {st : GpsState} (h : QueueInv st) {i k : ℕ}
    (hc : find crlf ((queue st).drop i) = some k) :
    ∃ b', bufferGets st.gpsNmeaBuffer
        (frameLen st.gpsNmeaBuffer (slot st.gpsNmeaBuffer (i+k) : ℤ)) =
      (b',some ((queue st).take (min (i+k+2) 1024))) := by
  have hend : i+k+2 ≤ (queue st).length :=
    (occurs_drop.mp (find_spec hc).1).add_length_le (by decide)
  have hfit : min (i+k+2) 1024 ≤ (contents st.gpsNmeaBuffer).length :=
    le_trans (Nat.min_le_left _ _) hend
  have hg := (bufferGets_spec h.wellFormed hfit).2.2.1
  rw [frameLen_slot h (show i+k < (queue st).length by omega)]
  exact ⟨_,Prod.ext rfl hg⟩

theorem ackUpdate_text {st : GpsState} (h : QueueInv st) (mallocOk : Bool) {i k : ℕ}
    (hi : find cmdHeader (queue st) = some i) (hc : find crlf ((queue st).drop i) = some k) :
    ∃ b', ackUpdate st mallocOk = deliverAck st b' ((queue st).take (min (i+k+2) 1024))
      (find cmdHeader (cstring ((queue st).take (min (i+k+2) 1024)))) mallocOk := by
  have hlt : i < (queue st).length := by
    have hl : i+5 ≤ (queue st).length := (find_spec hi).1.add_length_le (by decide)
    omega
  have hq := query_start h (show cmdHeader.Nodup by decide) (by decide)
  rw [hi] at hq
  obtain ⟨b',hb⟩ := gets_block h hc
  refine ⟨b',?_⟩
  have hq' : bufferQuery st.gpsNmeaBuffer (lit "$PGKC") 5 (bufferStartPostion st.gpsNmeaBuffer) =
      (slot st.gpsNmeaBuffer i : ℤ) := hq
  simp only [ackUpdate,hq',query_crlf h hlt,hc,ge_iff_le,Int.natCast_nonneg,if_true,hb,strstr]

theorem ackUpdate_binary {st : GpsState} (h : QueueInv st) (mallocOk : Bool) {i k : ℕ}
    (hno : find cmdHeader (queue st) = none)
    (hi : find cmdBinaryHeader (queue st) = some i)
    (hc : find crlf ((queue st).drop i) = some k) :
    ∃ b', ackUpdate st mallocOk = deliverAck st b' ((queue st).take (min (i+k+2) 1024))
      (find cmdBinaryHeader ((queue st).take (min (i+k+2) 1024))) mallocOk := by
  have hlt : i < (queue st).length := by
    have hl : i+2 ≤ (queue st).length := (find_spec hi).1.add_length_le (by decide)
    omega
  have hq := query_start h (show cmdHeader.Nodup by decide) (by decide)
  have hb2 := query_start h (show cmdBinaryHeader.Nodup by decide) (by decide)
  rw [hno] at hq
  rw [hi] at hb2
  obtain ⟨b',hb⟩ := gets_block h hc
  refine ⟨b',?_⟩
  have hq' : bufferQuery st.gpsNmeaBuffer (lit "$PGKC") 5 (bufferStartPostion st.gpsNmeaBuffer) =
      -1 := hq
  have hb' : bufferQuery st.gpsNmeaBuffer [0xaa,0xf0] 2 (bufferStartPostion st.gpsNmeaBuffer) =
      (slot st.gpsNmeaBuffer i : ℤ) := hb2
  have hneg : ¬ (0 : ℤ) ≤ -1 := by decide
  simp only [ackUpdate,hq',hb',hneg,query_crlf h hlt,hc,ge_iff_le,Int.natCast_nonneg,if_true,
    if_false,hb]

theorem deliverAck_eq_delivered {st : GpsState} {b' : Buffer} {tmp : List UInt8}
    {index0 : Option ℕ} {mallocOk : Bool} {bytes : List UInt8} :
    (deliverAck st b' tmp index0 mallocOk).ack = .delivered bytes ↔
      mallocOk = true ∧ ∃ j, index0 = some j ∧ tmp.drop j = bytes := by
  cases index0 with
  | none => simp [deliverAck]
  | some j => cases mallocOk <;> simp [deliverAck]

/-! ### When that is the acknowledgement -/

theorem block_eq {q pre ack : List UInt8} {k : ℕ} (hq : pre++ack <+: q) (hend : k+2 = ack.length)
    (hfit : pre.length+ack.length ≤ 1024) : q.take (min (pre.length+k+2) 1024) = pre++ack := by
  have hn : min (pre.length+k+2) 1024 = (pre++ack).length := by
    rw [List.length_append]
    omega
  rw [hn]
  exact (List.prefix_iff_eq_take.mp hq).symm

/-- A search in the block that finds something hands over as many bytes as the
acknowledgement has only from its start, and only when the block ends with it. -/
theorem handed_eq_iff {q pre ack : List UInt8} {k j : ℕ} (hq : pre++ack <+: q)
    (hj : pre.length ≤ j) (hjk : j < min (pre.length+k+2) 1024) (hk : k+2 ≤ ack.length) :
    (q.take (min (pre.length+k+2) 1024)).drop j = ack ↔
      j = pre.length ∧ k+2 = ack.length ∧ pre.length+ack.length ≤ 1024 := by
  constructor
  · intro he
    have hle := hq.length_le
    have hlen := congrArg List.length he
    simp only [List.length_drop,List.length_take,List.length_append] at hle hlen
    omega
  · rintro ⟨rfl,hend,hfit⟩
    rw [block_eq hq hend hfit,List.drop_left]

theorem line_end_queued {q pre ack : List UInt8} (hq : pre++ack <+: q) {k : ℕ}
    (hk : find crlf ack = some k) :
    find crlf (q.drop pre.length) = some k ∧ k+2 ≤ ack.length := by
  obtain ⟨rest,rfl⟩ := hq
  refine ⟨?_,(find_spec hk).1.add_length_le (by decide)⟩
  rw [List.append_assoc,List.drop_left]
  exact find_append_of_some (by decide) hk rest

theorem header_queued {q pre ack header : List UInt8} (hn : header.Nodup) (hne : header ≠ [])
    (hq : pre++ack <+: q) (hclean : ∀ i, ¬ Occurs header pre i) (ha : header <+: ack) :
    find header q = some pre.length := by
  obtain ⟨rest,rfl⟩ := hq
  rw [List.append_assoc]
  exact find_append_of_begins hn hne hclean (ha.trans (List.prefix_append _ _))

theorem text_delivered_iff {st : GpsState} (h : QueueInv st) (mallocOk : Bool)
    {pre ack : List UInt8} (hack : TextAck (queue st) pre ack) :
    (ackUpdate st mallocOk).ack = .delivered ack ↔ mallocOk = true ∧ Deliverable pre ack := by
  have hi := header_queued (by decide) (by decide) hack.queued hack.pre_clean hack.header
  obtain ⟨hc,hk⟩ := line_end_queued hack.queued hack.line_end
  obtain ⟨b',he⟩ := ackUpdate_text h mallocOk hi hc
  rw [he,deliverAck_eq_delivered]
  refine and_congr_right fun _ => ?_
  constructor
  · rintro ⟨j,hj,hd⟩
    have hpre : cstring ((queue st).take (min (pre.length+(ack.length-2)+2) 1024)) <+: queue st :=
      (List.takeWhile_prefix _).trans (List.take_prefix _ _)
    have hle : pre.length ≤ j := find_le_of_extend hpre hj hi
    have hin : j+5 ≤ _ := (find_spec hj).1.add_length_le (by decide)
    have hcs : (cstring ((queue st).take (min (pre.length+(ack.length-2)+2) 1024))).length ≤
        min (pre.length+(ack.length-2)+2) 1024 :=
      le_trans (List.takeWhile_prefix _).length_le (by simp)
    obtain ⟨rfl,hend,hfit⟩ := (handed_eq_iff hack.queued hle (by omega) hk).mp hd
    refine ⟨hfit,fun _ h0 => ?_,hack.line_end⟩
    have hsub : pre <+: cstring ((queue st).take (min (pre.length+(ack.length-2)+2) 1024)) :=
      List.prefix_of_prefix_length_le ((List.prefix_append pre ack).trans hack.queued) hpre
        (by omega)
    exact zero_notMem_cstring _ (hsub.subset h0)
  · intro hdel
    have hblock := block_eq (k := ack.length-2) hack.queued (by omega) hdel.fits
    rw [hblock]
    obtain ⟨t,rfl⟩ := hack.header
    have hcs : cstring (pre++(cmdHeader++t)) = pre++(cmdHeader++cstring t) := by
      rw [cstring_append (hdel.no_nul (List.prefix_append _ _)),cstring_append (by decide)]
    refine ⟨pre.length,?_,List.drop_left⟩
    rw [hcs]
    exact find_append_of_begins (by decide) (by decide) hack.pre_clean (List.prefix_append _ _)

theorem binary_delivered_iff {st : GpsState} (h : QueueInv st) (mallocOk : Bool)
    {pre ack : List UInt8} (hack : BinaryAck (queue st) pre ack) :
    (ackUpdate st mallocOk).ack = .delivered ack ↔ mallocOk = true ∧ Deliverable pre ack := by
  have hno : find cmdHeader (queue st) = none := by
    cases hf : find cmdHeader (queue st) with
    | none => rfl
    | some i => exact absurd (find_spec hf).1 (hack.no_text i)
  have hi := header_queued (by decide) (by decide) hack.queued hack.pre_clean hack.header
  have hocc : Occurs crlf ack (ack.length-2) := by
    obtain ⟨v,rfl⟩ := hack.line_end
    have hv : (v++crlf).length-2 = v.length := by simp [lit]
    rw [Occurs,hv,List.drop_left]
  cases hf : find crlf ack with
  | none => exact absurd hocc (find_none hf _)
  | some k =>
    obtain ⟨hc,hk⟩ := line_end_queued hack.queued hf
    obtain ⟨b',he⟩ := ackUpdate_binary h mallocOk hno hi hc
    rw [he,deliverAck_eq_delivered]
    refine and_congr_right fun _ => ?_
    constructor
    · rintro ⟨j,hj,hd⟩
      have hle : pre.length ≤ j := find_le_of_extend (List.take_prefix _ _) hj hi
      have hin : j+2 ≤ _ := (find_spec hj).1.add_length_le (by decide)
      have htake : ((queue st).take (min (pre.length+k+2) 1024)).length ≤
          min (pre.length+k+2) 1024 := by simp
      obtain ⟨rfl,hend,hfit⟩ := (handed_eq_iff hack.queued hle (by omega) hk).mp hd
      refine ⟨hfit,fun ht => ?_,by rw [hf,← hend]; rfl⟩
      -- the two headers differ in their first byte
      exact absurd (List.prefix_of_prefix_length_le hack.header ht (by decide)) (by decide)
    · intro hdel
      have hend := hdel.line_end
      rw [hf,Option.some.injEq] at hend
      rw [block_eq hack.queued (by omega) hdel.fits]
      exact ⟨pre.length,find_append_of_begins (by decide) (by decide) hack.pre_clean hack.header,
        List.drop_left⟩

theorem pending_update {st : GpsState} (hp : st.cmdPending = true) (fuel : ℕ) (data : List UInt8)
    (mallocOk : Bool) (msg : AckMsg) :
    (∃ st', gpsUpdate fuel st data mallocOk = some st' ∧ st'.ack = msg) ↔
      (ackUpdate (receive st data) mallocOk).ack = msg := by
  have hp' : (receive st data).cmdPending = true := hp
  simp only [gpsUpdate,hp',if_true,Option.some.injEq,exists_eq_left']

/-- While a command is waiting, a complete acknowledgement in the queue is handed over as it
is if and only if it is deliverable and the memory for it is there. -/
theorem gpsUpdate_delivers_iff {log : LogSetting} {st : GpsState} (hst : GpsReachable log st)
    (hp : st.cmdPending = true) (fuel : ℕ) (data : List UInt8) (mallocOk : Bool)
    {pre ack : List UInt8} (hack : CompleteAck (queueAfter (queue st) data) pre ack) :
    (∃ st', gpsUpdate fuel st data mallocOk = some st' ∧ st'.ack = .delivered ack) ↔
      mallocOk = true ∧ Deliverable pre ack := by
  have hinv := reachable_queueInv hst
  rw [← receive_queue hinv] at hack
  rw [pending_update hp]
  cases hack with
  | text h => exact text_delivered_iff (receive_queueInv hinv data) mallocOk h
  | binary h => exact binary_delivered_iff (receive_queueInv hinv data) mallocOk h

def gpsWaiting : GpsState := { gpsBoot ⟨false,.null⟩ with cmdPending := true }

theorem gpsWaiting_reachable : GpsReachable ⟨false,.null⟩ gpsWaiting := .pending true .boot

theorem gpsWaiting_queue {data : List UInt8} (h : data.length < 2048) :
    queueAfter (queue gpsWaiting) data = data := by
  have hq : queue gpsWaiting = [] := gpsBoot_queue ⟨false,.null⟩
  rw [hq,queueAfter_nil h]

/-- An acknowledgement between other sentences. -/
theorem gpsUpdate_delivers_iff_behind :
    ∃ st', gpsUpdate 0 gpsWaiting (lit "$GPGGA,,*7A\r\n$PGKC001,101,3*2D\r\n$GP") true = some st' ∧
      st'.ack = .delivered (lit "$PGKC001,101,3*2D\r\n") := by
  have hack : CompleteAck (queueAfter (queue gpsWaiting)
      (lit "$GPGGA,,*7A\r\n$PGKC001,101,3*2D\r\n$GP")) (lit "$GPGGA,,*7A\r\n")
      (lit "$PGKC001,101,3*2D\r\n") := by
    rw [gpsWaiting_queue (by decide)]
    exact .text ⟨by decide,find_none (by decide),by decide,by decide⟩
  exact (gpsUpdate_delivers_iff gpsWaiting_reachable rfl 0 _ true hack).mpr
    ⟨rfl,by decide,by decide,by decide⟩

/-- A binary acknowledgement whose payload holds a line end is handed over up to there. -/
theorem binary_ack_cut :
    ¬ ∀ (log : LogSetting) (st : GpsState), GpsReachable log st → st.cmdPending = true →
      ∀ (fuel : ℕ) (data pre ack : List UInt8),
        CompleteAck (queueAfter (queue st) data) pre ack →
        ∃ st', gpsUpdate fuel st data true = some st' ∧ st'.ack = .delivered ack := by
  intro hall
  have hq := gpsWaiting_queue
    (show ([0xaa,0xf0,0x0e,0,0x03,0,0x0d,0x0a,0,0,1,0x0c,0x0d,0x0a] : List UInt8).length < 2048 by
      decide)
  have hack : BinaryAck [0xaa,0xf0,0x0e,0,0x03,0,0x0d,0x0a,0,0,1,0x0c,0x0d,0x0a] []
      [0xaa,0xf0,0x0e,0,0x03,0,0x0d,0x0a,0,0,1,0x0c,0x0d,0x0a] :=
    ⟨List.prefix_refl _,find_none (by decide),find_none (by decide),by decide,by decide,by decide⟩
  have hdel := hall _ _ gpsWaiting_reachable rfl 0 _ [] _ (by rw [hq]; exact .binary hack)
  rw [pending_update rfl] at hdel
  have hinv := reachable_queueInv gpsWaiting_reachable
  rw [← receive_queue hinv] at hq
  have hline := ((binary_delivered_iff (receive_queueInv hinv _) true (by rwa [hq])).mp hdel).2
  exact absurd hline.line_end (by decide)

end AckDelivery
end A9GTracker
