import Mathlib.Data.List.Basic
import Mathlib.Tactic.Common
import A9GTracker.Gps

/-! When the frame-extraction loop of `GPS_Update` ends. Every round either takes a block
of at most 1024 bytes out of the queue, leaves the loop, or changes nothing at all. -/
namespace A9GTracker
namespace FrameExtraction

open CString RingBuffer Gps Search

abbrev vtg : List UInt8 := lit "VTG"
abbrev crlf : List UInt8 := lit "\r\n"

/-- The invariant of the receive queue. -/
structure QueueInv (st : GpsState) : Prop where
  wellFormed : WellFormed st.gpsNmeaBuffer
  maxSize_eq : st.gpsNmeaBuffer.maxSize = 2048

def queue (st : GpsState) : List UInt8 := contents st.gpsNmeaBuffer

/-- The queue behind `Buffer_Puts`, which reads the length of the chunk modulo 65536. -/
def queueAfter (queued data : List UInt8) : List UInt8 :=
  if queued.length+data.length % 65536 < 2048 then queued++data.take (data.length % 65536)
  else queued

/-- The states of the driver under calls of `GPS_Update` that return, with the waiting
command coming and going between them. -/
inductive GpsReachable (log : LogSetting) : GpsState → Prop
  | boot : GpsReachable log (gpsBoot log)
  | update {st st' : GpsState} {fuel : ℕ} {data : List UInt8} {mallocOk : Bool} :
      GpsReachable log st → gpsUpdate fuel st data mallocOk = some st' → GpsReachable log st'
  | pending {st : GpsState} (p : Bool) :
      GpsReachable log st → GpsReachable log { st with cmdPending := p }

theorem queue_length_lt {st : GpsState} (h : QueueInv st) : (queue st).length < 2048 := by
  have hc := count_lt h.wellFormed
  rw [h.maxSize_eq] at hc
  simpa [queue] using hc

theorem receive_queueInv {st : GpsState} (h : QueueInv st) (data : List UInt8) :
    QueueInv (receive st data) := by
  obtain ⟨hw, hm, _⟩ := bufferPuts_spec h.wellFormed data (Nat.mod_le data.length 65536)
  exact ⟨hw, hm.trans h.maxSize_eq⟩

theorem receive_queue {st : GpsState} (h : QueueInv st) (data : List UInt8) :
    queue (receive st data) = queueAfter (queue st) data := by
  obtain ⟨_, _, hc⟩ := bufferPuts_spec h.wellFormed data (Nat.mod_le data.length 65536)
  rw [h.maxSize_eq] at hc
  exact hc

theorem queueAfter_nil {data : List UInt8} (h : data.length < 2048) : queueAfter [] data = data := by
  have hmod : data.length % 65536 = data.length := Nat.mod_eq_of_lt (by omega)
  rw [queueAfter,hmod,List.take_length]
  simp [h]

/-! ### One round of the loop -/

theorem query_start {st : GpsState} (h : QueueInv st) {pattern : List UInt8}
    (hp : pattern.Nodup) (hne : pattern ≠ []) :
    bufferQuery st.gpsNmeaBuffer pattern pattern.length (bufferStartPostion st.gpsNmeaBuffer) =
      match find pattern (queue st) with
      | some i => (slot st.gpsNmeaBuffer i : ℤ)
      | none => -1 := by
  have hq := bufferQuery_spec h.wellFormed hp hne (i := 0) (Nat.zero_le _)
    (by rw [h.maxSize_eq]; omega)
  simp only [List.drop_zero, Nat.zero_add] at hq
  exact hq

theorem query_from {st : GpsState} (h : QueueInv st) {pattern : List UInt8}
    (hp : pattern.Nodup) (hne : pattern ≠ []) {i : ℕ} (hi : i < (queue st).length) :
    bufferQuery st.gpsNmeaBuffer pattern pattern.length
        (u16 (slot st.gpsNmeaBuffer i : ℤ).toNat) =
      match find pattern ((queue st).drop i) with
      | some j => (slot st.gpsNmeaBuffer (i+j) : ℤ)
      | none => -1 := by
  have hl := queue_length_lt h
  have hs : u16 (slot st.gpsNmeaBuffer i : ℤ).toNat = slot st.gpsNmeaBuffer i :=
    u16_mod h.wellFormed.maxSize_pos h.wellFormed.maxSize_le
  have hc : i ≤ count st.gpsNmeaBuffer := by simpa [queue] using hi.le
  rw [hs]
  exact bufferQuery_spec h.wellFormed hp hne hc (by rw [h.maxSize_eq]; omega)

theorem query_vtg {st : GpsState} (h : QueueInv st) :
    bufferQuery st.gpsNmeaBuffer (lit "VTG") 3 (bufferStartPostion st.gpsNmeaBuffer) =
      match find vtg (queue st) with
      | some i => (slot st.gpsNmeaBuffer i : ℤ)
      | none => -1 :=
  query_start h (by decide) (by decide)

theorem query_crlf {st : GpsState} (h : QueueInv st) {i : ℕ} (hi : i < (queue st).length) :
    bufferQuery st.gpsNmeaBuffer (lit "\r\n") 2 (u16 (slot st.gpsNmeaBuffer i : ℤ).toNat) =
      match find crlf ((queue st).drop i) with
      | some j => (slot st.gpsNmeaBuffer (i+j) : ℤ)
      | none => -1 :=
  query_from h (by decide) (by decide) hi

theorem frameLen_slot {st : GpsState} (h : QueueInv st) {i : ℕ} (hi : i < (queue st).length) :
    frameLen st.gpsNmeaBuffer (slot st.gpsNmeaBuffer i : ℤ) = min (i+2) 1024 := by
  have hc : i < count st.gpsNmeaBuffer := by simpa [queue] using hi
  simp only [frameLen, Int.toNat_natCast, bufferSize2_slot h.wellFormed hc]
  split_ifs <;> omega

structure BlockTaken (st st' : GpsState) (n : ℕ) : Prop where
  inv : QueueInv st'
  queue_eq : queue st' = (queue st).drop n
  parsed_eq : st'.parsed = st.parsed++[(queue st).take n]
  cmdPending_eq : st'.cmdPending = st.cmdPending

theorem vtg_lt {xs : List UInt8} {i : ℕ} (h : Occurs vtg xs i) : i < xs.length := by
  have hl : i+3 ≤ xs.length := h.add_length_le (by decide)
  omega

theorem frameStep_exit {st : GpsState} (h : QueueInv st) (hv : find vtg (queue st) = none) :
    frameStep st = .done st := by
  simp only [frameStep, query_vtg h, hv]
  rfl

/-- A `VTG` whose line is not complete: the round changes nothing. -/
theorem frameStep_stuck {st : GpsState} (h : QueueInv st) {i : ℕ}
    (hv : find vtg (queue st) = some i) (hc : find crlf ((queue st).drop i) = none) :
    frameStep st = .next st := by
  have hi := vtg_lt (find_spec hv).1
  simp only [frameStep, query_vtg h, hv, query_crlf h hi, hc, ge_iff_le, Int.natCast_nonneg,
    if_true]
  rfl

/-- A complete line: the block through its end, or its first 1024 bytes, is taken out. -/
theorem frameStep_take {st : GpsState} (h : QueueInv st) {i j : ℕ}
    (hv : find vtg (queue st) = some i) (hc : find crlf ((queue st).drop i) = some j) :
    ∃ st', frameStep st = .next st' ∧ BlockTaken st st' (min (i+j+2) 1024) := by
  have hi := vtg_lt (find_spec hv).1
  have hend : i+j+2 ≤ (queue st).length :=
    (occurs_drop.mp (find_spec hc).1).add_length_le (by decide)
  obtain ⟨hw, hm, hg, hd⟩ := bufferGets_spec h.wellFormed
    (show min (i+j+2) 1024 ≤ (contents st.gpsNmeaBuffer).length from le_trans (Nat.min_le_left _ _) hend)
  have hgets : bufferGets st.gpsNmeaBuffer (min (i+j+2) 1024) =
      ((bufferGets st.gpsNmeaBuffer (min (i+j+2) 1024)).1,
        some ((queue st).take (min (i+j+2) 1024))) := Prod.ext rfl hg
  refine ⟨parseBlock st (bufferGets st.gpsNmeaBuffer (min (i+j+2) 1024)).1
    ((queue st).take (min (i+j+2) 1024)), ?_, ?_⟩
  · simp only [frameStep, query_vtg h, hv, query_crlf h hi, hc, ge_iff_le, Int.natCast_nonneg,
      if_true, frameLen_slot h (show i+j < (queue st).length by omega)]
    rw [hgets]
  · exact ⟨⟨hw, hm.trans h.maxSize_eq⟩, hd, rfl, rfl⟩

theorem frameStep_cases {st : GpsState} (h : QueueInv st) :
    (find vtg (queue st) = none ∧ frameStep st = .done st) ∨
    (∃ i, find vtg (queue st) = some i ∧ find crlf ((queue st).drop i) = none ∧
      frameStep st = .next st) ∨
    (∃ i j st', find vtg (queue st) = some i ∧ find crlf ((queue st).drop i) = some j ∧
      frameStep st = .next st' ∧ BlockTaken st st' (min (i+j+2) 1024)) := by
  cases hv : find vtg (queue st) with
  | none => exact .inl ⟨rfl, frameStep_exit h hv⟩
  | some i =>
    cases hc : find crlf ((queue st).drop i) with
    | none => exact .inr (.inl ⟨i, rfl, hc, frameStep_stuck h hv hc⟩)
    | some j =>
      obtain ⟨st', hs, ht⟩ := frameStep_take h hv hc
      exact .inr (.inr ⟨i, j, st', rfl, hc, hs, ht⟩)

theorem frameStep_next_cases {st st' : GpsState} (h : QueueInv st)
    (hb : frameStep st = .next st') :
    (st' = st ∧ ∃ i, find vtg (queue st) = some i ∧ find crlf ((queue st).drop i) = none) ∨
    (∃ i j, find vtg (queue st) = some i ∧ find crlf ((queue st).drop i) = some j ∧
      BlockTaken st st' (min (i+j+2) 1024)) := by
  rcases frameStep_cases h with ⟨_,he⟩ | ⟨i,hv,hc,he⟩ | ⟨i,j,t,hv,hc,he,ht⟩ <;> rw [he] at hb <;>
    cases hb
  · exact .inl ⟨rfl,i,hv,hc⟩
  · exact .inr ⟨i,j,hv,hc,ht⟩

theorem frameStep_done {st st' : GpsState} (h : QueueInv st) (hb : frameStep st = .done st') :
    st' = st ∧ find vtg (queue st) = none := by
  rcases frameStep_cases h with ⟨hv,he⟩ | ⟨_,_,_,he⟩ | ⟨_,_,_,_,_,he,_⟩ <;> rw [he] at hb <;>
    cases hb
  exact ⟨rfl,hv⟩

/-! ### Which queues let the loop end -/

def EveryVtgClosed (xs : List UInt8) : Prop :=
  ∀ i, Occurs vtg xs i → ∃ j ≥ i, Occurs crlf xs j

theorem everyVtgClosed_drop {xs : List UInt8} (h : EveryVtgClosed xs) (n : ℕ) :
    EveryVtgClosed (xs.drop n) := by
  intro i hi
  obtain ⟨j, hj, hc⟩ := h (n+i) (occurs_drop.mp hi)
  refine ⟨j-n, by omega, occurs_drop.mpr ?_⟩
  rwa [show n+(j-n) = j by omega]

theorem crlf_before_vtg {xs : List UInt8} {p q : ℕ} (hp : Occurs crlf xs p)
    (hq : Occurs vtg xs q) (hlt : p < q) : p+2 ≤ q := by
  by_contra hn
  obtain rfl : q = p+1 := by omega
  have hv : xs[p+1+0]? = some 86 := hq.getElem? (j := 0) (by decide)
  have hc : xs[p+1]? = some 10 := hp.getElem? (j := 1) (by decide)
  rw [Nat.add_zero, hc] at hv
  exact absurd hv (by decide)

theorem open_vtg_kept {st st' : GpsState} {i j q : ℕ} (hc : find crlf ((queue st).drop i) = some j)
    (hq : Occurs vtg (queue st) q) (hopen : ∀ k ≥ q, ¬ Occurs crlf (queue st) k)
    (ht : BlockTaken st st' (min (i+j+2) 1024)) : ¬ EveryVtgClosed (queue st') := by
  have hcr : Occurs crlf (queue st) (i+j) := occurs_drop.mp (find_spec hc).1
  have hlt : i+j < q := by
    by_contra hn
    exact hopen _ (by omega) hcr
  have hle := crlf_before_vtg hcr hq hlt
  have hn : min (i+j+2) 1024 ≤ q := by omega
  intro hclosed
  rw [ht.queue_eq] at hclosed
  obtain ⟨k, hk, ho⟩ := hclosed (q-min (i+j+2) 1024) (occurs_drop.mpr (by
    rwa [show min (i+j+2) 1024+(q-min (i+j+2) 1024) = q by omega]))
  exact hopen _ (by omega) (occurs_drop.mp ho)

theorem loop_ends {st : GpsState} (h : QueueInv st) (hclosed : EveryVtgClosed (queue st)) :
    Loop.Halts frameStep st := by
  have hstep : ∀ s s', QueueInv s ∧ EveryVtgClosed (queue s) → frameStep s = .next s' →
      (QueueInv s' ∧ EveryVtgClosed (queue s')) ∧ (queue s').length < (queue s).length := by
    rintro s s' ⟨hs, hcl⟩ hb
    rcases frameStep_next_cases hs hb with ⟨_, i, hv, hc⟩ | ⟨i, j, hv, hc, ht⟩
    · obtain ⟨j, hj, hcr⟩ := hcl i (find_spec hv).1
      exact absurd (occurs_drop.mpr (by rwa [show i+(j-i) = j by omega])) (find_none hc (j-i))
    · have hpos := vtg_lt (find_spec hv).1
      rw [ht.queue_eq, List.length_drop]
      exact ⟨⟨ht.inv, everyVtgClosed_drop hcl _⟩, by omega⟩
  obtain ⟨st', hr, -⟩ := Loop.run_total _ (fun _ => True) (fun s => (queue s).length) hstep
    (fun _ _ _ _ => trivial) st ⟨h, hclosed⟩
  exact ⟨_, st', hr⟩

theorem loop_hangs {st : GpsState} (h : QueueInv st) (hopen : ¬ EveryVtgClosed (queue st)) :
    ¬ Loop.Halts frameStep st := by
  refine Loop.run_diverges (fun s => QueueInv s ∧ ¬ EveryVtgClosed (queue s)) ?_ st ⟨h, hopen⟩
  rintro s ⟨hs, hno⟩
  obtain ⟨q, hq, hcr⟩ : ∃ q, Occurs vtg (queue s) q ∧ ∀ k ≥ q, ¬ Occurs crlf (queue s) k := by
    simpa [EveryVtgClosed] using hno
  rcases frameStep_cases hs with ⟨hv, _⟩ | ⟨i, _, _, he⟩ | ⟨i, j, t, _, hc, he, ht⟩
  · exact absurd hq (find_none hv q)
  · exact ⟨s, he, hs, hno⟩
  · exact ⟨t, he, ht.inv, open_vtg_kept hc hq hcr ht⟩

theorem loop_ends_iff {st : GpsState} (h : QueueInv st) :
    Loop.Halts frameStep st ↔ EveryVtgClosed (queue st) :=
  ⟨fun hh => by_contra fun hn => loop_hangs h hn hh, loop_ends h⟩

/-! ### Every reachable queue -/

theorem gpsBoot_queueInv (log : LogSetting) : QueueInv (gpsBoot log) :=
  ⟨bufferInit_wellFormed (by decide) (by decide), rfl⟩

theorem gpsBoot_queue (log : LogSetting) : queue (gpsBoot log) = [] :=
  bufferInit_contents (by decide) (by decide)

theorem loop_queueInv {st st' : GpsState} {n : ℕ} (h : QueueInv st)
    (hr : Loop.run frameStep n st = some st') : QueueInv st' := by
  refine Loop.run_partial QueueInv QueueInv ?_ ?_ h hr
  · intro s s' hs hb
    rcases frameStep_next_cases hs hb with ⟨rfl, _⟩ | ⟨_, _, _, _, ht⟩
    · exact hs
    · exact ht.inv
  · intro s r hs hb
    rwa [(frameStep_done hs hb).1]

@[simp] theorem deliverAck_buffer (st : GpsState) (b' : Buffer) (tmp : List UInt8)
    (index0 : Option ℕ) (mallocOk : Bool) :
    (deliverAck st b' tmp index0 mallocOk).gpsNmeaBuffer = b' := by
  cases index0 <;> rfl

theorem takeAck_queueInv {st : GpsState} (h : QueueInv st) (n : ℕ)
    (index0 : List UInt8 → Option ℕ) (mallocOk : Bool) :
    QueueInv (match bufferGets st.gpsNmeaBuffer n with
      | (_,none) => st
      | (b',some tmp) => deliverAck st b' tmp (index0 tmp) mallocOk) := by
  obtain ⟨hw, hm⟩ := bufferGets_wellFormed h.wellFormed n
  rcases hg : bufferGets st.gpsNmeaBuffer n with ⟨b', _ | tmp⟩
  · exact h
  · rw [hg] at hw hm
    exact ⟨by simpa using hw, by simpa using hm.trans h.maxSize_eq⟩

theorem ackUpdate_queueInv {st : GpsState} (h : QueueInv st) (mallocOk : Bool) :
    QueueInv (ackUpdate st mallocOk) := by
  simp only [ackUpdate]
  split_ifs
  · exact takeAck_queueInv h _ (fun tmp => strstr (cstring tmp) (lit "$PGKC")) mallocOk
  · exact h
  · exact takeAck_queueInv h _ (find [0xaa,0xf0]) mallocOk
  · exact h
  · exact h

theorem gpsUpdate_queueInv {st st' : GpsState} (h : QueueInv st) {fuel : ℕ} {data : List UInt8}
    {mallocOk : Bool} (hu : gpsUpdate fuel st data mallocOk = some st') : QueueInv st' := by
  simp only [gpsUpdate] at hu
  split_ifs at hu
  · cases hu
    exact ackUpdate_queueInv (receive_queueInv h _) _
  · exact loop_queueInv (receive_queueInv h _) hu

theorem reachable_queueInv {log : LogSetting} {st : GpsState} (h : GpsReachable log st) :
    QueueInv st := by
  induction h with
  | boot => exact gpsBoot_queueInv log
  | update hst hu ih => exact gpsUpdate_queueInv ih hu
  | pending p hst ih => exact ⟨ih.wellFormed, ih.maxSize_eq⟩

/-! ### Termination of `GPS_Update` -/

theorem gpsUpdate_returns {st : GpsState} (h : QueueInv st) (hp : st.cmdPending = false)
    (data : List UInt8) (mallocOk : Bool) :
    (∃ fuel st', gpsUpdate fuel st data mallocOk = some st') ↔
      EveryVtgClosed (queueAfter (queue st) data) := by
  have hp' : (receive st data).cmdPending = false := hp
  simp only [gpsUpdate, hp', Bool.false_eq_true, if_false]
  rw [← receive_queue h]
  exact loop_ends_iff (receive_queueInv h data)

/-- With no command waiting, the call returns exactly when every `VTG` among the queued
bytes and the new ones is followed by a line end. -/
theorem gpsUpdate_returns_iff {log : LogSetting} {st : GpsState} (h : GpsReachable log st)
    (hp : st.cmdPending = false) (data : List UInt8) (mallocOk : Bool) :
    (∃ fuel st', gpsUpdate fuel st data mallocOk = some st') ↔
      EveryVtgClosed (queueAfter (queue st) data) :=
  gpsUpdate_returns (reachable_queueInv h) hp data mallocOk

def begun : GpsState := receive (gpsBoot ⟨false,.null⟩) (lit "$GNV")

theorem begun_reachable : GpsReachable ⟨false,.null⟩ begun := by
  have hinv := receive_queueInv (gpsBoot_queueInv ⟨false,.null⟩) (lit "$GNV")
  have hq : find vtg (queue begun) = none := by
    rw [begun,receive_queue (gpsBoot_queueInv _),gpsBoot_queue]
    decide
  have hu : gpsUpdate 1 (gpsBoot ⟨false,.null⟩) (lit "$GNV") true = some begun := by
    rw [gpsUpdate,if_neg (by decide)]
    exact Loop.run_done (frameStep_exit hinv hq) 0
  exact .update .boot hu

/-- The rest of the sentence comes in. -/
theorem gpsUpdate_returns_iff_begun : queue begun = lit "$GNV" ∧
    ((∃ fuel st', gpsUpdate fuel begun (lit "TG,\r\n") true = some st') ↔
      EveryVtgClosed (queueAfter (queue begun) (lit "TG,\r\n"))) := by
  refine ⟨?_,gpsUpdate_returns_iff begun_reachable rfl (lit "TG,\r\n") true⟩
  rw [begun,receive_queue (gpsBoot_queueInv _),gpsBoot_queue]
  decide

/-- A chunk that ends between `VTG` and its line end hangs the first call. -/
theorem gpsUpdate_hangs_in_vtg :
    ¬ ∀ (log : LogSetting) (st : GpsState), GpsReachable log st → st.cmdPending = false →
      ∀ (data : List UInt8) (mallocOk : Bool),
        ∃ fuel st', gpsUpdate fuel st data mallocOk = some st' := by
  intro hall
  have hret := hall ⟨false,.null⟩ _ .boot rfl (lit "$GNVTG,") true
  rw [gpsUpdate_returns (gpsBoot_queueInv _) rfl] at hret
  have hq : queueAfter (queue (gpsBoot ⟨false,.null⟩)) (lit "$GNVTG,") = lit "$GNVTG," := by decide
  rw [hq] at hret
  obtain ⟨j, -, hj⟩ := hret 3 (by decide)
  have hnone : find crlf (lit "$GNVTG,") = none := by decide
  exact find_none hnone j hj

end FrameExtraction
end A9GTracker
