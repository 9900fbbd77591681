import Mathlib.Data.List.Basic
import Mathlib.Tactic.Common
import A9GTracker.FrameExtraction

/-! With no command waiting, what has been taken out for the parser and what is still
queued are together the bytes that `Buffer_Puts` has accepted. -/
namespace A9GTracker
namespace StreamConservation

open CString RingBuffer Gps Search FrameExtraction

/-- The bytes a call adds to the queue: the chunk, or nothing when it is refused. -/
def accepted (st : GpsState) (data : List UInt8) : List UInt8 :=
  if (bufferPuts st.gpsNmeaBuffer data (u16 data.length)).2 then data.take (u16 data.length)
  else []

/-- Runs of calls that return, from `GPS_Init` on and without a waiting command, with what
each call has added. -/
inductive StreamRun (log : LogSetting) : List (List UInt8) → GpsState → Prop
  | boot : StreamRun log [] (gpsBoot log)
  | update {chunks : List (List UInt8)} {st st' : GpsState} {fuel : ℕ} {data : List UInt8}
      {mallocOk : Bool} :
      StreamRun log chunks st → gpsUpdate fuel st data mallocOk = some st' →
      StreamRun log (chunks++[accepted st data]) st'

/-- The round asks for a block and is refused. -/
def GetsFails (st : GpsState) : Prop :=
  let b := st.gpsNmeaBuffer
  let index := bufferQuery b (lit "VTG") 3 (bufferStartPostion b)
  let index2 := bufferQuery b (lit "\r\n") 2 (u16 index.toNat)
  0 ≤ index ∧ 0 ≤ index2 ∧ (bufferGets b (frameLen b index2)).2 = none

/-- The stream up to the present state is `sent`. -/
structure Conserved (sent : List UInt8) (st : GpsState) : Prop where
  inv : QueueInv st
  idle : st.cmdPending = false
  stream_eq : st.parsed.flatten++queue st = sent
  block_le : ∀ block ∈ st.parsed, block.length ≤ 1024

theorem receive_accepted {st : GpsState} (h : QueueInv st) (data : List UInt8) :
    queue (receive st data) = queue st++accepted st data := by
  obtain ⟨_,_,hc⟩ := bufferPuts_spec h.wellFormed data (Nat.mod_le data.length 65536)
  have hq : queue (receive st data) =
      contents (bufferPuts st.gpsNmeaBuffer data (data.length % 65536)).1 := rfl
  have hok := bufferPuts_ok h.wellFormed data (u16 data.length)
  simp only [u16,← contents_length] at hok
  rw [hq,hc,accepted,u16,hok]
  by_cases hfit : (contents st.gpsNmeaBuffer).length+data.length % 65536 <
      st.gpsNmeaBuffer.maxSize
  · rw [if_pos hfit,decide_eq_true hfit,if_pos rfl]
    rfl
  · rw [if_neg hfit,decide_eq_false hfit,if_neg (by decide),List.append_nil]
    rfl

theorem receive_conserved {sent : List UInt8} {st : GpsState} (h : Conserved sent st)
    (data : List UInt8) : Conserved (sent++accepted st data) (receive st data) where
  inv := receive_queueInv h.inv data
  idle := h.idle
  stream_eq := by
    rw [receive_accepted h.inv,← List.append_assoc]
    exact congrArg (·++accepted st data) h.stream_eq
  block_le := h.block_le

theorem blockTaken_conserved {sent : List UInt8} {st st' : GpsState} (h : Conserved sent st)
    {n : ℕ} (hn : n ≤ 1024) (ht : BlockTaken st st' n) : Conserved sent st' where
  inv := ht.inv
  idle := ht.cmdPending_eq.trans h.idle
  stream_eq := by
    rw [ht.parsed_eq,ht.queue_eq,List.flatten_append,List.append_assoc]
    simpa using h.stream_eq
  block_le := by
    rw [ht.parsed_eq]
    intro block hb
    rcases List.mem_append.mp hb with hb | hb
    · exact h.block_le block hb
    · rw [List.mem_singleton.mp hb,List.length_take]
      omega

theorem frameStep_conserved {sent : List UInt8} (st st' : GpsState) (h : Conserved sent st)
    (hb : frameStep st = .next st') : Conserved sent st' := by
  rcases frameStep_next_cases h.inv hb with ⟨rfl,_⟩ | ⟨_,_,_,_,ht⟩
  · exact h
  · exact blockTaken_conserved h (Nat.min_le_right _ _) ht

theorem not_getsFails {st : GpsState} (h : QueueInv st) : ¬ GetsFails st := by
  rintro ⟨hi,hi2,hg⟩
  rw [query_vtg h] at hi hi2 hg
  cases hv : find vtg (queue st) with
  | none =>
    simp [hv] at hi
  | some i =>
    have hlt := vtg_lt (find_spec hv).1
    rw [hv] at hi2 hg
    simp only [query_crlf h hlt] at hi2 hg
    cases hc : find crlf ((queue st).drop i) with
    | none =>
      simp [hc] at hi2
    | some j =>
      have hend : i+j+2 ≤ (queue st).length :=
        (occurs_drop.mp (find_spec hc).1).add_length_le (by decide)
      have hfit : min (i+j+2) 1024 ≤ (contents st.gpsNmeaBuffer).length :=
        le_trans (Nat.min_le_left _ _) hend
      rw [hc] at hg
      simp only [frameLen_slot h (show i+j < (queue st).length by omega),
        (bufferGets_spec h.wellFormed hfit).2.2.1] at hg
      cases hg

theorem loop_conserved {sent : List UInt8} {st st' : GpsState} {fuel : ℕ}
    (h : Conserved sent st) (hr : Loop.run frameStep fuel st = some st') :
    Conserved sent st' ∧ find vtg (queue st') = none := by
  refine Loop.run_partial (Conserved sent)
    (fun s => Conserved sent s ∧ find vtg (queue s) = none) frameStep_conserved ?_ h hr
  intro s r hs hb
  obtain ⟨rfl,hv⟩ := frameStep_done hs.inv hb
  exact ⟨hs,hv⟩

theorem gpsBoot_conserved (log : LogSetting) : Conserved [] (gpsBoot log) where
  inv := gpsBoot_queueInv log
  idle := rfl
  stream_eq := by rw [gpsBoot_queue]; rfl
  block_le := by simp [gpsBoot]

theorem streamRun_conserved {log : LogSetting} {chunks : List (List UInt8)} {st : GpsState}
    (h : StreamRun log chunks st) :
    Conserved chunks.flatten st ∧ find vtg (queue st) = none := by
  induction h with
  | boot => exact ⟨gpsBoot_conserved log,by rw [gpsBoot_queue]; rfl⟩
  | @update chunks st st' fuel data mallocOk _ hu ih =>
    have hrec := receive_conserved ih.1 data
    have hidle : ¬ (receive st data).cmdPending := by simp [hrec.idle]
    rw [gpsUpdate,if_neg hidle] at hu
    rw [List.flatten_append,List.flatten_singleton]
    exact loop_conserved hrec hu

/-- Nothing is lost, duplicated or reordered between `Buffer_Puts` and `GPS_Parse`. -/
theorem stream_conserved {log : LogSetting} {chunks : List (List UInt8)} {st : GpsState}
    (h : StreamRun log chunks st) :
    st.parsed.flatten++queue st = chunks.flatten ∧
    (∀ block ∈ st.parsed, block.length ≤ 1024) ∧
    (∀ i, ¬ Occurs vtg (queue st) i) ∧
    ∀ data s, Loop.Visits frameStep (receive st data) s → ¬ GetsFails s := by
  obtain ⟨hc,hv⟩ := streamRun_conserved h
  refine ⟨hc.stream_eq,hc.block_le,find_none hv,?_⟩
  intro data s hs
  have hinv := hs.invariant frameStep_conserved (receive_conserved hc data)
  exact not_getsFails hinv.inv

theorem stream_conserved_line : ∃ st : GpsState, st.parsed.flatten++queue st =
    accepted (gpsBoot ⟨false,.null⟩) (lit "$GNVTG\r\n") := by
  have hclosed : EveryVtgClosed (lit "$GNVTG\r\n") := by
    intro i hi
    have hl : i+3 ≤ 8 := hi.add_length_le (by decide)
    exact ⟨6,by omega,by decide⟩
  have hq : queueAfter (queue (gpsBoot ⟨false,.null⟩)) (lit "$GNVTG\r\n") =
      lit "$GNVTG\r\n" := by
    rw [gpsBoot_queue]
    decide
  obtain ⟨fuel,st,hu⟩ := (gpsUpdate_returns (gpsBoot_queueInv ⟨false,.null⟩) rfl
    (lit "$GNVTG\r\n") true).mpr (by rwa [hq])
  exact ⟨st,by simpa using (stream_conserved (.update .boot hu)).1⟩

end StreamConservation
end A9GTracker
