import Mathlib.Data.List.Basic
import Mathlib.Tactic.Common
import A9GTracker.Chop
import A9GTracker.FrameExtraction
import A9GTracker.SentenceSplitting

/-! The blocks one call of `GPS_Update` parses, as a function of the queue it starts with,
and the texts that reach `ParseOneNmea` in it. -/
namespace A9GTracker
namespace FrameSequence

open CString RingBuffer GpsParse Gps Search Chop FrameExtraction SentenceSplitting

/-- The length of the next block, 0 when the queue holds no complete `VTG` line. -/
def frameCut (xs : List UInt8) : ℕ :=
  match find vtg xs with
  | none => 0
  | some i =>
    match find (lit "\r\n") (xs.drop i) with
    | none => 0
    | some j => min (i+j+2) 1024

def frames (xs : List UInt8) : List (List UInt8) := chop frameCut xs.length xs

def parseFrames (st : ParseState) (blocks : List (List UInt8)) : ParseState :=
  blocks.foldl (fun st block => (gpsParse st (cstring block)).1) st

def frameTexts (blocks : List (List UInt8)) : List (List UInt8) :=
  blocks.flatMap fun block => passed (cstring block)

/-- The texts one call passes to `ParseOneNmea`; with a command waiting there are none. -/
def eventTexts (st : GpsState) (data : List UInt8) : List (List UInt8) :=
  if st.cmdPending then [] else frameTexts (frames (queueAfter (queue st) data))

theorem frameCut_le (xs : List UInt8) : frameCut xs ≤ xs.length := by
  cases hv : find vtg xs with
  | none => simp [frameCut,hv]
  | some i =>
    cases hc : find (lit "\r\n") (xs.drop i) with
    | none => simp [frameCut,hv,hc]
    | some j =>
      have hend : i+j+2 ≤ xs.length :=
        (occurs_drop.mp (find_spec hc).1).add_length_le (by decide)
      simp only [frameCut,hv,hc]
      omega

theorem frameStep_next {st st' : GpsState} (hb : frameStep st = .next st') :
    st' = st ∨ ∃ b' tmp, st' = parseBlock st b' tmp := by
  simp only [frameStep] at hb
  split_ifs at hb
  · split at hb
    · cases hb
    · cases hb
      exact .inr ⟨_,_,rfl⟩
  · cases hb
    exact .inl rfl

theorem blockTaken_parse {st st' : GpsState} {n : ℕ} (hn : 0 < n)
    (hq : n ≤ (queue st).length) (hb : frameStep st = .next st') (ht : BlockTaken st st' n) :
    st'.parse = (gpsParse st.parse (cstring ((queue st).take n))).1 := by
  rcases frameStep_next hb with rfl | ⟨b',tmp,rfl⟩
  · -- the queue has become shorter
    have hl := congrArg List.length ht.queue_eq
    rw [List.length_drop] at hl
    omega
  · have hp := ht.parsed_eq
    simp only [parseBlock,List.append_cancel_left_eq,List.cons.injEq,and_true] at hp
    rw [← hp]
    rfl

/-- What the rounds that follow will make of the parser state. -/
def Parses (result : ParseState) (st : GpsState) : Prop :=
  QueueInv st ∧ parseFrames st.parse (frames (queue st)) = result

theorem frameStep_parses {result : ParseState} (st st' : GpsState) (h : Parses result st)
    (hb : frameStep st = .next st') : Parses result st' := by
  rcases frameStep_next_cases h.1 hb with ⟨rfl,_⟩ | ⟨i,j,hv,hc,ht⟩
  · exact h
  · have hcut : frameCut (queue st) = min (i+j+2) 1024 := by
      simp only [frameCut,hv,hc]
    have hpos : 0 < frameCut (queue st) := by omega
    rw [← hcut] at ht
    refine ⟨ht.inv,?_⟩
    rw [← h.2,frames,frames,chop_next frameCut_le hpos.ne',← ht.queue_eq,
      blockTaken_parse hpos (frameCut_le _) hb ht]
    rfl

theorem loop_parses {st st' : GpsState} {fuel : ℕ} (h : QueueInv st)
    (hr : Loop.run frameStep fuel st = some st') :
    st'.parse = parseFrames st.parse (frames (queue st)) := by
  refine Loop.run_partial (Parses (parseFrames st.parse (frames (queue st))))
    (fun s => s.parse = parseFrames st.parse (frames (queue st))) frameStep_parses ?_ ⟨h,rfl⟩ hr
  intro s r hs hb
  obtain ⟨rfl,hv⟩ := frameStep_done hs.1 hb
  have hcut : frameCut (queue r) = 0 := by simp [frameCut,hv]
  rw [← hs.2,frames,chop_stop _ hcut]
  rfl

theorem ackUpdate_parse (st : GpsState) (mallocOk : Bool) :
    (ackUpdate st mallocOk).parse = st.parse := by
  have hdel : ∀ b' tmp i, (deliverAck st b' tmp i mallocOk).parse = st.parse := by
    intro b' tmp i
    cases i <;> rfl
  simp only [ackUpdate]
  split_ifs
  · split
    · rfl
    · exact hdel _ _ _
  · rfl
  · split
    · rfl
    · exact hdel _ _ _
  · rfl
  · rfl

/-- A returning call parses the blocks its queue holds, in order. -/
theorem gpsUpdate_parse {st st' : GpsState} (h : QueueInv st) {fuel : ℕ} {data : List UInt8}
    {mallocOk : Bool} (hu : gpsUpdate fuel st data mallocOk = some st') :
    st'.parse = if st.cmdPending then st.parse
      else parseFrames st.parse (frames (queueAfter (queue st) data)) := by
  have hp : (receive st data).cmdPending = st.cmdPending := rfl
  simp only [gpsUpdate,hp] at hu
  split_ifs at hu ⊢
  · cases hu
    exact ackUpdate_parse _ _
  · rw [← receive_queue h]
    exact loop_parses (receive_queueInv h data) hu

end FrameSequence
end A9GTracker
