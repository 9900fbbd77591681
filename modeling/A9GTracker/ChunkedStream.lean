import Mathlib.Data.List.Basic
import Mathlib.Tactic.Common
import A9GTracker.FrameSequence
import A9GTracker.QueueWedge
import A9GTracker.StreamConservation

/-! The driver decodes the stream: where the chunks of the UART begin and end makes no
difference to what is parsed. -/
namespace A9GTracker
namespace ChunkedStream

open CString RingBuffer GpsParse Gps Search Chop FrameExtraction FrameSequence StreamConservation

theorem frameCut_append (xs ys : List UInt8) (h : frameCut xs ≠ 0) :
    frameCut (xs++ys) = frameCut xs := by
  cases hv : find vtg xs with
  | none => simp [frameCut,hv] at h
  | some i =>
    cases hc : find (lit "\r\n") (xs.drop i) with
    | none => simp [frameCut,hv,hc] at h
    | some j =>
      have hi := vtg_lt (find_spec hv).1
      have hv' := find_append_of_some (by decide) hv ys
      have hc' := find_append_of_some (by decide) hc ys
      rw [← List.drop_append_of_le_length hi.le] at hc'
      simp only [frameCut,hv,hc,hv',hc']

/-- The blocks that the rounds to come will add to the ones taken out so far. -/
def Takes (result : List (List UInt8)) (st : GpsState) : Prop :=
  QueueInv st ∧ st.parsed++frames (queue st) = result

theorem frameStep_takes {result : List (List UInt8)} (st st' : GpsState) (h : Takes result st)
    (hb : frameStep st = .next st') : Takes result st' := by
  rcases frameStep_next_cases h.1 hb with ⟨rfl,_⟩ | ⟨i,j,hv,hc,ht⟩
  · exact h
  · have hcut : frameCut (queue st) = min (i+j+2) 1024 := by
      simp only [frameCut,hv,hc]
    have hpos : 0 < frameCut (queue st) := by omega
    rw [← hcut] at ht
    refine ⟨ht.inv,?_⟩
    rw [← h.2,ht.parsed_eq,frames,frames,chop_next frameCut_le hpos.ne',← ht.queue_eq,
      List.append_assoc,List.singleton_append]

theorem loop_takes {st st' : GpsState} {fuel : ℕ} (h : QueueInv st)
    (hr : Loop.run frameStep fuel st = some st') :
    st'.parsed = st.parsed++frames (queue st) := by
  refine Loop.run_partial (Takes (st.parsed++frames (queue st)))
    (fun s => s.parsed = st.parsed++frames (queue st)) frameStep_takes ?_ ⟨h,rfl⟩ hr
  intro s r hs hb
  obtain ⟨rfl,hv⟩ := frameStep_done hs.1 hb
  have hcut : frameCut (queue r) = 0 := by simp [frameCut,hv]
  have hnone : frames (queue r) = [] := chop_stop _ hcut
  rw [← hs.2,hnone,List.append_nil]

theorem parseFrames_append (st : ParseState) (blocks blocks' : List (List UInt8)) :
    parseFrames st (blocks++blocks') = parseFrames (parseFrames st blocks) blocks' :=
  List.foldl_append

/-- The driver is where parsing the whole stream at once would leave it. -/
structure Decodes (stream : List UInt8) (st : GpsState) : Prop where
  blocks : st.parsed = frames stream
  parse_eq : st.parse = parseFrames parseInit (frames stream)
  queued : (frames stream).flatten++queue st = stream

theorem update_decodes {stream : List UInt8} {st st' : GpsState} (h : Decodes stream st)
    (hinv : Conserved stream st) {fuel : ℕ} {data : List UInt8} {mallocOk : Bool}
    (hu : gpsUpdate fuel st data mallocOk = some st') :
    Decodes (stream++accepted st data) st' := by
  have hrec := receive_conserved hinv data
  have hparse := gpsUpdate_parse hinv.inv hu
  rw [gpsUpdate,if_neg (by simp [hrec.idle])] at hu
  have htaken := loop_takes hrec.inv hu
  have hqueue := receive_accepted hinv.inv data
  have hafter : queueAfter (queue st) data = queue st++accepted st data := by
    rw [← receive_queue hinv.inv,hqueue]
  have hframes : frames (stream++accepted st data) =
      frames stream++frames (queue st++accepted st data) :=
    chop_append frameCut_le frameCut_append h.queued _
  rw [hqueue] at htaken
  have hparsed : st'.parsed = frames (stream++accepted st data) := by
    rw [hframes,htaken,show (receive st data).parsed = st.parsed from rfl,h.blocks]
  refine ⟨hparsed,?_,?_⟩
  · rw [hparse,if_neg (by simp [hinv.idle]),hafter,hframes,parseFrames_append,h.parse_eq]
  · rw [← hparsed]
    exact (loop_conserved hrec hu).1.stream_eq

/-- However the stream has been cut into chunks, the parser state is that of parsing all its
frames in order, and what is not yet parsed is queued. -/
theorem run_decodes {log : LogSetting} {chunks : List (List UInt8)} {st : GpsState}
    (h : StreamRun log chunks st) : Decodes chunks.flatten st := by
  induction h with
  | boot => exact ⟨rfl,rfl,by rw [gpsBoot_queue]; rfl⟩
  | update hrun hu ih =>
    rw [List.flatten_append,List.flatten_singleton]
    exact update_decodes ih (streamRun_conserved hrun).1 hu

/-- What a stream decodes to is a matter of its bytes. -/
theorem Decodes.unique {stream : List UInt8} {st st' : GpsState} (h : Decodes stream st)
    (h' : Decodes stream st') :
    st.parsed = st'.parsed ∧ st.parse = st'.parse ∧ queue st = queue st' := by
  refine ⟨h.blocks.trans h'.blocks.symm,h.parse_eq.trans h'.parse_eq.symm,?_⟩
  exact List.append_cancel_left (h.queued.trans h'.queued.symm)

/-- Two runs that have taken in the same bytes stand at the same place of the stream, whatever
their chunks were. -/
theorem chunks_decoded_alike {log log' : LogSetting} {chunks chunks' : List (List UInt8)}
    {st st' : GpsState} (h : StreamRun log chunks st) (h' : StreamRun log' chunks' st')
    (hbytes : chunks.flatten = chunks'.flatten) :
    Decodes chunks.flatten st ∧ st.parsed = st'.parsed ∧ st.parse = st'.parse ∧
      queue st = queue st' := by
  have hdec' := run_decodes h'
  rw [← hbytes] at hdec'
  exact ⟨run_decodes h,(run_decodes h).unique hdec'⟩

/-- A chunk that fits and leaves no `VTG` line open is taken in whole. -/
theorem run_takes {log : LogSetting} {chunks : List (List UInt8)} {st : GpsState}
    (h : StreamRun log chunks st) {c : List UInt8} (hfit : (queue st).length+c.length ≤ 2047)
    (hclosed : EveryVtgClosed (queue st++c)) :
    ∃ st', QueueWedge.Taken st [c] st' ∧ StreamRun log (chunks++[c]) st' := by
  have hcons := (streamRun_conserved h).1
  have hafter := QueueWedge.queueAfter_fits hfit
  have haccepted := (QueueWedge.accepted_eq_self hcons.inv c).2 hafter
  rw [← hafter] at hclosed
  obtain ⟨fuel,st',hu⟩ := (gpsUpdate_returns hcons.inv hcons.idle c true).2 hclosed
  have hnext := StreamRun.update h hu
  rw [haccepted] at hnext
  exact ⟨st',.cons haccepted hu (.nil st'),hnext⟩

theorem chunks_decoded_alike_two : ∃ st st' : GpsState,
    StreamRun ⟨false,.null⟩ [lit "$GNVTG\r\n"] st ∧
      StreamRun ⟨true,.gpsLogFile⟩ [lit "$GNV",lit "TG\r\n"] st' ∧ Decodes (lit "$GNVTG\r\n") st ∧
      st.parsed = st'.parsed ∧ st.parse = st'.parse ∧ queue st = queue st' := by
  have hclosed : EveryVtgClosed (lit "$GNVTG\r\n") := by
    intro i hi
    have hl : i+3 ≤ 8 := hi.add_length_le (by decide)
    exact ⟨6,by omega,by decide⟩
  have hno_vtg : EveryVtgClosed (lit "$GNV") := QueueWedge.closed_of_no_vtg (by decide)
  obtain ⟨st,-,hone⟩ := run_takes (@StreamRun.boot ⟨false,.null⟩) (c := lit "$GNVTG\r\n")
    (by rw [gpsBoot_queue]; decide) (by rwa [gpsBoot_queue])
  obtain ⟨mid,-,hmid⟩ := run_takes (@StreamRun.boot ⟨true,.gpsLogFile⟩) (c := lit "$GNV")
    (by rw [gpsBoot_queue]; decide) (by rwa [gpsBoot_queue])
  have hwaits : queue mid = lit "$GNV" := (run_decodes hmid).queued
  obtain ⟨st',-,htwo⟩ := run_takes hmid (c := lit "TG\r\n") (by rw [hwaits]; decide) (by rwa [hwaits])
  exact ⟨st,st',hone,htwo,chunks_decoded_alike hone htwo rfl⟩

end ChunkedStream
end A9GTracker
