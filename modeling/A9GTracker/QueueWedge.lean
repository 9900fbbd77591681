import Mathlib.Data.List.Basic
import Mathlib.Tactic.Common
import A9GTracker.FrameSequence
import A9GTracker.Runs
import A9GTracker.StreamConservation

/-! The queue of `GPS_Update` between two frames. Bytes leave it with a `VTG` line only; what
waits for one takes room from the chunks that follow. -/
namespace A9GTracker
namespace QueueWedge

open CString RingBuffer Gps Search Chop FrameExtraction FrameSequence StreamConservation

/-! ### What is left in the queue -/

def rest (xs : List UInt8) : List UInt8 := xs.drop (frames xs).flatten.length

def wait (queued data : List UInt8) : List UInt8 := rest (queueAfter queued data)

def waiting (chunks : List (List UInt8)) : List UInt8 := Runs.run wait [] chunks

theorem frames_of_no_vtg {xs : List UInt8} (h : find vtg xs = none) : frames xs = [] := by
  have hcut : frameCut xs = 0 := by simp [frameCut,h]
  exact chop_stop xs hcut

theorem rest_of_no_vtg {xs : List UInt8} (h : find vtg xs = none) : rest xs = xs := by
  rw [rest,frames_of_no_vtg h]
  rfl

theorem frames_next {xs : List UInt8} (h : frameCut xs ≠ 0) :
    frames xs = xs.take (frameCut xs)::frames (xs.drop (frameCut xs)) :=
  chop_next frameCut_le h

theorem rest_next {xs : List UInt8} (h : frameCut xs ≠ 0) :
    rest xs = rest (xs.drop (frameCut xs)) := by
  have hle := frameCut_le xs
  rw [rest,rest,frames_next h,List.flatten_cons,List.length_append,List.length_take,
    Nat.min_eq_left hle,List.drop_drop]

structure Idle (st : GpsState) : Prop where
  inv : QueueInv st
  idle : st.cmdPending = false
  no_vtg : find vtg (queue st) = none

theorem gpsBoot_idle (log : LogSetting) : Idle (gpsBoot log) where
  inv := gpsBoot_queueInv log
  idle := rfl
  no_vtg := by rw [gpsBoot_queue]; rfl

/-- What the loop leaves behind. -/
structure Extracted (st st' : GpsState) : Prop where
  idle : Idle st'
  parsed : st'.parsed = st.parsed++frames (queue st)
  queue : FrameExtraction.queue st' = rest (FrameExtraction.queue st)

theorem loop_extracted {st st' : GpsState} {fuel : ℕ} (h : QueueInv st)
    (hp : st.cmdPending = false) (hr : Loop.run frameStep fuel st = some st') :
    Extracted st st' := by
  refine Loop.run_partial
    (fun s => QueueInv s ∧ s.cmdPending = false ∧
      s.parsed++frames (queue s) = st.parsed++frames (queue st) ∧ rest (queue s) = rest (queue st))
    (Extracted st) ?_ ?_ ⟨h,hp,rfl,rfl⟩ hr
  · rintro s s' ⟨hs,hpend,hparsed,hrest⟩ hb
    rcases frameStep_next_cases hs hb with ⟨rfl,-⟩ | ⟨i,j,hv,hc,ht⟩
    · exact ⟨hs,hpend,hparsed,hrest⟩
    · have hcut : frameCut (queue s) = min (i+j+2) 1024 := by simp only [frameCut,hv,hc]
      have hne : frameCut (queue s) ≠ 0 := by omega
      rw [← hcut] at ht
      refine ⟨ht.inv,ht.cmdPending_eq.trans hpend,?_,?_⟩
      · rw [← hparsed,ht.parsed_eq,ht.queue_eq,frames_next hne,List.append_assoc]
        rfl
      · rw [← hrest,ht.queue_eq,← rest_next hne]
  · rintro s r ⟨hs,hpend,hparsed,hrest⟩ hb
    obtain ⟨rfl,hv⟩ := frameStep_done hs hb
    rw [frames_of_no_vtg hv,List.append_nil] at hparsed
    rw [rest_of_no_vtg hv] at hrest
    exact ⟨⟨hs,hpend,hv⟩,hparsed,hrest⟩

theorem gpsUpdate_extracted {st st' : GpsState} (h : Idle st) {fuel : ℕ} {data : List UInt8}
    {mallocOk : Bool} (hu : gpsUpdate fuel st data mallocOk = some st') :
    Idle st' ∧ st'.parsed = st.parsed++frames (queueAfter (queue st) data) ∧
      queue st' = wait (queue st) data := by
  have hp : (receive st data).cmdPending = false := h.idle
  simp only [gpsUpdate,hp,Bool.false_eq_true,if_false] at hu
  have hex := loop_extracted (receive_queueInv h.inv data) hp hu
  have hparsed := hex.parsed
  have hqueue := hex.queue
  rw [receive_queue h.inv] at hparsed hqueue
  exact ⟨hex.idle,hparsed,hqueue⟩

/-! ### Sequences of calls -/

/-- Calls of `GPS_Update` that return, with no command waiting. -/
inductive Calls : GpsState → List (List UInt8) → GpsState → Prop
  | nil (st : GpsState) : Calls st [] st
  | cons {st st' st'' : GpsState} {fuel : ℕ} {data : List UInt8} {chunks : List (List UInt8)}
      {mallocOk : Bool} : gpsUpdate fuel st data mallocOk = some st' → Calls st' chunks st'' →
      Calls st (data::chunks) st''

theorem Calls.extracted {st st' : GpsState} {chunks : List (List UInt8)} (h : Calls st chunks st')
    (hidle : Idle st) : Idle st' ∧ queue st' = Runs.run wait (queue st) chunks := by
  induction h with
  | nil st => exact ⟨hidle,rfl⟩
  | cons hu _ ih =>
    obtain ⟨hidle',-,hqueue⟩ := gpsUpdate_extracted hidle hu
    obtain ⟨hend,hrun⟩ := ih hidle'
    exact ⟨hend,by rw [hrun,hqueue,Runs.run_cons]⟩

/-- Every later chunk is refused: nothing of it comes into the queue. -/
def Rejecting (st : GpsState) : Prop :=
  ∀ chunks st', Calls st chunks st' → ∀ data, accepted st' data = []

theorem accepted_eq_nil {st : GpsState} (h : QueueInv st) (data : List UInt8) :
    accepted st data = [] ↔ queueAfter (queue st) data = queue st := by
  rw [← receive_queue h,receive_accepted h]
  exact List.append_right_eq_self.symm

theorem queueAfter_full {q : List UInt8} (h : q.length = 2047) (data : List UInt8) :
    queueAfter q data = q := by
  rw [queueAfter]
  split_ifs with hfit
  · have hzero : data.length % 65536 = 0 := by omega
    rw [hzero,List.take_zero,List.append_nil]
  · rfl

/-- Without a `VTG` a full queue stays as it is. -/
theorem rejecting_iff {st : GpsState} (h : Idle st) :
    Rejecting st ↔ (queue st).length = 2047 := by
  constructor
  · intro hrej
    have hnone := hrej [] st (.nil st) [65]
    rw [accepted_eq_nil h.inv,queueAfter] at hnone
    have hlt := queue_length_lt h.inv
    by_contra hne
    rw [if_pos (by simp only [List.length_singleton]; omega)] at hnone
    simp at hnone
  · intro hfull chunks st' hcalls data
    have hkept : ∀ chunks, Runs.run wait (queue st) chunks = queue st := by
      intro chunks
      induction chunks with
      | nil => rfl
      | cons c chunks ih =>
        rw [Runs.run_cons,wait,queueAfter_full hfull,rest_of_no_vtg h.no_vtg,ih]
    obtain ⟨hidle,hqueue⟩ := hcalls.extracted h
    rw [hkept] at hqueue
    rw [accepted_eq_nil hidle.inv]
    exact queueAfter_full (hqueue ▸ hfull) data

/-! ### A frame behind waiting bytes -/

/-- The first line with a `VTG` is the last one. -/
structure VtgLast (xs : List UInt8) (i : ℕ) : Prop where
  found : find vtg xs = some i
  line_end : ∃ j, find crlf (xs.drop i) = some j ∧ i+j+2 = xs.length

/-- It begins with a dollar sign and ends with its first line with a `VTG`. -/
structure VtgFrame (f : List UInt8) : Prop where
  begins : f.head? = some 36
  vtg_last : ∃ i, VtgLast f i

theorem occurs_vtg_append {q g : List UInt8} (hg : ∀ x ∈ g.head?, x = 36) {i : ℕ}
    (h : Occurs vtg (q++g) i) :
    Occurs vtg q i ∨ q.length ≤ i ∧ Occurs vtg g (i-q.length) := by
  have hlen : i+3 ≤ (q++g).length := h.add_length_le (by decide)
  by_cases hleft : i+3 ≤ q.length
  · refine Or.inl ?_
    rw [Occurs,List.drop_append_of_le_length (by omega)] at h
    exact List.prefix_of_prefix_length_le h (List.prefix_append _ _)
      (by rw [List.length_drop]; exact (by omega : 3 ≤ q.length-i))
  · by_cases hright : q.length ≤ i
    · refine Or.inr ⟨hright,?_⟩
      obtain ⟨k,rfl⟩ := Nat.exists_eq_add_of_le hright
      rw [Occurs,List.drop_length_add_append] at h
      rwa [Nat.add_sub_cancel_left]
    · obtain ⟨x,hx⟩ : ∃ x, g.head? = some x := by
        cases g with
        | nil => rw [List.append_nil] at hlen; omega
        | cons x g => exact ⟨x,rfl⟩
      have hat := h.getElem? (j := q.length-i) (show q.length-i < 3 by omega)
      rw [(by omega : i+(q.length-i) = q.length+0),List.getElem?_append_right (by omega),
        Nat.add_sub_cancel_left,← List.head?_eq_getElem?,hx,hg x hx] at hat
      have hall : ∀ k < 3, 0 < k → vtg[k]? ≠ some 36 := by decide
      exact absurd hat.symm (hall _ (by omega) (by omega))

theorem find_vtg_eq_none {xs : List UInt8} : find vtg xs = none ↔ ∀ i, ¬ Occurs vtg xs i := by
  constructor
  · exact fun h => find_none h
  · intro h
    cases hf : find vtg xs with
    | none => rfl
    | some i => exact absurd (find_spec hf).1 (h i)

theorem no_vtg_append {q g : List UInt8} (hq : find vtg q = none) (hg : find vtg g = none)
    (hbegins : ∀ x ∈ g.head?, x = 36) : find vtg (q++g) = none := by
  rw [find_vtg_eq_none] at hq hg ⊢
  intro i hi
  rcases occurs_vtg_append hbegins hi with hleft | hright
  · exact hq i hleft
  · exact hg _ hright.2

theorem VtgLast.append {q f : List UInt8} {i : ℕ} (h : VtgLast f i) (hq : find vtg q = none)
    (hbegins : ∀ x ∈ f.head?, x = 36) : VtgLast (q++f) (q.length+i) := by
  obtain ⟨j,hj,hlast⟩ := h.line_end
  refine ⟨?_,j,?_,?_⟩
  · rw [find_append_of_not_occurs,h.found,Option.map_some,Nat.add_comm]
    intro k hk ho
    rcases occurs_vtg_append hbegins ho with hleft | hright
    · exact find_none hq k hleft
    · omega
  · rw [List.drop_length_add_append]
    exact hj
  · rw [List.length_append]
    omega

theorem VtgLast.frameCut_eq {xs : List UInt8} {i : ℕ} (h : VtgLast xs i) :
    frameCut xs = min xs.length 1024 := by
  obtain ⟨j,hj,hlast⟩ := h.line_end
  simp only [frameCut,h.found,hj,hlast]

theorem VtgLast.length_pos {xs : List UInt8} {i : ℕ} (h : VtgLast xs i) : 2 ≤ xs.length := by
  obtain ⟨j,-,hlast⟩ := h.line_end
  omega

theorem VtgLast.frames_short {xs : List UInt8} {i : ℕ} (h : VtgLast xs i) (hlen : xs.length ≤ 1024) :
    frames xs = [xs] := by
  have hcut := h.frameCut_eq
  rw [Nat.min_eq_left hlen] at hcut
  have hpos := h.length_pos
  rw [frames_next (by omega),hcut,List.take_length,List.drop_length,frames_of_no_vtg rfl]

theorem VtgLast.frames_long {xs : List UInt8} {i : ℕ} (h : VtgLast xs i)
    (hlen : 1024 < xs.length) :
    frames xs = xs.take 1024::frames (xs.drop 1024) := by
  have hcut := h.frameCut_eq
  rw [Nat.min_eq_right hlen.le] at hcut
  rw [frames_next (by omega),hcut]

theorem VtgLast.frames_two {x y : List UInt8} {i j : ℕ} (h : VtgLast (x++y) i)
    (hx : x.length = 1024) (hy : VtgLast y j) (hlen : y.length ≤ 1024) :
    frames (x++y) = [x,y] := by
  have hpos := hy.length_pos
  rw [h.frames_long (by rw [List.length_append]; omega),List.take_left' hx,List.drop_left' hx,
    hy.frames_short hlen]

/-! ### Delivery in chunks -/

inductive Taken : GpsState → List (List UInt8) → GpsState → Prop
  | nil (st : GpsState) : Taken st [] st
  | cons {st st' st'' : GpsState} {fuel : ℕ} {data : List UInt8} {chunks : List (List UInt8)}
      {mallocOk : Bool} : accepted st data = data → gpsUpdate fuel st data mallocOk = some st' →
      Taken st' chunks st'' → Taken st (data::chunks) st''

/-- From the end of the first `VTG` on the text comes in one chunk. -/
def Uncut (chunks : List (List UInt8)) : Prop :=
  ∃ pre c post, chunks = pre++c::post ∧ find vtg pre.flatten = none ∧ post.flatten = []

theorem Taken.append {st st' st'' : GpsState} {chunks chunks' : List (List UInt8)}
    (h : Taken st chunks st') (h' : Taken st' chunks' st'') : Taken st (chunks++chunks') st'' := by
  induction h with
  | nil st => exact h'
  | cons htake hu _ ih => exact .cons htake hu (ih h')

theorem Taken.split {st st' : GpsState} {pre post : List (List UInt8)}
    (h : Taken st (pre++post) st') : ∃ s, Taken st pre s ∧ Taken s post st' := by
  induction pre generalizing st with
  | nil => exact ⟨st,.nil st,h⟩
  | cons c pre ih =>
    cases h with
    | cons htake hu hrest =>
      obtain ⟨s,hpre,hpost⟩ := ih hrest
      exact ⟨s,.cons htake hu hpre,hpost⟩

theorem exists_vtg_chunk {chunks : List (List UInt8)} (h : find vtg chunks.flatten ≠ none) :
    ∃ pre c post, chunks = pre++c::post ∧ find vtg pre.flatten = none ∧
      find vtg (pre++[c]).flatten ≠ none := by
  induction chunks using List.reverseRecOn with
  | nil => exact absurd rfl h
  | append_singleton chunks c ih =>
    by_cases hearlier : find vtg chunks.flatten = none
    · exact ⟨chunks,c,[],rfl,hearlier,h⟩
    · obtain ⟨pre,c',post,rfl,hpre,hc'⟩ := ih hearlier
      exact ⟨pre,c',post++[c],by simp,hpre,hc'⟩

theorem queueAfter_fits {q c : List UInt8} (h : q.length+c.length ≤ 2047) :
    queueAfter q c = q++c := by
  have hmod : c.length % 65536 = c.length := Nat.mod_eq_of_lt (by omega)
  rw [queueAfter,hmod,List.take_length,if_pos (by omega)]

theorem accepted_eq_self {st : GpsState} (h : QueueInv st) (data : List UInt8) :
    accepted st data = data ↔ queueAfter (queue st) data = queue st++data := by
  rw [← receive_queue h,receive_accepted h]
  exact (List.append_cancel_left_eq _ _ _).symm.to_iff

theorem exists_taken {st : GpsState} (h : Idle st) {c : List UInt8}
    (hfit : (queue st).length+c.length ≤ 2047) (hclosed : EveryVtgClosed (queue st++c)) :
    ∃ st', Taken st [c] st' := by
  have hqueue := queueAfter_fits hfit
  rw [← hqueue] at hclosed
  obtain ⟨fuel,st',hu⟩ := (gpsUpdate_returns h.inv h.idle c true).2 hclosed
  exact ⟨st',.cons ((accepted_eq_self h.inv c).2 hqueue) hu (.nil st')⟩

theorem Taken.single {st st' : GpsState} {c : List UInt8} (h : Taken st [c] st') (hidle : Idle st) :
    Idle st' ∧ st'.parsed = st.parsed++frames (queue st++c) ∧ queue st' = rest (queue st++c) ∧
      (queue st).length+c.length ≤ 2047 ∧ EveryVtgClosed (queue st++c) := by
  cases h with
  | @cons _ s _ fuel _ _ mallocOk htake hu hrest =>
    cases hrest
    rw [accepted_eq_self hidle.inv] at htake
    obtain ⟨hidle',hparsed,hqueue⟩ := gpsUpdate_extracted hidle hu
    have hclosed := (gpsUpdate_returns hidle.inv hidle.idle c mallocOk).1 ⟨fuel,st',hu⟩
    have hlt := queue_length_lt (receive_queueInv hidle.inv c)
    rw [receive_queue hidle.inv,htake,List.length_append] at hlt
    rw [htake] at hparsed hclosed
    rw [wait,htake] at hqueue
    exact ⟨hidle',hparsed,hqueue,by omega,hclosed⟩

theorem closed_of_no_vtg {xs : List UInt8} (h : find vtg xs = none) : EveryVtgClosed xs :=
  fun i hi => absurd hi (find_none h i)

theorem no_vtg_of_prefix {xs ys : List UInt8} (h : xs <+: ys) (hys : find vtg ys = none) :
    find vtg xs = none := by
  rw [find_vtg_eq_none] at hys ⊢
  exact fun i hi => hys i (hi.extend h)

theorem Taken.waits {st st' : GpsState} {chunks : List (List UInt8)} (h : Taken st chunks st')
    (hidle : Idle st) (hquiet : find vtg (queue st++chunks.flatten) = none) :
    Idle st' ∧ st'.parsed = st.parsed ∧ queue st' = queue st++chunks.flatten := by
  induction h with
  | nil st => exact ⟨hidle,rfl,(List.append_nil _).symm⟩
  | @cons st s _ fuel c chunks mallocOk htake hu _ ih =>
    have hsingle : Taken st [c] s := .cons htake hu (.nil s)
    obtain ⟨hidle',hparsed,hqueue,-,-⟩ := hsingle.single hidle
    rw [List.flatten_cons,← List.append_assoc] at hquiet
    have hc := no_vtg_of_prefix (List.prefix_append _ _) hquiet
    rw [rest_of_no_vtg hc] at hqueue
    rw [frames_of_no_vtg hc,List.append_nil] at hparsed
    rw [← hqueue] at hquiet
    obtain ⟨hend,hparsed',hqueue'⟩ := ih hidle' hquiet
    exact ⟨hend,hparsed'.trans hparsed,by rw [hqueue',hqueue,List.flatten_cons,List.append_assoc]⟩

theorem exists_waits {st : GpsState} (h : Idle st) {chunks : List (List UInt8)}
    (hfit : (queue st).length+chunks.flatten.length ≤ 2047)
    (hquiet : find vtg (queue st++chunks.flatten) = none) : ∃ st', Taken st chunks st' := by
  induction chunks generalizing st with
  | nil => exact ⟨st,.nil st⟩
  | cons c chunks ih =>
    rw [List.flatten_cons,List.length_append] at hfit
    rw [List.flatten_cons,← List.append_assoc] at hquiet
    have hc := no_vtg_of_prefix (List.prefix_append _ _) hquiet
    obtain ⟨s,hs⟩ := exists_taken h (by omega) (closed_of_no_vtg hc)
    obtain ⟨hidle,-,hqueue,-,-⟩ := hs.single h
    rw [rest_of_no_vtg hc] at hqueue
    obtain ⟨st',hst'⟩ := ih hidle (by rw [hqueue,List.length_append]; omega)
      (by rw [hqueue]; exact hquiet)
    exact ⟨st',hs.append hst'⟩

theorem VtgLast.closed {xs : List UInt8} {i : ℕ} (h : VtgLast xs i) : EveryVtgClosed xs := by
  obtain ⟨j,hj,hlast⟩ := h.line_end
  intro k hk
  have hle : k+3 ≤ xs.length := hk.add_length_le (by decide)
  exact ⟨i+j,by omega,occurs_drop.1 (find_spec hj).1⟩

theorem VtgLast.open_prefix {xs ys : List UInt8} {i : ℕ} (h : VtgLast xs i) (hys : ys <+: xs)
    (hlt : ys.length < xs.length) (hvtg : find vtg ys ≠ none) : ¬ EveryVtgClosed ys := by
  obtain ⟨j,hj,hlast⟩ := h.line_end
  obtain ⟨k,hk⟩ := Option.ne_none_iff_exists'.1 hvtg
  have hik := find_le_of_extend hys hk h.found
  intro hclosed
  obtain ⟨e,hke,he⟩ := hclosed k (find_spec hk).1
  have hend : e+2 ≤ ys.length := he.add_length_le (by decide)
  have hocc := he.extend hys
  rw [(by omega : e = i+(e-i)),← occurs_drop] at hocc
  exact (find_spec hj).2 (e-i) (by omega) hocc

theorem head_of_le {g f : List UInt8} (h : g <+: f) (hf : f.head? = some 36) :
    ∀ x ∈ g.head?, x = 36 := by
  intro x hx
  obtain ⟨t,rfl⟩ := h
  cases g with
  | nil => cases hx
  | cons y g =>
    rw [List.head?_cons] at hx
    rw [List.cons_append,List.head?_cons] at hf
    exact (Option.some.inj hx).symm.trans (Option.some.inj hf)

/-- What a delivery does up to the chunk with the `VTG` and behind it. -/
theorem delivers_of_uncut {st : GpsState} (h : Idle st) {f c : List UInt8} (hf : VtgFrame f)
    {pre post : List (List UInt8)} (hfs : pre.flatten++c = f) (hpre : find vtg pre.flatten = none)
    (hpost : post.flatten = []) (hroom : (queue st).length+f.length ≤ 2047) :
    ∃ st', Taken st (pre++c::post) st' ∧ st'.parsed = st.parsed++frames (queue st++f) := by
  obtain ⟨i,hi⟩ := hf.vtg_last
  have hbegins := head_of_le (List.prefix_refl f) hf.begins
  have hquiet := no_vtg_append h.no_vtg hpre
    (head_of_le ⟨c,hfs⟩ hf.begins)
  have hlen := congrArg List.length hfs
  rw [List.length_append] at hlen
  obtain ⟨s,hs⟩ := exists_waits h (by omega) hquiet
  obtain ⟨hidle,hparsed,hqueue⟩ := hs.waits h hquiet
  have hall : queue s++c = queue st++f := by
    rw [hqueue,List.append_assoc,hfs]
  obtain ⟨s2,hs2⟩ := exists_taken hidle (c := c)
    (by rw [hqueue,List.length_append]; omega)
    (by rw [hall]; exact (hi.append h.no_vtg hbegins).closed)
  obtain ⟨hidle2,hparsed2,-,-,-⟩ := hs2.single hidle
  have hquiet2 : find vtg (queue s2++post.flatten) = none := by
    rw [hpost,List.append_nil]
    exact hidle2.no_vtg
  obtain ⟨st',hst'⟩ := exists_waits hidle2
    (by rw [hpost]; exact Nat.lt_succ_iff.1 (queue_length_lt hidle2.inv)) hquiet2
  refine ⟨st',hs.append (hs2.append hst'),?_⟩
  rw [(hst'.waits hidle2 hquiet2).2.1,hparsed2,hparsed,hall]

theorem Taken.uncut {st st' : GpsState} (h : Idle st) {f : List UInt8} (hf : VtgFrame f)
    {chunks : List (List UInt8)} (hfs : chunks.flatten = f) (htaken : Taken st chunks st') :
    Uncut chunks ∧ (queue st).length+f.length ≤ 2047 ∧
      st'.parsed = st.parsed++frames (queue st++f) := by
  obtain ⟨i,hi⟩ := hf.vtg_last
  have hbegins := head_of_le (List.prefix_refl f) hf.begins
  have hlast := hi.append h.no_vtg hbegins
  obtain ⟨pre,c,post,rfl,hpre,hc⟩ := exists_vtg_chunk
    (show find vtg chunks.flatten ≠ none by rw [hfs,hi.found]; exact Option.some_ne_none i)
  have hsplit : (pre++[c]).flatten++post.flatten = f := by
    rw [← hfs]
    simp
  have hone : (pre++[c]).flatten = pre.flatten++c := by simp
  obtain ⟨s,hs,hrest⟩ := htaken.split
  rw [← List.singleton_append] at hrest
  obtain ⟨s2,hs2,hend⟩ := hrest.split
  have hquiet := no_vtg_append h.no_vtg hpre
    (head_of_le ⟨c++post.flatten,by rw [← hsplit,hone,List.append_assoc]⟩ hf.begins)
  obtain ⟨hidle,hparsed,hqueue⟩ := hs.waits h hquiet
  obtain ⟨hidle2,hparsed2,-,hroom,hclosed⟩ := hs2.single hidle
  rw [hqueue,List.append_assoc,← hone] at hclosed hparsed2
  have hpost : post.flatten = [] := by
    by_contra hne
    have hpos := List.length_pos_iff.2 hne
    have hshort : queue st++(pre++[c]).flatten <+: queue st++f :=
      ⟨post.flatten,by rw [List.append_assoc,hsplit]⟩
    refine hlast.open_prefix hshort ?_ ?_ hclosed
    · rw [← hsplit]
      simp only [List.length_append]
      omega
    · obtain ⟨k,hk⟩ := Option.ne_none_iff_exists'.1 hc
      rw [Ne,find_vtg_eq_none]
      intro hnone
      refine hnone ((queue st).length+k) ?_
      rw [Occurs,List.drop_length_add_append]
      exact (find_spec hk).1
  rw [hpost,List.append_nil] at hsplit
  refine ⟨⟨pre,c,post,rfl,hpre,hpost⟩,?_,?_⟩
  · rw [hqueue,List.length_append] at hroom
    rw [← hsplit,hone,List.length_append]
    omega
  · have hquiet2 : find vtg (queue s2++post.flatten) = none := by
      rw [hpost,List.append_nil]
      exact hidle2.no_vtg
    rw [(hend.waits hidle2 hquiet2).2.1,hparsed2,hparsed,hsplit]

end QueueWedge
end A9GTracker
