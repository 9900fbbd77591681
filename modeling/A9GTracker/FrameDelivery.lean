import Mathlib.Data.List.Basic
import Mathlib.Tactic.Common
import A9GTracker.ParseCursor
import A9GTracker.QueueWedge

/-! A frame of sentences that comes in behind waiting bytes: when `GPS_Parse` passes every one
of them on. -/
namespace A9GTracker
namespace FrameDelivery

open CString RingBuffer Gps Search FrameExtraction FrameSequence ParseCursor QueueWedge

/-! ### Frames of sentences -/

/-- A frame: sentences of which the last one is the first with a `VTG`. -/
structure Frame (ss : List (List UInt8)) : Prop where
  lines : ∀ s ∈ ss, SentenceLine s
  vtg_last : ∃ before last, ss = before++[last] ∧ find vtg before.flatten = none ∧
    find vtg last ≠ none

theorem sentenceLine_vtgLast {s : List UInt8} (h : SentenceLine s) {k : ℕ}
    (hk : find vtg s = some k) : VtgLast s k := by
  have hlen : k+3 ≤ s.length := (find_spec hk).1.add_length_le (by decide)
  obtain ⟨body,rfl,-,hcr,-⟩ := h.spelled
  have hclean : ∀ i, ¬ Occurs crlf ((36::body).drop k) i := by
    intro i ho
    have hat := ho.getElem? (j := 0) (by decide)
    have hmem : (13 : UInt8) ∈ (36::body).drop k := List.mem_of_getElem? (hat.trans rfl)
    rcases List.mem_cons.1 (List.mem_of_mem_drop hmem) with h36 | hmem
    · exact absurd h36 (by decide)
    · exact hcr hmem
  have htwo : (lit "\r\n").length = 2 := rfl
  rw [List.length_cons,List.length_append,htwo] at hlen
  refine ⟨hk,((36::body).drop k).length,?_,?_⟩
  · rw [← List.cons_append,List.drop_append_of_le_length (by rw [List.length_cons]; omega)]
    exact find_append_of_begins (by decide) (by decide) hclean (List.prefix_refl _)
  · rw [List.length_drop,List.length_cons,List.length_cons,List.length_append,htwo]
    omega

theorem head_flatten {ss : List (List UInt8)} (h : ∀ s ∈ ss, SentenceLine s) (hne : ss ≠ []) :
    ss.flatten.head? = some 36 := by
  cases ss with
  | nil => exact absurd rfl hne
  | cons s ss =>
    obtain ⟨body,rfl,-⟩ := (h s (by simp)).spelled
    rfl

theorem Frame.ne_nil {ss : List (List UInt8)} (h : Frame ss) : ss ≠ [] := by
  obtain ⟨before,last,rfl,-⟩ := h.vtg_last
  simp

theorem Frame.exists_vtgLast {ss : List (List UInt8)} (h : Frame ss) :
    ∃ i, VtgLast ss.flatten i := by
  obtain ⟨before,last,rfl,hbefore,hlast⟩ := h.vtg_last
  obtain ⟨k,hk⟩ := Option.ne_none_iff_exists'.1 hlast
  have hline := h.lines last (by simp)
  have hbegins : ∀ x ∈ last.head?, x = 36 := fun x hx => by
    rw [hline.head] at hx
    exact (Option.mem_some_iff.1 hx).symm
  refine ⟨before.flatten.length+k,?_⟩
  rw [List.flatten_append,List.flatten_singleton]
  exact (sentenceLine_vtgLast hline hk).append hbefore hbegins

theorem Frame.vtgFrame {ss : List (List UInt8)} (h : Frame ss) : VtgFrame ss.flatten :=
  ⟨head_flatten h.lines h.ne_nil,h.exists_vtgLast⟩

theorem Frame.suffix {a b : List (List UInt8)} (h : Frame (a++b)) (hne : b ≠ []) : Frame b := by
  obtain ⟨before,last,heq,hbefore,hlast⟩ := h.vtg_last
  refine ⟨fun s hs => h.lines s (List.mem_append_right a hs),?_⟩
  induction b using List.reverseRecOn with
  | nil => exact absurd rfl hne
  | append_singleton b s _ =>
    rw [← List.append_assoc] at heq
    obtain ⟨rfl,hs⟩ := List.append_inj' heq rfl
    obtain rfl := List.singleton_inj.1 hs
    refine ⟨b,s,rfl,?_,hlast⟩
    rw [List.flatten_append] at hbefore
    rw [find_vtg_eq_none] at hbefore ⊢
    intro i hi
    refine hbefore (a.flatten.length+i) ?_
    rwa [Occurs,List.drop_length_add_append]

/-! ### Which blocks pass the sentences on -/

/-- `GPS_Parse` passes the bytes from `offset` on, counted over all blocks, on as a sentence. -/
def PassedBy (blocks : List (List UInt8)) (offset : ℕ) (s : List UInt8) : Prop :=
  ∃ pre block post k, blocks = pre++block::post ∧ pre.flatten.length+k = offset ∧
    PassedAt (cstring block) k s

/-- Every sentence of the frame is passed on, in its place behind the waiting bytes. -/
def AllPassed (blocks : List (List UInt8)) (q : List UInt8) (ss : List (List UInt8)) : Prop :=
  ∀ pre s post, ss = pre++s::post → PassedBy blocks (q.length+pre.flatten.length) s

theorem passedBy_single {block s : List UInt8} {offset : ℕ} :
    PassedBy [block] offset s ↔ PassedAt (cstring block) offset s := by
  constructor
  · rintro ⟨pre,b,post,k,heq,hk,h⟩
    obtain ⟨rfl,hcons⟩ : pre = [] ∧ [block] = b::post := by
      cases pre with
      | nil => exact ⟨rfl,heq⟩
      | cons c pre => simp at heq
    obtain ⟨rfl,-⟩ := List.cons.inj hcons
    rw [List.flatten_nil,List.length_nil,Nat.zero_add] at hk
    rwa [hk] at h
  · exact fun h => ⟨[],block,[],offset,rfl,Nat.zero_add offset,h⟩

theorem cstring_length_le (block : List UInt8) : (cstring block).length ≤ block.length :=
  (List.takeWhile_prefix _).length_le

/-- A sentence lies in the first block as a whole or begins behind it. -/
theorem passedBy_cons {block s : List UInt8} {blocks : List (List UInt8)} {offset : ℕ} :
    PassedBy (block::blocks) offset s ↔ PassedAt (cstring block) offset s ∨
      block.length ≤ offset ∧ PassedBy blocks (offset-block.length) s := by
  constructor
  · rintro ⟨pre,b,post,k,heq,hk,h⟩
    cases pre with
    | nil =>
      obtain ⟨rfl,-⟩ := List.cons.inj heq
      rw [List.flatten_nil,List.length_nil,Nat.zero_add] at hk
      rw [← hk]
      exact Or.inl h
    | cons c pre =>
      rw [List.cons_append] at heq
      obtain ⟨rfl,htail⟩ := List.cons.inj heq
      rw [List.flatten_cons,List.length_append] at hk
      exact Or.inr ⟨by omega,pre,b,post,k,htail,by omega,h⟩
  · rintro (h | ⟨hle,pre,b,post,k,rfl,hk,h⟩)
    · exact ⟨[],block,blocks,offset,rfl,Nat.zero_add offset,h⟩
    · refine ⟨block::pre,b,post,k,rfl,?_,h⟩
      rw [List.flatten_cons,List.length_append]
      omega

theorem no_nul_flatten {ss : List (List UInt8)} (h : ∀ s ∈ ss, SentenceLine s) :
    0 ∉ ss.flatten := by
  intro h0
  obtain ⟨s,hs,h0⟩ := List.mem_flatten.1 h0
  exact (h s hs).no_nul h0

/-- The bytes in front of a sentence keep it from the parser by a NUL or an open `$`. -/
theorem passedAt_cstring_iff {w s : List UInt8} (hs : SentenceLine s) {r : List UInt8}
    (hr : 0 ∉ r) : PassedAt (cstring (w++s++r)) w.length s ↔ 0 ∉ w ∧ Reaches w s := by
  by_cases hw : 0 ∈ w
  · refine iff_of_false (fun h => ?_) (fun h => h.1 hw)
    have hle := h.add_length_le
    obtain ⟨a,b,rfl,ha⟩ := List.eq_append_cons_of_mem hw
    rw [List.append_assoc,List.append_assoc,cstring_append ha] at hle
    have hnil : cstring (0::b++(s++r)) = [] := rfl
    rw [hnil,List.append_nil,List.length_append,List.length_cons] at hle
    omega
  · have hall : 0 ∉ w++s++r := by
      simp only [List.mem_append,not_or]
      exact ⟨⟨hw,hs.no_nul⟩,hr⟩
    rw [cstring_eq_self hall,passedAt_iff_reaches hs,and_iff_right hw]

theorem block_passes {w s₁ : List UInt8} {ss : List (List UInt8)} (h : Reaches w s₁)
    (hw : 0 ∉ w) (hss : ∀ s ∈ s₁::ss, SentenceLine s) {pre post : List (List UInt8)}
    {s : List UInt8} (heq : s₁::ss = pre++s::post) :
    PassedAt (cstring (w++(s₁::ss).flatten)) (w.length+pre.flatten.length) s := by
  have hall : 0 ∉ w++(s₁::ss).flatten := by
    rw [List.mem_append,not_or]
    exact ⟨hw,no_nul_flatten hss⟩
  rw [cstring_eq_self hall]
  exact h.passes_all hss heq

theorem exists_cut {ss : List (List UInt8)} {n : ℕ} (h : n ≤ ss.flatten.length) :
    (∃ a b, ss = a++b ∧ a.flatten.length = n) ∨
      ∃ pre s post, ss = pre++s::post ∧ pre.flatten.length < n ∧
        n < pre.flatten.length+s.length := by
  induction ss generalizing n with
  | nil =>
    rw [List.flatten_nil,List.length_nil,Nat.le_zero] at h
    exact Or.inl ⟨[],[],rfl,h.symm⟩
  | cons s ss ih =>
    rw [List.flatten_cons,List.length_append] at h
    by_cases hzero : n = 0
    · exact Or.inl ⟨[],s::ss,rfl,hzero.symm⟩
    by_cases hin : n < s.length
    · exact Or.inr ⟨[],s,ss,rfl,by simpa using Nat.pos_of_ne_zero hzero,by simpa using hin⟩
    · rcases ih (n := n-s.length) (by omega) with ⟨a,b,rfl,ha⟩ | ⟨pre,t,post,rfl,hlt,hgt⟩
      · refine Or.inl ⟨s::a,b,rfl,?_⟩
        rw [List.flatten_cons,List.length_append]
        omega
      · refine Or.inr ⟨s::pre,t,post,rfl,?_,?_⟩ <;>
          rw [List.flatten_cons,List.length_append] <;> omega

/-- The waiting bytes that come to the parser together with the frame: the first block is
1024 bytes long. -/
def window (q : List UInt8) : List UInt8 := if 1024 ≤ q.length then q.drop 1024 else q

structure Clears (q : List UInt8) (ss : List (List UInt8)) : Prop where
  room : q.length+ss.flatten.length ≤ 2047
  boundary : 1024 ≤ q.length ∨ q.length+ss.flatten.length ≤ 1024 ∨
    ∃ a b, ss = a++b ∧ q.length+a.flatten.length = 1024
  no_nul : 0 ∉ window q
  closed : DollarsClosed (window q) ∨ ∀ s ∈ ss.head?, Reaches (window q) s

theorem closed_iff {w s : List UInt8} {ss : List (List UInt8)} :
    (DollarsClosed w ∨ ∀ t ∈ (s::ss).head?, Reaches w t) ↔ Reaches w s := by
  constructor
  · rintro (h | h)
    · exact reaches_of_closed h s
    · exact h s rfl
  · intro h
    refine Or.inr fun t ht => ?_
    obtain rfl := Option.some.inj ht
    exact h

/-! ### The blocks behind the waiting bytes -/

section blocks
variable {q : List UInt8} {ss : List (List UInt8)}

theorem Frame.append_vtgLast (h : Frame ss) (hq : find vtg q = none) :
    ∃ i, VtgLast (q++ss.flatten) i := by
  obtain ⟨i,hi⟩ := h.exists_vtgLast
  exact ⟨_,hi.append hq (head_of_le (List.prefix_refl _) h.vtgFrame.begins)⟩

theorem no_vtg_drop (hq : find vtg q = none) (n : ℕ) : find vtg (q.drop n) = none := by
  rw [find_vtg_eq_none] at hq ⊢
  exact fun k hk => hq _ (occurs_drop.1 hk)

/-- The blocks of waiting bytes and frame, by the place of the boundary. -/
theorem Frame.frames_eq (h : Frame ss) (hq : find vtg q = none)
    (hroom : q.length+ss.flatten.length ≤ 2047) :
    (q.length+ss.flatten.length ≤ 1024 → frames (q++ss.flatten) = [q++ss.flatten]) ∧
      (1024 ≤ q.length →
        frames (q++ss.flatten) = [q.take 1024,q.drop 1024++ss.flatten]) ∧
      ∀ a b, ss = a++b → b ≠ [] → q.length+a.flatten.length = 1024 →
        frames (q++ss.flatten) = [q++a.flatten,b.flatten] := by
  obtain ⟨i,hi⟩ := h.append_vtgLast hq
  refine ⟨fun hshort => hi.frames_short (by rw [List.length_append]; exact hshort),?_,?_⟩
  · intro hlong
    obtain ⟨j,hj⟩ := h.append_vtgLast (no_vtg_drop hq 1024)
    have hsplit : q++ss.flatten = q.take 1024++(q.drop 1024++ss.flatten) := by
      rw [← List.append_assoc,List.take_append_drop]
    rw [hsplit] at hi ⊢
    refine hi.frames_two (by rw [List.length_take]; omega) hj ?_
    rw [List.length_append,List.length_drop]
    omega
  · rintro a b rfl hb hcut
    obtain ⟨j,hj⟩ := (h.suffix hb).exists_vtgLast
    rw [List.flatten_append,List.length_append] at hroom
    rw [List.flatten_append,← List.append_assoc] at hi ⊢
    exact hi.frames_two (by rw [List.length_append]; exact hcut) hj (by omega)

theorem boundary_of_allPassed (h : Frame ss) (hq : find vtg q = none)
    (hpassed : AllPassed (frames (q++ss.flatten)) q ss) :
    1024 ≤ q.length ∨ q.length+ss.flatten.length ≤ 1024 ∨
      ∃ a b, ss = a++b ∧ q.length+a.flatten.length = 1024 := by
  by_contra hno
  simp only [not_or,not_le] at hno
  obtain ⟨hshort,hlong,hcut⟩ := hno
  obtain ⟨i,hi⟩ := h.append_vtgLast hq
  rcases @exists_cut ss (1024-q.length) (by omega) with
    ⟨a,b,hab,ha⟩ | ⟨pre,s,post,hs,hlt,hgt⟩
  · exact hcut ⟨a,b,hab,by omega⟩
  · have hp := hpassed pre s post hs
    rw [hi.frames_long (by rw [List.length_append]; exact hlong),passedBy_cons] at hp
    have htake : ((q++ss.flatten).take 1024).length = 1024 := by
      rw [List.length_take,List.length_append]
      omega
    rcases hp with hp | ⟨hle,-⟩
    · have hinside := hp.add_length_le.trans (cstring_length_le _)
      omega
    · omega

theorem dollarsClosed_nil : DollarsClosed [] := by
  intro i hi
  have hle : i+1 ≤ 0 := hi.add_length_le (by decide)
  omega

theorem append_eq_append_cons {α : Type} {a b pre post : List α} {t : α}
    (h : a++b = pre++t::post) :
    (∃ c, pre = a++c ∧ b = c++t::post) ∨ ∃ c, a = pre++t::c := by
  rcases List.append_eq_append_iff.1 h with hb | ⟨c,rfl,hc⟩
  · exact Or.inl hb
  · cases c with
    | nil => exact Or.inl ⟨[],by simp,by simpa using hc.symm⟩
    | cons u c =>
      rw [List.cons_append] at hc
      obtain ⟨rfl,-⟩ := List.cons.inj hc
      exact Or.inr ⟨c,rfl⟩

theorem window_of_passedBy {s : List UInt8} {rest : List (List UInt8)} (h : Frame (s::rest))
    (hq : find vtg q = none) (hroom : q.length+(s::rest).flatten.length ≤ 2047)
    (hboundary : 1024 ≤ q.length ∨ q.length+(s::rest).flatten.length ≤ 1024 ∨
      ∃ a b, s::rest = a++b ∧ q.length+a.flatten.length = 1024)
    (hfirst : PassedBy (frames (q++(s::rest).flatten)) q.length s) :
    0 ∉ window q ∧ Reaches (window q) s := by
  obtain ⟨hshort,hlong,hcut⟩ := h.frames_eq hq hroom
  have hs := h.lines s (by simp)
  have hrest : 0 ∉ rest.flatten := no_nul_flatten fun t ht => h.lines t (List.mem_cons_of_mem s ht)
  unfold window
  split_ifs with hwide
  · rw [hlong hwide,passedBy_cons,passedBy_single,List.flatten_cons,← List.append_assoc,
      List.length_take,Nat.min_eq_left hwide,← List.length_drop] at hfirst
    rcases hfirst with hfirst | ⟨-,hfirst⟩
    · have hinside := hfirst.add_length_le.trans (cstring_length_le _)
      rw [List.length_take] at hinside
      have := hs.two_le
      omega
    · exact (passedAt_cstring_iff hs hrest).1 hfirst
  · rcases hboundary with hle | hle | ⟨a,b,hab,ha⟩
    · exact absurd hle hwide
    · rw [hshort hle,passedBy_single,List.flatten_cons,← List.append_assoc] at hfirst
      exact (passedAt_cstring_iff hs hrest).1 hfirst
    · cases a with
      | nil =>
        rw [List.flatten_nil,List.length_nil] at ha
        omega
      | cons t a =>
        rw [List.cons_append] at hab
        obtain ⟨rfl,rfl⟩ := List.cons.inj hab
        by_cases hb : b = []
        · subst hb
          rw [List.append_nil] at hshort hfirst hrest
          rw [hshort ha.le,passedBy_single,List.flatten_cons,← List.append_assoc] at hfirst
          exact (passedAt_cstring_iff hs hrest).1 hfirst
        · have ha0 : 0 ∉ a.flatten := fun h0 =>
            hrest (by rw [List.flatten_append]; exact List.mem_append_left _ h0)
          rw [hcut (s::a) b rfl hb ha,passedBy_cons] at hfirst
          rcases hfirst with hfirst | ⟨hle,-⟩
          · rw [List.flatten_cons,← List.append_assoc] at hfirst
            exact (passedAt_cstring_iff hs ha0).1 hfirst
          · rw [List.length_append] at hle
            omega

/-- Behind bytes that let the first sentence through every sentence is passed on. -/
theorem allPassed_of_clears {s : List UInt8} {rest : List (List UInt8)} (h : Frame (s::rest))
    (hq : find vtg q = none) (hclears : Clears q (s::rest)) :
    AllPassed (frames (q++(s::rest).flatten)) q (s::rest) := by
  intro pre t post heq
  obtain ⟨hshort,hlong,hcut⟩ := h.frames_eq hq hclears.room
  have hreach := closed_iff.1 hclears.closed
  have hnul := hclears.no_nul
  unfold window at hreach hnul
  by_cases hwide : 1024 ≤ q.length
  · rw [if_pos hwide] at hreach hnul
    have hp := block_passes hreach hnul h.lines heq
    rw [hlong hwide,passedBy_cons,passedBy_single,List.length_take,Nat.min_eq_left hwide]
    refine Or.inr ⟨by omega,?_⟩
    rwa [List.length_drop,← Nat.sub_add_comm hwide] at hp
  · rw [if_neg hwide] at hreach hnul
    rcases hclears.boundary with hle | hle | ⟨a,b,hab,ha⟩
    · exact absurd hle hwide
    · rw [hshort hle,passedBy_single]
      exact block_passes hreach hnul h.lines heq
    · cases a with
      | nil =>
        rw [List.flatten_nil,List.length_nil] at ha
        omega
      | cons u a =>
        rw [List.cons_append] at hab
        obtain ⟨rfl,rfl⟩ := List.cons.inj hab
        by_cases hb : b = []
        · subst hb
          rw [List.append_nil] at hshort heq h ⊢
          rw [hshort ha.le,passedBy_single]
          exact block_passes hreach hnul h.lines heq
        · rw [hcut (s::a) b rfl hb ha,passedBy_cons,passedBy_single]
          rw [← List.cons_append] at heq
          rcases append_eq_append_cons heq with ⟨c,rfl,rfl⟩ | ⟨c,hc⟩
          · obtain ⟨u,us,hu⟩ := List.exists_cons_of_ne_nil hb
            have hlines : ∀ v ∈ u::us, SentenceLine v := fun v hv =>
              h.lines v (by rw [← hu] at hv; simp only [List.mem_append,List.mem_cons] at hv ⊢; tauto)
            have hp := block_passes (reaches_of_closed dollarsClosed_nil u) List.not_mem_nil
              hlines hu.symm
            rw [← hu,List.nil_append,List.length_nil,Nat.zero_add] at hp
            rw [List.flatten_append,List.length_append,List.length_append,← Nat.add_assoc,
              Nat.add_sub_cancel_left]
            exact Or.inr ⟨Nat.le_add_right _ _,hp⟩
          · refine Or.inl (block_passes hreach hnul (fun v hv => h.lines v ?_) hc)
            rw [← List.cons_append]
            exact List.mem_append_left b hv

/-- Waiting bytes and frame reach the parser sentence by sentence just when no boundary takes a
sentence apart and neither a NUL nor an open `$` waits in front of the frame. -/
theorem allPassed_iff (h : Frame ss) (hq : find vtg q = none)
    (hroom : q.length+ss.flatten.length ≤ 2047) :
    AllPassed (frames (q++ss.flatten)) q ss ↔ Clears q ss := by
  obtain ⟨s,rest,rfl⟩ := List.exists_cons_of_ne_nil h.ne_nil
  refine ⟨fun hpassed => ?_,allPassed_of_clears h hq⟩
  have hboundary := boundary_of_allPassed h hq hpassed
  have hfirst := hpassed [] s rest rfl
  rw [List.flatten_nil,List.length_nil,Nat.add_zero] at hfirst
  obtain ⟨hnul,hreach⟩ := window_of_passedBy h hq hroom hboundary hfirst
  exact ⟨hroom,hboundary,hnul,closed_iff.2 hreach⟩

end blocks

/-! ### Delivery -/

/-- The chunks are taken, and every sentence of the frame is passed on to `ParseOneNmea`. -/
def Delivers (st : GpsState) (ss : List (List UInt8)) (chunks : List (List UInt8)) : Prop :=
  ∃ st', Taken st chunks st' ∧ AllPassed (st'.parsed.drop st.parsed.length) (queue st) ss

/-- Which frames still come through. -/
theorem delivers_iff {st : GpsState} (h : Idle st) {ss : List (List UInt8)} (hf : Frame ss)
    {chunks : List (List UInt8)} (hfs : chunks.flatten = ss.flatten) :
    Delivers st ss chunks ↔ Clears (queue st) ss ∧ Uncut chunks := by
  constructor
  · rintro ⟨st',htaken,hpassed⟩
    obtain ⟨huncut,hroom,hparsed⟩ := htaken.uncut h hf.vtgFrame hfs
    rw [hparsed,List.drop_left] at hpassed
    exact ⟨(allPassed_iff hf h.no_vtg hroom).1 hpassed,huncut⟩
  · rintro ⟨hclears,pre,c,post,rfl,hpre,hpost⟩
    have hsplit : pre.flatten++c = ss.flatten := by
      rw [← hfs]
      simp [hpost]
    obtain ⟨st',htaken,hparsed⟩ :=
      delivers_of_uncut h hf.vtgFrame hsplit hpre hpost hclears.room
    refine ⟨st',htaken,?_⟩
    rw [hparsed,List.drop_left]
    exact (allPassed_iff hf h.no_vtg hclears.room).2 hclears

/-! ### Every run -/

/-- After every run of calls: the queue refuses everything for good just when 2047 bytes wait,
and a frame is still parsed just when it fits behind the waiting bytes, no boundary of the frame
buffer falls into a sentence, neither a NUL nor an open `$` waits in front of it and its `VTG`
line is not cut. -/
theorem queue_wedged_iff {log : LogSetting} {chunks : List (List UInt8)} {st : GpsState}
    (h : Calls (gpsBoot log) chunks st) :
    (Rejecting st ↔ (waiting chunks).length = 2047) ∧
      ∀ ss pieces, Frame ss → pieces.flatten = ss.flatten →
        (Delivers st ss pieces ↔ Clears (waiting chunks) ss ∧ Uncut pieces) := by
  obtain ⟨hidle,hqueue⟩ := h.extracted (gpsBoot_idle log)
  rw [gpsBoot_queue] at hqueue
  have hwaiting : queue st = waiting chunks := hqueue
  rw [← hwaiting]
  exact ⟨rejecting_iff hidle,fun ss pieces hf hpieces => delivers_iff hidle hf hpieces⟩

theorem taken_calls {st st' : GpsState} {c : List UInt8} (h : Taken st [c] st') :
    Calls st [c] st' := by
  cases h with
  | cons htake hu hrest =>
    cases hrest
    exact .cons hu (.nil st')

def twoSentences : List (List UInt8) := [lit "$GNRMC,,V\r\n",lit "$GNVTG,,T\r\n"]

theorem twoSentences_frame : Frame twoSentences where
  lines s hs := by
    rcases List.mem_pair.1 hs with rfl | rfl
    · exact ⟨lit "GNRMC,,V",by decide⟩
    · exact ⟨lit "GNVTG,,T",by decide⟩
  vtg_last := ⟨[lit "$GNRMC,,V\r\n"],lit "$GNVTG,,T\r\n",rfl,by decide,by decide⟩

/-- A complete sentence waits, and a frame of two sentences comes in two pieces. -/
theorem queue_wedged_iff_waiting : ∃ st,
    Calls (gpsBoot ⟨false,.null⟩) [lit "$GPGGA\r\n"] st ∧ ¬ Rejecting st ∧
      Delivers st twoSentences [lit "$GNRMC,,V\r\n$GN",lit "VTG,,T\r\n"] := by
  have hidle := gpsBoot_idle ⟨false,.null⟩
  have hempty : queue (gpsBoot ⟨false,.null⟩) = [] := gpsBoot_queue ⟨false,.null⟩
  obtain ⟨st,hst⟩ := exists_taken hidle (c := lit "$GPGGA\r\n") (by rw [hempty]; decide)
    (closed_of_no_vtg (by rw [hempty]; decide))
  have hcalls := taken_calls hst
  obtain ⟨hrejecting,hdelivers⟩ := queue_wedged_iff hcalls
  have hwaiting : waiting [lit "$GPGGA\r\n"] = lit "$GPGGA\r\n" := by decide
  rw [hwaiting] at hrejecting hdelivers
  have hcursor : Cursor (lit "$GPGGA\r\n"++lit "$GNRMC,,V\r\n") (0+8) :=
    @Cursor.next _ 0 0 8 .start (by decide)
  refine ⟨st,hcalls,fun hrej => absurd (hrejecting.1 hrej) (by decide),?_⟩
  refine (hdelivers _ _ twoSentences_frame (by decide)).2 ⟨⟨by decide,Or.inr (Or.inl (by decide)),
    by decide,Or.inr ?_⟩,[lit "$GNRMC,,V\r\n$GN"],lit "VTG,,T\r\n",[],rfl,by decide,rfl⟩
  intro s hs
  obtain rfl := Option.some.inj hs
  exact ⟨8,hcursor,by decide,by decide⟩

theorem replicate_no_vtg (n : ℕ) : find vtg (List.replicate n 65) = none := by
  rw [find_vtg_eq_none]
  intro i hi
  have hlen : i+3 ≤ (List.replicate n (65 : UInt8)).length := hi.add_length_le (by decide)
  rw [List.length_replicate] at hlen
  have hat := hi.getElem? (j := 0) (by decide)
  rw [Nat.add_zero,List.getElem?_replicate_of_lt (by omega)] at hat
  exact absurd hat (by decide)

/-- One chunk of 2047 bytes without a `VTG`, and neither a byte nor a frame gets in any more. -/
theorem queue_wedged :
    ∃ st, Calls (gpsBoot ⟨false,.null⟩) [List.replicate 2047 65] st ∧ Rejecting st ∧
      ∀ ss pieces, Frame ss → pieces.flatten = ss.flatten → ¬ Delivers st ss pieces := by
  have hidle := gpsBoot_idle ⟨false,.null⟩
  have hempty : queue (gpsBoot ⟨false,.null⟩) = [] := gpsBoot_queue ⟨false,.null⟩
  have hquiet : find vtg (queue (gpsBoot ⟨false,.null⟩)++List.replicate 2047 65) = none := by
    rw [hempty]
    exact replicate_no_vtg 2047
  obtain ⟨st,hst⟩ := exists_taken hidle (by rw [hempty,List.length_replicate]; decide)
    (closed_of_no_vtg hquiet)
  obtain ⟨hidle',-,hqueue,-,-⟩ := hst.single hidle
  have hlength : (queue st).length = 2047 := by
    rw [hqueue,rest_of_no_vtg hquiet,hempty,List.nil_append,List.length_replicate]
  refine ⟨st,taken_calls hst,(rejecting_iff hidle').2 hlength,fun ss pieces hf hpieces hdel => ?_⟩
  obtain ⟨i,hi⟩ := hf.exists_vtgLast
  have hpos := hi.length_pos
  have hroom := ((delivers_iff hidle' hf hpieces).1 hdel).1.room
  omega

end FrameDelivery
end A9GTracker
