import Mathlib.Data.List.Basic
import A9GTracker.ChunkedStream
import A9GTracker.LastPosition
import A9GTracker.SentenceRoundTrip

/-! A stream of epochs. A receiver sends its sentences once a second, the VTG sentence last;
whatever chunks the bytes arrive in, the last frame of each kind is what the tracker shows. -/
namespace A9GTracker
namespace EpochStream

open CString Utils Minmea GpsParse Gps Search Chop FrameExtraction FrameSequence SentenceSplitting
  StreamConservation ChunkedStream SentenceFields SentenceCheck SentenceRoundTrip

/-! ### Lines -/

structure Line (sentence line : List UInt8) : Prop where
  text_eq : sentence = line++lit "\r\n"
  first : line.head? = some 36
  printable : ∀ c ∈ line, isprint c = true

theorem isprint_of_hex {c : UInt8} (h : hex2int c ≠ -1) : isprint c = true := by
  by_contra hno
  refine h ?_
  have hcases : c.toNat < 32 ∨ 126 < c.toNat := by
    rw [isprint_iff] at hno
    omega
  simp only [hex2int,UInt8.le_iff_toNat_le]
  split_ifs with hdigit hcapital hsmall
  · have h48 : 48 ≤ c.toNat := hdigit.1
    have h57 : c.toNat ≤ 57 := hdigit.2
    omega
  · have h65 : 65 ≤ c.toNat := hcapital.1
    have h70 : c.toNat ≤ 70 := hcapital.2
    omega
  · have h97 : 97 ≤ c.toNat := hsmall.1
    have h102 : c.toNat ≤ 102 := hsmall.2
    omega
  · rfl

theorem lineEnd_of_suffix {text eol : List UInt8} (htext : ∀ c ∈ text, isprint c = true)
    (heol : LineEnd eol) (h : lit "\r\n" <:+ text++eol) : eol = lit "\r\n" := by
  obtain ⟨t,ht⟩ := h
  have hcr : (13 : UInt8) ∉ text := fun hc => absurd (htext 13 hc) (by decide)
  have hlf : (10 : UInt8) ∉ text := fun hc => absurd (htext 10 hc) (by decide)
  rcases heol with rfl | rfl | rfl
  · rw [List.append_nil] at ht
    exact absurd (ht ▸ by simp [lit] : (13 : UInt8) ∈ text) hcr
  · have hlast : t++[13] = text := by
      refine List.append_cancel_right (?_ : (t++[13])++lit "\n" = text++lit "\n")
      rw [← ht,List.append_assoc]
      rfl
    exact absurd (hlast ▸ by simp : (13 : UInt8) ∈ text) hcr
  · rfl

theorem framed_line {strict : Bool} {sentence : List UInt8} (h : Framed strict sentence)
    (hend : lit "\r\n" <:+ sentence) : ∃ line, Line sentence line := by
  have hdollar : isprint 36 = true := by decide
  have hstar : isprint 42 = true := by decide
  cases h with
  | @checked body eol upper lower hbody hsum heol =>
    have hprint : ∀ c ∈ 36::(body++[42,upper,lower]), isprint c = true := by
      intro c hc
      simp only [List.mem_cons,List.mem_append,List.not_mem_nil,or_false] at hc
      rcases hc with rfl | hc | rfl | rfl | rfl
      · exact hdollar
      · exact (hbody c hc).1
      · exact hstar
      · exact isprint_of_hex hsum.upper_hex
      · exact isprint_of_hex hsum.lower_hex
    have htext : 36::(body++42::upper::lower::eol) = 36::(body++[42,upper,lower])++eol := by simp
    rw [htext] at hend ⊢
    rw [lineEnd_of_suffix hprint heol hend]
    exact ⟨_,rfl,rfl,hprint⟩
  | @unchecked body eol _ hbody heol =>
    have hprint : ∀ c ∈ 36::body, isprint c = true := by
      intro c hc
      rcases List.mem_cons.1 hc with rfl | hc
      · exact hdollar
      · exact (hbody c hc).1
    rw [← List.cons_append] at hend ⊢
    rw [lineEnd_of_suffix hprint heol hend]
    exact ⟨_,rfl,rfl,hprint⟩

theorem writes_line {m : Message} {sentence : List UInt8} (h : Writes m sentence)
    (hend : lit "\r\n" <:+ sentence) : ∃ line, Line sentence line := by
  obtain ⟨values,hread⟩ := h.read
  exact framed_line ((minmeaCheck_iff _ _).1 hread.check).2 hend

section line
variable {sentence line : List UInt8}

theorem Line.no_nul (h : Line sentence line) : (0 : UInt8) ∉ sentence := by
  rw [h.text_eq]
  intro h0
  rcases List.mem_append.1 h0 with h0 | h0
  · exact absurd (h.printable 0 h0) (by decide)
  · exact absurd h0 (by decide)

theorem Line.find_end (h : Line sentence line) {k : ℕ} (hk : k ≤ line.length)
    (rest : List UInt8) : find (lit "\r\n") ((sentence++rest).drop k) = some (line.length-k) := by
  have hclean : ∀ i, ¬ Occurs (lit "\r\n") (line.drop k) i := by
    intro i ho
    have hat := ho.getElem? (j := 0) (by decide)
    have hmem : (13 : UInt8) ∈ line.drop k := List.mem_of_getElem? (hat.trans rfl)
    exact absurd (h.printable 13 (List.mem_of_mem_drop hmem)) (by decide)
  rw [h.text_eq,List.append_assoc,List.drop_append_of_le_length hk,
    find_append_of_begins (by decide) (by decide) hclean (List.prefix_append _ _),List.length_drop]

theorem Line.firstSentence (h : Line sentence line) (rest : List UInt8) :
    firstSentence (sentence++rest) = some (0,sentence.length) := by
  have hdollar : find (lit "$") (sentence++rest) = some 0 := by
    obtain ⟨t,ht⟩ := List.head?_eq_some_iff.1 h.first
    rw [h.text_eq,ht]
    rfl
  have hend := h.find_end (Nat.zero_le _) rest
  rw [List.drop_zero,Nat.sub_zero] at hend
  have hlength : sentence.length = line.length+2 := by rw [h.text_eq,List.length_append]; rfl
  simp only [SentenceSplitting.firstSentence,hdollar,List.drop_zero,hend,Option.map_some,hlength]

theorem Line.passed (h : Line sentence line) (rest : List UInt8) :
    passed (sentence++rest) = sentence::SentenceSplitting.passed rest := by
  rw [passed_some (h.firstSentence rest),List.drop_zero,List.take_left',List.drop_left']
  · rfl
  · rfl

end line

/-! ### Epochs -/

/-- The sentences of one second. Only the last one, the VTG sentence, holds its name. -/
structure Epoch where
  before : List (Message × List UInt8)
  track : Vtg
  last : List UInt8
  written : ∀ p ∈ before, Writes p.1 p.2 ∧ lit "\r\n" <:+ p.2 ∧ ∀ i, ¬ Occurs vtg p.2 i
  last_written : Writes (.vtg track) last
  last_ends : lit "\r\n" <:+ last
  fits : (before.map fun p => p.2).flatten.length+last.length ≤ 1024

def Epoch.sentences (e : Epoch) : List (Message × List UInt8) := e.before++[(.vtg e.track,e.last)]

def Epoch.text (e : Epoch) : List UInt8 := (e.sentences.map fun p => p.2).flatten

theorem Epoch.text_eq (e : Epoch) :
    e.text = (e.before.map fun p => p.2).flatten++e.last := by
  simp [Epoch.text,Epoch.sentences]

/-- An occurrence that begins in a piece does not cross its last symbol, which is none of the
pattern's. -/
theorem occurs_in_piece {p a ys : List UInt8} {c : UInt8} (hc : c ∉ p) {i : ℕ}
    (hi : i < (a++[c]).length) (h : Occurs p (a++[c]++ys) i) : Occurs p (a++[c]) i := by
  by_cases hfit : i+p.length ≤ (a++[c]).length
  · rw [Occurs,List.drop_append_of_le_length hi.le] at h
    exact List.prefix_of_prefix_length_le h (List.prefix_append _ _)
      (by rw [List.length_drop]; omega)
  · rw [List.length_append,List.length_singleton] at hi hfit
    have hat := h.getElem? (j := a.length-i) (by omega)
    have hlast : (a++[c]++ys)[a.length]? = some c := by
      rw [List.append_assoc,List.getElem?_append_right le_rfl,Nat.sub_self]
      rfl
    rw [show i+(a.length-i) = a.length by omega,hlast] at hat
    exact absurd (List.mem_of_getElem? hat.symm) hc

theorem not_occurs_before {before : List (Message × List UInt8)}
    (h : ∀ p ∈ before, Writes p.1 p.2 ∧ lit "\r\n" <:+ p.2 ∧ ∀ i, ¬ Occurs vtg p.2 i)
    (ys : List UInt8) : ∀ i < (before.map fun p => p.2).flatten.length,
      ¬ Occurs vtg ((before.map fun p => p.2).flatten++ys) i := by
  induction before with
  | nil => simp
  | cons p before ih =>
    obtain ⟨-,⟨t,ht⟩,hclean⟩ := h p (by simp)
    intro i hi ho
    rw [List.map_cons,List.flatten_cons] at hi ho
    rw [List.append_assoc] at ho
    by_cases hin : i < p.2.length
    · refine hclean i ?_
      have hp : p.2 = (t++[13])++[10] := by
        rw [← ht,List.append_assoc]
        rfl
      rw [hp] at hin ho ⊢
      exact occurs_in_piece (by decide) hin ho
    · obtain ⟨k,rfl⟩ := Nat.exists_eq_add_of_le (not_lt.1 hin)
      rw [List.length_append] at hi
      refine ih (fun q hq => h q (by simp [hq])) k (by omega) ?_
      rwa [← occurs_drop,List.drop_left] at ho

theorem writes_name {m : Message} {sentence : List UInt8} (h : Writes m sentence) :
    Occurs m.name sentence 3 := by
  obtain ⟨talker,values,fields,tail,htalker,-,hspelled,-,-,rfl⟩ := h.spelled
  obtain ⟨format,hformat⟩ := m.format_eq
  rw [hformat] at hspelled
  cases hspelled with
  | @field _ _ _ text fields _ _ hv hrest =>
    cases hv with
    | type =>
      have hfields : ∃ behind, joinFields ((36::(talker++m.name))::fields)++tail =
          (36::talker)++(m.name++behind) := by
        cases fields with
        | nil => exact ⟨tail,by simp [joinFields]⟩
        | cons next fields => exact ⟨44::(joinFields (next::fields)++tail),by simp [joinFields]⟩
      obtain ⟨behind,hbehind⟩ := hfields
      rw [hbehind,Occurs,List.drop_left' (by simp [htalker])]
      exact List.prefix_append _ _

theorem Epoch.long (e : Epoch) : 6 ≤ e.last.length := by
  have hname : Occurs vtg e.last 3 := writes_name e.last_written
  exact hname.add_length_le (by decide)

theorem Epoch.frameCut (e : Epoch) (rest : List UInt8) :
    frameCut (e.text++rest) = e.text.length := by
  obtain ⟨line,hline⟩ := writes_line e.last_written e.last_ends
  have hname : Occurs vtg (e.last++rest) 3 :=
    (writes_name e.last_written).extend (List.prefix_append _ _)
  obtain ⟨k,hk,hk3⟩ : ∃ k, find vtg (e.last++rest) = some k ∧ k ≤ 3 := by
    cases hf : find vtg (e.last++rest) with
    | none => exact absurd hname (find_none hf 3)
    | some k => exact ⟨k,rfl,not_lt.1 fun hlt => (find_spec hf).2 3 hlt hname⟩
  have hlast : e.last.length = line.length+2 := by rw [hline.text_eq,List.length_append]; rfl
  have hlong := e.long
  have hend := hline.find_end (k := k) (by omega) rest
  have hv : find vtg (e.text++rest) =
      some (k+(e.before.map fun p => p.2).flatten.length) := by
    rw [e.text_eq,List.append_assoc,
      find_append_of_not_occurs (not_occurs_before e.written (e.last++rest)),hk]
    rfl
  have hc : find (lit "\r\n") ((e.text++rest).drop
      (k+(e.before.map fun p => p.2).flatten.length)) = some (line.length-k) := by
    rw [e.text_eq,List.append_assoc,Nat.add_comm,← List.drop_drop,List.drop_left,hend]
  have hfits := e.fits
  have hlength : e.text.length = (e.before.map fun p => p.2).flatten.length+e.last.length := by
    rw [e.text_eq,List.length_append]
  simp only [FrameSequence.frameCut,hv,hc]
  omega

theorem frames_epoch (e : Epoch) (rest : List UInt8) :
    frames (e.text++rest) = e.text::frames rest := by
  have hpos : 0 < e.text.length := by
    have hlong := e.long
    rw [e.text_eq,List.length_append]
    omega
  have hcut := e.frameCut rest
  rw [frames,chop_next frameCut_le (by omega),hcut,List.take_left,List.drop_left]
  rfl

/-- However much of the stream has come in, what is not yet framed is shorter than an epoch. -/
theorem unframed_short (epochs : List Epoch) {part : List UInt8} (hpart : part.length ≤ 1024)
    (hvtg : ∀ i, ¬ Occurs vtg part i) {sent : List UInt8}
    (hsent : sent <+: (epochs.map Epoch.text).flatten++part) :
    ∃ rest, (frames sent).flatten++rest = sent ∧ rest.length ≤ 1024 := by
  induction epochs generalizing sent with
  | nil =>
    have hnone : find vtg sent = none := by
      cases hf : find vtg sent with
      | none => rfl
      | some i => exact absurd ((find_spec hf).1.extend hsent) (hvtg i)
    have hframes : frames sent = [] := chop_stop sent (by simp [frameCut,hnone])
    exact ⟨sent,by rw [hframes]; rfl,hsent.length_le.trans hpart⟩
  | cons e epochs ih =>
    rw [List.map_cons,List.flatten_cons,List.append_assoc] at hsent
    by_cases hlong : e.text.length ≤ sent.length
    · obtain ⟨later,rfl⟩ := List.prefix_of_prefix_length_le (List.prefix_append _ _) hsent hlong
      obtain ⟨rest,hrest,hshort⟩ := ih ((List.prefix_append_right_inj _).1 hsent)
      refine ⟨rest,?_,hshort⟩
      rw [frames_epoch,List.flatten_cons,List.append_assoc,hrest]
    · obtain ⟨t,ht⟩ := List.prefix_of_prefix_length_le hsent (List.prefix_append _ _)
        (not_le.1 hlong).le
      have hcut : frameCut sent = 0 := by
        by_contra hne
        have hwhole := frameCut_append sent t hne
        have hepoch := e.frameCut []
        rw [List.append_nil] at hepoch
        rw [ht,hepoch] at hwhole
        have hle := frameCut_le sent
        omega
      have hframes : frames sent = [] := chop_stop sent hcut
      have hfits := e.fits
      have hlength : e.text.length = (e.before.map fun p => p.2).flatten.length+e.last.length := by
        rw [e.text_eq,List.length_append]
      exact ⟨sent,by rw [hframes]; rfl,by omega⟩

/-- In chunks of whole lines, each shorter than 1024 bytes, every byte of a stream of epochs is
taken in and every call returns. -/
theorem lines_taken_in (log : LogSetting) (epochs : List Epoch) {part : List UInt8}
    (hpart : part.length ≤ 1024) (hvtg : ∀ i, ¬ Occurs vtg part i) {chunks : List (List UInt8)}
    (hlines : ∀ c ∈ chunks, c.length < 1024 ∧ lit "\r\n" <:+ c)
    (hstream : chunks.flatten <+: (epochs.map Epoch.text).flatten++part) :
    ∃ st, QueueWedge.Taken (gpsBoot log) chunks st ∧ StreamRun log chunks st := by
  induction chunks using List.reverseRecOn with
  | nil => exact ⟨_,.nil _,.boot⟩
  | append_singleton chunks c ih =>
    rw [List.flatten_append,List.flatten_singleton] at hstream
    have hbefore := (List.prefix_append chunks.flatten c).trans hstream
    obtain ⟨st,htaken,hrun⟩ := ih (fun d hd => hlines d (by simp [hd])) hbefore
    obtain ⟨rest,hrest,hshort⟩ := unframed_short epochs hpart hvtg hbefore
    obtain ⟨hlength,t,ht⟩ := hlines c (by simp)
    have hqueue : queue st = rest :=
      List.append_cancel_left ((run_decodes hrun).queued.trans hrest.symm)
    have hclosed : EveryVtgClosed (queue st++c) := by
      intro i hi
      have hl : i+3 ≤ (queue st++c).length := hi.add_length_le (by decide)
      rw [List.length_append,← ht,List.length_append] at hl
      have htwo : (lit "\r\n").length = 2 := by decide
      refine ⟨(queue st).length+t.length,by omega,?_⟩
      rw [Occurs,← ht,← List.append_assoc,← List.length_append,List.drop_left]
    obtain ⟨st',hone,hnext⟩ := run_takes hrun (by rw [hqueue]; omega) hclosed
    exact ⟨st',htaken.append hone,hnext⟩

/-! ### What the parser keeps -/

def trackText : List UInt8 := lit "$GPVTG,360.0,T,348.7,M,000.0,N,000.0,K*43\r\n"

theorem track_writes : Writes (.vtg ⟨⟨3600,10⟩,⟨3487,10⟩,⟨0,10⟩,⟨0,10⟩,0⟩) trackText where
  spelled := by
    refine ⟨lit "GP",_,[lit "$GPVTG",lit "360.0",lit "T",lit "348.7",lit "M",lit "000.0",lit "N",
      lit "000.0",lit "K"],lit "*43\r\n",by decide,.vtg,?_,by decide +kernel,?_,by decide⟩
    · exact .field (.type (by decide) (by decide +kernel))
        (.field (denotes_decimal (lit "360") (lit "0") (by decide)) (.field (.char (by decide))
        (.field (denotes_decimal (lit "348") (lit "7") (by decide)) (.field (.char (by decide))
        (.field (denotes_decimal (lit "000") (lit "0") (by decide)) (.field (.char (by decide))
        (.field (denotes_decimal (lit "000") (lit "0") (by decide)) (.field (.char (by decide))
        (.semicolon (.missing rfl .done))))))))))
    · exact .checked ⟨by decide,by decide,by decide⟩ (Or.inr (Or.inr rfl))
  short := by decide

def fixEpoch : Epoch where
  before := [(.rmc fixFrame,fixText)]
  track := ⟨⟨3600,10⟩,⟨3487,10⟩,⟨0,10⟩,⟨0,10⟩,0⟩
  last := trackText
  written p hp := by
    obtain rfl := List.mem_singleton.1 hp
    refine ⟨fix_writes,?_,find_none ?_⟩
    · show lit "\r\n" <:+ fixText
      decide
    · show find vtg fixText = none
      decide
  last_written := track_writes
  last_ends := by decide
  fits := by decide

theorem lines_taken_in_fix : ∃ st,
    QueueWedge.Taken (gpsBoot ⟨false,.null⟩) [fixText,trackText] st ∧
      StreamRun ⟨false,.null⟩ [fixText,trackText] st := by
  refine lines_taken_in ⟨false,.null⟩ [fixEpoch] (by decide : ([] : List UInt8).length ≤ 1024)
    (find_none rfl) ?_ ?_
  · intro c hc
    rcases List.mem_pair.1 hc with rfl | rfl <;> decide
  · exact ⟨[],by decide +kernel⟩

end EpochStream
end A9GTracker
