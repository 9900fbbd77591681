import A9GTracker.ConfigLoad
import A9GTracker.Lines

/-! Loading in chunks: `ConfigStore_Load` hands over the lines of the file that fit into
the buffer, however the reads are cut. -/
namespace A9GTracker
namespace ChunkedLoading

open CString ConfigLoad Lines

variable {τ δ : Type} {parseLine : τ → List UInt8 → τ}

def shortLines (text : List UInt8) : List (List UInt8) :=
  (lines 10 text).filter fun l => l.length ≤ 254

/-- What the text still to come adds to the store; the first line is dropped when its front
has been skipped. -/
def loadText (parseLine : τ → List UInt8 → τ) (skip : Bool) (text : List UInt8) (store : τ) : τ :=
  ((if skip then (lines 10 text).tail else lines 10 text).filter fun l => l.length ≤ 254).foldl
    parseLine store

theorem loadText_nil (skip : Bool) (store : τ) : loadText parseLine skip [] store = store := by
  cases skip <;> rfl

theorem loadText_line {line : List UInt8} (h : (10 : UInt8) ∉ line) (hlen : line.length ≤ 254)
    (skip : Bool) (text : List UInt8) (store : τ) :
    loadText parseLine skip (line++10::text) store =
      loadText parseLine false text (if skip then store else parseLine store line) := by
  unfold loadText
  rw [lines_append_sep h]
  cases skip <;> simp [hlen]

theorem loadText_last {line : List UInt8} (h : (10 : UInt8) ∉ line) (hne : line ≠ [])
    (hlen : line.length ≤ 254) (skip : Bool) (store : τ) :
    loadText parseLine skip line store = if skip then store else parseLine store line := by
  unfold loadText
  rw [lines_of_notMem h hne]
  cases skip <;> simp [hlen]

/-- A full buffer without a line end is the front of a line that is skipped. -/
theorem loadText_overflow {front : List UInt8} (h : (10 : UInt8) ∉ front)
    (hlen : 254 < front.length) (skip : Bool) (text : List UInt8) (store : τ) :
    loadText parseLine skip (front++text) store = loadText parseLine true text store := by
  have hne : front ≠ [] := by
    rintro rfl
    simp at hlen
  unfold loadText
  cases skip with
  | true => simp [lines_tail_append_of_notMem h text]
  | false =>
    obtain ⟨l,hl,hfront⟩ := lines_append_of_notMem h hne text
    have hlong : ¬ l.length ≤ 254 := by omega
    simp [hl,hlong]

/-! ### The inner loop -/

/-- What the inner loop leaves in the buffer, whatever bytes are there. -/
structure Consumed (fileEnd : Bool) (st st' : LineState τ) : Prop where
  suffix : st'.data <:+ st.data
  shorter : strchr st.data 10 ≠ none → st'.data.length < st.data.length
  atEnd : fileEnd = true → st'.data = []
  overrun : st'.overrun = true → st'.data = [] ∧ fileEnd = true

theorem lineLoop_consumed (parseLine : τ → List UInt8 → τ) (fileEnd : Bool) {n : ℕ}
    (st : LineState τ) (hn : st.data.length ≤ n) (hover : st.overrun = false) :
    Consumed fileEnd st (lineLoop parseLine fileEnd n st) := by
  induction n generalizing st with
  | zero =>
    have hnil : st.data = [] := List.eq_nil_of_length_eq_zero (by omega)
    exact ⟨List.suffix_rfl,by simp [hnil,strchr,cstring],fun _ => hnil,by simp [lineLoop,hover]⟩
  | succ n ih =>
    by_cases hnil : st.data = []
    · rw [lineLoop,if_pos hnil]
      exact ⟨List.suffix_rfl,by simp [hnil,strchr,cstring],fun _ => hnil,by simp [hover]⟩
    · rw [lineLoop,if_neg hnil]
      cases hchr : strchr st.data 10 with
      | some i =>
        have hlt : (st.data.drop (i+1)).length < st.data.length := by
          have hpos := List.length_pos_iff.2 hnil
          rw [List.length_drop]
          omega
        have hrest := ih (takeLine parseLine (st.data.take i) (st.data.drop (i+1)) false st)
          (by rw [takeLine_data]; omega) (by simp)
        have hsuffix := hrest.suffix
        rw [takeLine_data] at hsuffix
        exact ⟨hsuffix.trans (List.drop_suffix _ _),fun _ => hsuffix.length_le.trans_lt hlt,
          hrest.atEnd,hrest.overrun⟩
      | none =>
        cases fileEnd with
        | true => exact ⟨by simp,fun h => absurd hchr h,fun _ => by simp,fun _ => by simp⟩
        | false => exact ⟨List.suffix_rfl,fun h => absurd hchr h,by simp,by simp [hover]⟩

/-- The lines it takes out are the first ones of the text still to come. -/
theorem lineLoop_store (rest : List UInt8) {n : ℕ} (st : LineState τ) (hn : st.data.length ≤ n)
    (h0 : (0 : UInt8) ∉ st.data) (hlen : st.data.length ≤ 255)
    (hshort : (10 : UInt8) ∉ st.data → st.data.length ≤ 254) {l : LineState τ}
    (hl : l = lineLoop parseLine (decide (rest = [])) n st) :
    loadText parseLine l.skipNextLine (l.data++rest) l.store =
      loadText parseLine st.skipNextLine (st.data++rest) st.store := by
  subst hl
  induction n generalizing st with
  | zero => rfl
  | succ n ih =>
    by_cases hnil : st.data = []
    · rw [lineLoop,if_pos hnil]
    · rw [lineLoop,if_neg hnil]
      cases hchr : strchr st.data 10 with
      | some i =>
        obtain ⟨line,data,hdata,rfl,hline,h0line⟩ := strchr_eq_some hchr
        have htake : st.data.take line.length = line := by simp [hdata]
        have hdrop : st.data.drop (line.length+1) = data := by simp [hdata]
        have hlength : st.data.length = line.length+1+data.length := by
          rw [hdata,List.length_append,List.length_cons]
          omega
        simp only [htake,hdrop]
        rw [ih _ (by rw [takeLine_data]; omega)
          (by rw [takeLine_data]; exact fun h => h0 (by simp [hdata,h]))
          (by rw [takeLine_data]; omega) (by rw [takeLine_data]; omega),hdata]
        simp only [takeLine_store,takeLine_data,takeLine_skipNextLine,cstring_eq_self h0line]
        rw [List.append_assoc,List.cons_append,loadText_line hline (by omega)]
      | none =>
        have hno : (10 : UInt8) ∉ st.data := by
          rwa [strchr_eq_none,cstring_eq_self h0] at hchr
        by_cases hend : rest = []
        · rw [decide_eq_true hend]
          simp only [if_true,takeLine_store,takeLine_data,takeLine_skipNextLine,hend,
            List.append_nil]
          rw [loadText_nil,loadText_last hno hnil (hshort hno),cstring_eq_self h0]
        · rw [decide_eq_false hend,if_neg (by simp)]

/-! ### The outer loop -/

/-- The bookkeeping between two reads. -/
structure Reading (st : LoadState τ FileDevice) : Prop where
  fileSize : st.fileSize = st.device.rest.length
  room : st.data.length ≤ 254
  overrun : st.overrun = true → st.data = [] ∧ st.device.rest = []

/-- The unread bytes, and whether the buffer holds any. -/
def loadMeasure (st : LoadState τ FileDevice) : ℕ :=
  2*st.device.rest.length+if st.data = [] then 0 else 1

/-- A read of at least one byte splits the file, and delivers nothing only at its end. -/
theorem fileRead_split (d : FileDevice) {n : ℕ} (hn : 0 < n) :
    ∃ bs, (fileRead d n).1 = .bytes bs ∧ d.rest = bs++(fileRead d n).2.rest ∧ bs.length ≤ n ∧
      (bs = [] → d.rest = []) := by
  refine ⟨d.rest.take (min n (max 1 (d.cuts d.reads))),rfl,?_,?_,?_⟩
  · exact (List.take_append_drop _ _).symm
  · rw [List.length_take]
    omega
  · intro h
    rcases List.take_eq_nil_iff.1 h with h | h
    · omega
    · exact h

structure ReadSplit (st : LoadState τ FileDevice) (bs : List UInt8) (device : FileDevice) :
    Prop where
  rest : st.device.rest = bs++device.rest
  nonempty : st.data++bs ≠ []
  atEnd : bs = [] → st.device.rest = []
  room : (st.data++bs).length ≤ 255

theorem ReadSplit.length_lt {st : LoadState τ FileDevice} {bs : List UInt8} {device : FileDevice}
    (h : ReadSplit st bs device) (hbs : bs ≠ []) :
    device.rest.length < st.device.rest.length := by
  have hpos := List.length_pos_iff.2 hbs
  rw [h.rest,List.length_append]
  omega

/-- One round: at the end of the file it ends the loop, otherwise the buffer grows by the
bytes read and is thrown away or searched for lines. -/
theorem loadBody_cases (parseLine : τ → List UInt8 → τ) {st : LoadState τ FileDevice}
    (h : Reading st) :
    (st.data = [] ∧ st.device.rest = [] ∧
      ∃ device, loadBody parseLine fileRead st = .done ⟨st.store,device,true,true⟩) ∨
    ∃ bs device, ReadSplit st bs device ∧
      loadBody parseLine fileRead st =
        if strchr (st.data++bs) 10 = none ∧ 255 ≤ (st.data++bs).length then
          .next ⟨st.store,device,[],false,st.fileSize-bs.length,true⟩
        else
          let l := lineLoop parseLine (decide (st.fileSize-bs.length ≤ 0)) (st.data++bs).length
            ⟨st.store,st.data++bs,false,st.skipNextLine⟩
          .next ⟨l.store,device,l.data,l.overrun,st.fileSize-bs.length,l.skipNextLine⟩ := by
  cases hov : st.overrun with
  | true =>
    obtain ⟨hdata,hrest⟩ := h.overrun hov
    refine Or.inl ⟨hdata,hrest,(fileRead st.device 256).2,?_⟩
    simp [loadBody,LoadState.leftover,hov,fileRead,hrest]
  | false =>
    have hroom := h.room
    obtain ⟨bs,hbs,hsplit,hlen,hend⟩ := fileRead_split st.device (n := 255-st.data.length) (by omega)
    have hbody := loadBody_bytes parseLine hov (by omega) hbs
    by_cases hempty : st.data++bs = []
    · obtain ⟨hdata,rfl⟩ := List.append_eq_nil_iff.1 hempty
      rw [if_pos hempty] at hbody
      exact Or.inl ⟨hdata,hend rfl,_,hbody⟩
    · rw [if_neg hempty] at hbody
      exact Or.inr ⟨bs,_,⟨hsplit,hempty,hend,by rw [List.length_append]; omega⟩,hbody⟩

section round
variable {st : LoadState τ FileDevice} {bs : List UInt8} {device : FileDevice}

theorem Reading.fileSize_sub (h : Reading st) (hs : ReadSplit st bs device) :
    st.fileSize-bs.length = device.rest.length := by
  rw [h.fileSize,hs.rest,List.length_append]
  omega

theorem reading_overflow (h : Reading st) (hs : ReadSplit st bs device)
    (hfull : 255 ≤ (st.data++bs).length) {st' : LoadState τ FileDevice}
    (hst' : st' = ⟨st.store,device,[],false,st.fileSize-bs.length,true⟩) :
    Reading st' ∧ loadMeasure st' < loadMeasure st := by
  subst hst'
  refine ⟨⟨h.fileSize_sub hs,by simp,by simp⟩,?_⟩
  have hbs : bs ≠ [] := by
    rintro rfl
    have hroom := h.room
    rw [List.append_nil] at hfull
    omega
  have hlt := hs.length_lt hbs
  simp only [loadMeasure]
  split_ifs <;> omega

theorem reading_lines (h : Reading st) (hs : ReadSplit st bs device)
    (hfull : ¬ (strchr (st.data++bs) 10 = none ∧ 255 ≤ (st.data++bs).length)) {l : LineState τ}
    (hl : l = lineLoop parseLine (decide (st.fileSize-bs.length ≤ 0)) (st.data++bs).length
      ⟨st.store,st.data++bs,false,st.skipNextLine⟩) {st' : LoadState τ FileDevice}
    (hst' : st' = ⟨l.store,device,l.data,l.overrun,st.fileSize-bs.length,l.skipNextLine⟩) :
    Reading st' ∧ loadMeasure st' < loadMeasure st := by
  subst hst'
  have hfile := h.fileSize_sub hs
  have hend : decide (st.fileSize-bs.length ≤ 0) = true ↔ device.rest = [] := by
    rw [decide_eq_true_iff,hfile,← List.length_eq_zero_iff]
    omega
  have hcons := lineLoop_consumed parseLine (decide (st.fileSize-bs.length ≤ 0))
    ⟨st.store,st.data++bs,false,st.skipNextLine⟩ le_rfl rfl
  rw [← hl] at hcons
  refine ⟨⟨hfile,?_,fun hover => ?_⟩,?_⟩
  · have hroom := hs.room
    by_cases hchr : strchr (st.data++bs) 10 = none
    · have hle : l.data.length ≤ (st.data++bs).length := hcons.suffix.length_le
      have hnot := not_and.1 hfull hchr
      simp only
      omega
    · have hlt : l.data.length < (st.data++bs).length := hcons.shorter hchr
      simp only
      omega
  · obtain ⟨hdata,hfileEnd⟩ := hcons.overrun hover
    exact ⟨hdata,hend.1 hfileEnd⟩
  · simp only [loadMeasure]
    rcases eq_or_ne bs [] with rfl | hbs
    · have hempty := hs.atEnd rfl
      have hdata : st.data ≠ [] := by simpa using hs.nonempty
      have hrest : device.rest = [] := by simpa [hempty] using hs.rest.symm
      simp [hempty,hrest,hcons.atEnd (hend.2 hrest),hdata]
    · have hlt := hs.length_lt hbs
      split_ifs <;> omega

end round

/-- Every further round keeps the books and shortens what is left, for any file. -/
theorem reading_next {st st' : LoadState τ FileDevice} (h : Reading st)
    (hb : loadBody parseLine fileRead st = .next st') :
    Reading st' ∧ loadMeasure st' < loadMeasure st := by
  rcases loadBody_cases parseLine h with ⟨-,-,device,hdone⟩ | ⟨bs,device,hs,hbody⟩
  · rw [hdone] at hb
    simp at hb
  · rw [hbody] at hb
    split_ifs at hb with hfull
    · exact reading_overflow h hs hfull.2 (Loop.Step.next.inj hb).symm
    · exact reading_lines h hs hfull rfl (Loop.Step.next.inj hb).symm

/-- The text in the buffer and in the file leads to `target`. -/
structure LeadsTo (parseLine : τ → List UInt8 → τ) (target : τ) (st : LoadState τ FileDevice) :
    Prop where
  store : loadText parseLine st.skipNextLine (st.data++st.device.rest) st.store = target
  noNul : (0 : UInt8) ∉ st.data++st.device.rest

theorem leadsTo_next {target : τ} {st st' : LoadState τ FileDevice} (hr : Reading st)
    (h : LeadsTo parseLine target st) (hb : loadBody parseLine fileRead st = .next st') :
    LeadsTo parseLine target st' := by
  rcases loadBody_cases parseLine hr with ⟨-,-,device,hdone⟩ | ⟨bs,device,hs,hbody⟩
  · rw [hdone] at hb
    simp at hb
  have hstore := h.store
  have hnul := h.noNul
  rw [hs.rest,← List.append_assoc] at hstore hnul
  have hnul' : (0 : UInt8) ∉ st.data++bs := fun hmem => hnul (List.mem_append_left _ hmem)
  rw [hbody] at hb
  split_ifs at hb with hfull
  · obtain rfl := Loop.Step.next.inj hb
    have hno : (10 : UInt8) ∉ st.data++bs := by
      rw [← cstring_eq_self hnul']
      exact strchr_eq_none.1 hfull.1
    rw [loadText_overflow hno (by omega)] at hstore
    exact ⟨hstore,fun hmem => hnul (List.mem_append_right _ hmem)⟩
  · obtain rfl := Loop.Step.next.inj hb
    have hshort : (10 : UInt8) ∉ st.data++bs → (st.data++bs).length ≤ 254 := by
      intro hno
      rw [← cstring_eq_self hnul'] at hno
      have hnot := not_and.1 hfull (strchr_eq_none.2 hno)
      omega
    have hend : decide (st.fileSize-bs.length ≤ 0) = decide (device.rest = []) :=
      decide_eq_decide.2 (by rw [hr.fileSize_sub hs,← List.length_eq_zero_iff]; omega)
    rw [hend]
    constructor
    · exact (lineLoop_store device.rest ⟨st.store,st.data++bs,false,st.skipNextLine⟩
        le_rfl hnul' hs.room hshort rfl).trans hstore
    · have hcons := lineLoop_consumed parseLine (decide (device.rest = []))
        ⟨st.store,st.data++bs,false,st.skipNextLine⟩ le_rfl rfl
      intro hmem
      rcases List.mem_append.1 hmem with hmem | hmem
      · exact hnul' (hcons.suffix.subset hmem)
      · exact hnul (List.mem_append_right _ hmem)

theorem leadsTo_done {target : τ} {st : LoadState τ FileDevice} {r : LoadResult τ FileDevice}
    (hr : Reading st) (h : LeadsTo parseLine target st)
    (hb : loadBody parseLine fileRead st = .done r) : r.store = target ∧ r.ret = true := by
  rcases loadBody_cases parseLine hr with ⟨hdata,hrest,device,hdone⟩ | ⟨bs,device,-,hbody⟩
  · rw [hdone] at hb
    obtain rfl := Loop.Step.done.inj hb
    have hstore := h.store
    rw [hdata,hrest,List.append_nil,loadText_nil] at hstore
    exact ⟨hstore,rfl⟩
  · rw [hbody] at hb
    split_ifs at hb

/-! ### The whole load -/

/-- Loading a file of any content ends. -/
theorem configStoreLoad_returns (parseLine : τ → List UInt8 → τ) (store : τ)
    (text : List UInt8) (cuts : ℕ → ℕ) :
    ∃ fuel r, configStoreLoad parseLine fileRead true text.length fuel store ⟨text,cuts,0⟩ =
      some r := by
  simp only [configStoreLoad,not_true_eq_false,if_false]
  split_ifs with hsize
  · exact ⟨0,_,rfl⟩
  · have hinit : Reading (⟨store,⟨text,cuts,0⟩,[],false,text.length,false⟩ :
        LoadState τ FileDevice) := ⟨rfl,by simp,by simp⟩
    obtain ⟨r,hr,-⟩ := Loop.run_total Reading (fun _ => True) loadMeasure
      (fun _ _ h hb => reading_next h hb) (fun _ _ _ _ => trivial) _ hinit
    exact ⟨_,r,hr⟩

section invariant
variable {I : τ → Prop}
  (hline : ∀ store line, (0 : UInt8) ∉ line → I store → I (parseLine store line))
include hline

theorem takeLine_invariant (line rest : List UInt8) (overrun : Bool) {st : LineState τ}
    (h : I st.store) : I (takeLine parseLine line rest overrun st).store := by
  rw [takeLine_store]
  split_ifs
  · exact h
  · exact hline _ _ (zero_notMem_cstring line) h

theorem lineLoop_invariant (fileEnd : Bool) {n : ℕ} {st : LineState τ} (h : I st.store) :
    I (lineLoop parseLine fileEnd n st).store := by
  induction n generalizing st with
  | zero => exact h
  | succ n ih =>
    by_cases hnil : st.data = []
    · rw [lineLoop,if_pos hnil]
      exact h
    · rw [lineLoop,if_neg hnil]
      cases strchr st.data 10 with
      | some i => exact ih (takeLine_invariant hline _ _ _ h)
      | none =>
        cases fileEnd with
        | true => exact takeLine_invariant hline _ _ _ h
        | false => exact h

theorem loadBody_invariant {read : δ → ℕ → ReadResult × δ} {st : LoadState τ δ}
    (h : I st.store) :
    (∀ st', loadBody parseLine read st = .next st' → I st'.store) ∧
      ∀ r, loadBody parseLine read st = .done r → I r.store := by
  rcases loadBody_outcomes parseLine read st with ⟨ret,hdone⟩ | ⟨s,hnext,-,hstore⟩
  · rw [hdone]
    exact ⟨by simp,fun r hb => Loop.Step.done.inj hb ▸ h⟩
  · rw [hnext]
    refine ⟨fun st' hb => ?_,by simp⟩
    obtain rfl := Loop.Step.next.inj hb
    rcases hstore with hsame | ⟨fileEnd,n,data,hlines⟩
    · rwa [hsame]
    · rw [hlines]
      exact lineLoop_invariant hline _ h

theorem configStoreLoad_invariant {read : δ → ℕ → ReadResult × δ} {opened : Bool} {fileSize : ℤ}
    {fuel : ℕ} {store : τ} {device : δ} {r : LoadResult τ δ} (hstore : I store)
    (hr : configStoreLoad parseLine read opened fileSize fuel store device = some r) :
    I r.store := by
  unfold configStoreLoad at hr
  split_ifs at hr
  · exact Option.some.inj hr ▸ hstore
  · exact Loop.run_partial (fun st : LoadState τ δ => I st.store)
      (fun r : LoadResult τ δ => I r.store)
      (fun _ st' h hb => (loadBody_invariant hline h).1 st' hb)
      (fun _ r h hb => (loadBody_invariant hline h).2 r hb) hstore hr
  · exact Option.some.inj hr ▸ hstore

end invariant

theorem configStoreLoad_store {store : τ} {text : List UInt8} (h0 : (0 : UInt8) ∉ text)
    {cuts : ℕ → ℕ} {fuel : ℕ} {r : LoadResult τ FileDevice}
    (hr : configStoreLoad parseLine fileRead true text.length fuel store ⟨text,cuts,0⟩ = some r) :
    r.store = (shortLines text).foldl parseLine store ∧ r.ret = true := by
  simp only [configStoreLoad,not_true_eq_false,if_false] at hr
  split_ifs at hr with hsize
  · obtain rfl := Option.some.inj hr
    obtain rfl : text = [] := List.eq_nil_of_length_eq_zero (by omega)
    exact ⟨rfl,rfl⟩
  · let target := (shortLines text).foldl parseLine store
    have hinit : LeadsTo parseLine target ⟨store,⟨text,cuts,0⟩,[],false,text.length,false⟩ :=
      ⟨rfl,h0⟩
    exact Loop.run_partial (fun st => Reading st ∧ LeadsTo parseLine target st)
      (fun r => r.store = target ∧ r.ret = true)
      (fun _ _ h hb => ⟨(reading_next h.1 hb).1,leadsTo_next h.1 h.2 hb⟩)
      (fun _ _ h hb => leadsTo_done h.1 h.2 hb) ⟨⟨rfl,by simp,by simp⟩,hinit⟩ hr

/-- For every file without NUL and every way to cut the reads, loading ends and has handed
over exactly the lines of at most 254 bytes, in the order of the file. -/
theorem configStoreLoad_eq_lines (parseLine : τ → List UInt8 → τ) (store : τ) (text : List UInt8)
    (h0 : (0 : UInt8) ∉ text) (cuts : ℕ → ℕ) :
    (∃ fuel r, configStoreLoad parseLine fileRead true text.length fuel store ⟨text,cuts,0⟩ =
      some r) ∧
    ∀ fuel r, configStoreLoad parseLine fileRead true text.length fuel store ⟨text,cuts,0⟩ =
      some r → r.store = (shortLines text).foldl parseLine store ∧ r.ret = true :=
  ⟨configStoreLoad_returns parseLine store text cuts,fun _ _ hr => configStoreLoad_store h0 hr⟩

theorem configStoreLoad_eq_lines_two :
    ∃ fuel r, configStoreLoad (fun calls line => calls++[line]) fileRead true 12 fuel []
      ⟨lit "port = 80\r\nx",fun _ => 5,0⟩ = some r ∧
        r.store = [lit "port = 80\r",lit "x"] ∧ r.ret = true := by
  obtain ⟨⟨fuel,r,hr⟩,hall⟩ := configStoreLoad_eq_lines (fun calls line => calls++[line]) []
    (lit "port = 80\r\nx") (by decide) fun _ => 5
  exact ⟨fuel,r,hr,hall fuel r hr⟩

end ChunkedLoading
end A9GTracker
