import A9GTracker.ChunkedLoading

/-! When the loop of `ConfigStore_Load` ends. What it keeps in the buffer between two reads is
a function of the bytes delivered so far, byte by byte and however they are cut. -/
namespace A9GTracker
namespace LoadTermination

open CString ConfigLoad ChunkedLoading

/-! ### The unfinished line -/

/-- The buffer behind one more byte: a line end that is visible empties it, and so does the
byte that fills it. A NUL hides all line ends behind it. -/
def feed (data : List UInt8) (b : UInt8) : List UInt8 :=
  if b = 10 ∧ (0 : UInt8) ∉ data then [] else if data.length = 254 then [] else data++[b]

def fragment (data bs : List UInt8) : List UInt8 := bs.foldl feed data

@[simp] theorem fragment_nil (data : List UInt8) : fragment data [] = data := rfl

theorem fragment_append (data bs cs : List UInt8) :
    fragment data (bs++cs) = fragment (fragment data bs) cs :=
  List.foldl_append

/-- A buffer without a visible line end takes all bytes up to the last free place. -/
theorem fragment_of_none {data bs : List UInt8} (h : (10 : UInt8) ∉ cstring (data++bs))
    (hlen : (data++bs).length ≤ 254) : fragment data bs = data++bs := by
  induction bs generalizing data with
  | nil => simp
  | cons b bs ih =>
    have hb : ¬ (b = 10 ∧ (0 : UInt8) ∉ data) := by
      rintro ⟨rfl,h0⟩
      exact h ((mem_cstring_append (by decide)
        (fun hmem => h (by rw [cstring_append h0]; simp [hmem])) bs).2 h0)
    have hroom : data.length ≠ 254 := by
      simp only [List.length_append,List.length_cons] at hlen
      omega
    have hcons : fragment data (b::bs) = fragment (data++[b]) bs := by
      simp [fragment,feed,hb,hroom]
    rw [hcons,ih (by simpa using h) (by simpa using hlen)]
    simp

theorem fragment_of_full {data bs : List UInt8} (h : (10 : UInt8) ∉ cstring (data++bs))
    (hdata : data.length ≤ 254) (hlen : (data++bs).length = 255) : fragment data bs = [] := by
  rcases List.eq_nil_or_concat' bs with rfl | ⟨front,b,rfl⟩
  · rw [List.append_nil] at hlen
    omega
  have hfront : (10 : UInt8) ∉ cstring (data++front) := by
    intro hmem
    obtain ⟨z,hz,-⟩ := exists_cstring_append (data++front)
    have h0 := zero_notMem_cstring (data++front)
    rw [← List.append_assoc,hz,List.append_assoc,cstring_append h0] at h
    exact h (List.mem_append_left _ hmem)
  have hlen' : (data++front).length = 254 := by
    simp only [List.length_append,List.length_cons,List.length_nil] at hlen ⊢
    omega
  rw [fragment_append,fragment_of_none hfront hlen'.le]
  simp [fragment,feed,hlen']

theorem fragment_of_some {data : List UInt8} {i : ℕ} (h : strchr data 10 = some i)
    (hlen : data.length ≤ 255) : fragment [] data = fragment [] (data.drop (i+1)) := by
  obtain ⟨a,b,rfl,rfl,ha,h0⟩ := strchr_eq_some h
  have hdrop : (a++10::b).drop (a.length+1) = b := by simp
  have hfront : fragment [] a = a := by
    refine fragment_of_none (by rwa [List.nil_append,cstring_eq_self h0]) ?_
    simp only [List.length_append,List.length_cons] at hlen
    simpa using (by omega : a.length ≤ 254)
  have hend : feed a 10 = [] := by simp [feed,h0]
  rw [hdrop,fragment_append,hfront]
  exact congrArg (fun data => fragment data b) hend

structure Unfinished (data : List UInt8) : Prop where
  noLineEnd : (10 : UInt8) ∉ cstring data
  room : data.length ≤ 254

theorem Unfinished.fragment_eq {data : List UInt8} (h : Unfinished data) :
    fragment [] data = data :=
  @fragment_of_none [] data h.noLineEnd h.room

theorem unfinished_nil : Unfinished [] := ⟨by simp [cstring],by simp⟩

theorem Unfinished.feed {data : List UInt8} (h : Unfinished data) (b : UInt8) :
    Unfinished (feed data b) := by
  unfold LoadTermination.feed
  split_ifs with hend hfull
  · exact unfinished_nil
  · exact unfinished_nil
  · constructor
    · by_cases h0 : (0 : UInt8) ∈ data
      · obtain ⟨a,z,rfl,ha⟩ := List.eq_append_cons_of_mem h0
        have hno := h.noLineEnd
        rw [cstring_append ha] at hno
        rw [List.append_assoc,cstring_append ha]
        simpa [cstring] using hno
      · have hb : b ≠ 10 := fun heq => hend ⟨heq,h0⟩
        have hno := h.noLineEnd
        rw [cstring_eq_self h0] at hno
        rw [cstring_append h0]
        intro hmem
        rcases List.mem_append.1 hmem with hmem | hmem
        · exact hno hmem
        · have hin := (List.takeWhile_prefix _).subset hmem
          exact hb (List.mem_singleton.1 hin).symm
    · have hroom := h.room
      rw [List.length_append,List.length_singleton]
      omega

theorem Unfinished.fragment {data : List UInt8} (h : Unfinished data) (bs : List UInt8) :
    Unfinished (fragment data bs) := by
  induction bs generalizing data with
  | nil => exact h
  | cons b bs ih => exact ih (h.feed b)

/-! ### The loop over the lines -/

variable {τ δ : Type} {parseLine : τ → List UInt8 → τ}

/-- The inner loop leaves the unfinished line, or takes it as the last one. -/
theorem lineLoop_data (parseLine : τ → List UInt8 → τ) (fileEnd : Bool) {n : ℕ}
    (st : LineState τ) (hn : st.data.length ≤ n) (hover : st.overrun = false)
    (hlen : st.data.length ≤ 255)
    (hfull : ¬ (strchr st.data 10 = none ∧ 255 ≤ st.data.length)) :
    (lineLoop parseLine fileEnd n st).data = (if fileEnd then [] else fragment [] st.data) ∧
      (lineLoop parseLine fileEnd n st).overrun =
        (fileEnd && decide (fragment [] st.data ≠ [])) := by
  induction n generalizing st with
  | zero =>
    have hnil : st.data = [] := List.eq_nil_of_length_eq_zero (by omega)
    simp [lineLoop,hnil,hover]
  | succ n ih =>
    by_cases hnil : st.data = []
    · rw [lineLoop,if_pos hnil]
      simp [hnil,hover]
    · rw [lineLoop,if_neg hnil]
      cases hchr : strchr st.data 10 with
      | some i =>
        have hlt : (st.data.drop (i+1)).length < st.data.length := by
          have hpos := List.length_pos_iff.2 hnil
          rw [List.length_drop]
          omega
        rw [fragment_of_some hchr hlen]
        have hrest := ih (takeLine parseLine (st.data.take i) (st.data.drop (i+1)) false st)
          (by rw [takeLine_data]; omega) (by simp) (by rw [takeLine_data]; omega)
          (by rw [takeLine_data]; omega)
        rwa [takeLine_data] at hrest
      | none =>
        have hroom : st.data.length ≤ 254 := by
          by_contra hgt
          exact hfull ⟨hchr,by omega⟩
        have hkeep := Unfinished.fragment_eq ⟨strchr_eq_none.1 hchr,hroom⟩
        cases fileEnd with
        | true => simp [hkeep,hnil]
        | false => simp [hkeep,hover]

/-! ### One round -/

structure After (st : LoadState τ δ) (bs : List UInt8) (device : δ) (st' : LoadState τ δ) :
    Prop where
  device : st'.device = device
  fileSize : st'.fileSize = st.fileSize-bs.length
  data : st'.data = if st'.fileSize ≤ 0 then [] else fragment st.data bs
  overrun : st'.overrun = true ↔ st'.fileSize ≤ 0 ∧ fragment st.data bs ≠ []

theorem loadBody_unfinished (parseLine : τ → List UInt8 → τ) {read : δ → ℕ → ReadResult × δ}
    {st : LoadState τ δ} (hover : st.overrun = false) (hdata : Unfinished st.data)
    {bs : List UInt8} (hread : (read st.device (255-st.data.length)).1 = .bytes bs)
    (hlen : bs.length ≤ 255-st.data.length) :
    (st.data = [] ∧ bs = [] ∧
      loadBody parseLine read st =
        .done ⟨st.store,(read st.device (255-st.data.length)).2,true,true⟩) ∨
    (st.data++bs ≠ [] ∧ ∃ st', loadBody parseLine read st = .next st' ∧
      After st bs (read st.device (255-st.data.length)).2 st') := by
  have hroom := hdata.room
  have hbody := loadBody_bytes parseLine hover (hroom.trans (by decide)) hread
  have hle : (st.data++bs).length ≤ 255 := by
    rw [List.length_append]
    omega
  have hfragment : fragment [] (st.data++bs) = fragment st.data bs := by
    rw [fragment_append,hdata.fragment_eq]
  by_cases hempty : st.data++bs = []
  · obtain ⟨hnil,hbs⟩ := List.append_eq_nil_iff.1 hempty
    rw [if_pos hempty] at hbody
    exact Or.inl ⟨hnil,hbs,hbody⟩
  · refine Or.inr ⟨hempty,?_⟩
    rw [hbody,if_neg hempty]
    split_ifs with hskip
    · refine ⟨_,rfl,rfl,rfl,?_,?_⟩
      all_goals
        have hgone : fragment st.data bs = [] :=
          fragment_of_full (strchr_eq_none.1 hskip.1) hroom (by omega)
        simp [hgone]
    · have hlines := lineLoop_data parseLine (decide (st.fileSize-bs.length ≤ 0))
        ⟨st.store,st.data++bs,false,st.skipNextLine⟩ le_rfl rfl hle hskip
      simp only [hfragment] at hlines
      refine ⟨_,rfl,rfl,rfl,?_,?_⟩
      · rw [hlines.1]
        simp
      · rw [hlines.2]
        simp

/-- Behind an unterminated last line the byte read first is lost, and nothing stays in the
buffer. -/
theorem loadBody_overrun (parseLine : τ → List UInt8 → τ) {read : δ → ℕ → ReadResult × δ}
    {st : LoadState τ δ} (hover : st.overrun = true) (hpast : st.fileSize ≤ 0) {bs : List UInt8}
    (hread : (read st.device 256).1 = .bytes bs) :
    (∃ r, loadBody parseLine read st = .done r) ∨
    (2 ≤ bs.length ∧ ∃ st', loadBody parseLine read st = .next st' ∧
      st'.device = (read st.device 256).2 ∧ st'.fileSize = st.fileSize-bs.length ∧
      st'.data = []) := by
  have hleft : st.leftover = -1 := by simp [LoadState.leftover,hover]
  have hn : ((256 : ℤ)-(-1)-1).toNat = 256 := rfl
  have hend : decide (st.fileSize-bs.length ≤ 0) = true :=
    decide_eq_true ((Int.sub_le_self _ (by omega)).trans hpast)
  simp only [loadBody,hleft,hn,hread,hover,if_true,hend]
  by_cases hdone : (-1 : ℤ)+bs.length ≤ 0
  · rw [if_pos hdone]
    exact Or.inl ⟨_,rfl⟩
  · rw [if_neg hdone]
    refine Or.inr ⟨by omega,?_⟩
    split_ifs with hskip
    · exact ⟨_,rfl,rfl,rfl,rfl⟩
    · have hcons := lineLoop_consumed parseLine true ⟨st.store,bs.drop 1,false,st.skipNextLine⟩
        le_rfl rfl
      exact ⟨_,rfl,rfl,rfl,hcons.atEnd rfl⟩

/-! ### The end of the file -/

/-- The bookkeeping of a load of `text` that was announced with `size` bytes. -/
structure Loading (text : List UInt8) (size : ℤ) (st : LoadState τ FileDevice) : Prop where
  fileSize : st.fileSize = size-text.length+st.device.rest.length
  data : Unfinished st.data
  past : st.fileSize ≤ 0 → st.data = []
  overrun : st.overrun = true → st.fileSize ≤ 0
  line : 0 < st.fileSize → fragment st.data st.device.rest = fragment [] text

/-- The unread bytes, and whether the buffer needs another round. -/
def roundsLeft (st : LoadState τ FileDevice) : ℕ :=
  2*st.device.rest.length+if st.data = [] then 0 else 1

theorem Loading.init (text : List UInt8) (size : ℤ) (store : τ) (cuts : ℕ → ℕ) :
    Loading text size ⟨store,⟨text,cuts,0⟩,[],false,size,false⟩ :=
  ⟨by simp,unfinished_nil,fun _ => rfl,by simp,fun _ => rfl⟩

theorem Loading.after {text : List UInt8} {size : ℤ} {st st' : LoadState τ FileDevice}
    {bs : List UInt8} {device : FileDevice} (h : Loading text size st)
    (hrest : st.device.rest = bs++device.rest) (ha : After st bs device st') :
    Loading text size st' := by
  have hsize := h.fileSize
  have hle := ha.fileSize
  rw [hrest,List.length_append] at hsize
  refine ⟨by rw [ha.fileSize,ha.device]; push_cast at hsize; omega,?_,fun hpast => ?_,
    fun hover => (ha.overrun.1 hover).1,fun hpos => ?_⟩
  · rw [ha.data]
    split_ifs
    · exact unfinished_nil
    · exact h.data.fragment bs
  · rw [ha.data,if_pos hpast]
  · have hline := h.line (by omega)
    rw [hrest,fragment_append] at hline
    rw [ha.data,if_neg (by omega),ha.device]
    exact hline

/-- A round that does not end the loop keeps the books. While bytes are missing, it ends the
loop only at the end of the delivered bytes, with nothing in the buffer. -/
theorem loading_round (parseLine : τ → List UInt8 → τ) {text : List UInt8} {size : ℤ}
    {st : LoadState τ FileDevice} (h : Loading text size st) :
    ((∃ r, loadBody parseLine fileRead st = .done r) ∧
      (0 < st.fileSize → st.device.rest = [] ∧ st.data = [])) ∨
    ∃ st', loadBody parseLine fileRead st = .next st' ∧ Loading text size st' ∧
      (roundsLeft st' < roundsLeft st ∨ 0 < st.fileSize ∧ st.device.rest = [] ∧ st.data ≠ []) := by
  cases hover : st.overrun with
  | true =>
    have hpast := h.overrun hover
    obtain ⟨bs,hread,hrest,-,-⟩ := fileRead_split st.device (n := 256) (by decide)
    rcases loadBody_overrun parseLine hover hpast hread with
      hdone | ⟨hlen,st',hnext,hdevice,hsize,hdata⟩
    · exact Or.inl ⟨hdone,fun hpos => absurd hpast (by omega)⟩
    · have hbooks := h.fileSize
      have hlength := congrArg List.length hrest
      rw [List.length_append] at hlength
      refine Or.inr ⟨st',hnext,⟨?_,hdata ▸ unfinished_nil,fun _ => hdata,fun _ => by omega,
        fun hpos => by omega⟩,Or.inl ?_⟩
      · rw [hsize,hdevice]
        omega
      · simp only [roundsLeft,hdata,hdevice,if_true]
        omega
  | false =>
    have hroom := h.data.room
    obtain ⟨bs,hread,hrest,hlen,hend⟩ :=
      fileRead_split st.device (n := 255-st.data.length) (by omega)
    rcases loadBody_unfinished parseLine hover h.data hread hlen with
      ⟨hnil,hbs,hdone⟩ | ⟨hne,st',hnext,ha⟩
    · exact Or.inl ⟨⟨_,hdone⟩,fun _ => ⟨hend hbs,hnil⟩⟩
    · refine Or.inr ⟨st',hnext,h.after hrest ha,?_⟩
      rcases eq_or_ne bs [] with rfl | hbs
      · have hdata : st.data ≠ [] := by simpa using hne
        have hpos : 0 < st.fileSize := by
          by_contra hle
          exact hdata (h.past (by omega))
        exact Or.inr ⟨hpos,hend rfl,hdata⟩
      · have hpos := List.length_pos_iff.2 hbs
        have hlength := congrArg List.length hrest
        rw [List.length_append] at hlength
        refine Or.inl ?_
        simp only [roundsLeft,ha.device]
        split_ifs <;> omega

theorem configStoreLoad_of_pos {size : ℤ} (h : 0 < size) (read : δ → ℕ → ReadResult × δ)
    (fuel : ℕ) (store : τ) (device : δ) :
    configStoreLoad parseLine read true size fuel store device =
      Loop.run (loadBody parseLine read) fuel ⟨store,device,[],false,size,false⟩ := by
  unfold configStoreLoad
  rw [if_neg (by simp),if_neg (by omega)]

def Terminates (parseLine : τ → List UInt8 → τ) (store : τ) (size : ℤ) (text : List UInt8)
    (cuts : ℕ → ℕ) : Prop :=
  ∃ fuel r, configStoreLoad parseLine fileRead true size fuel store ⟨text,cuts,0⟩ = some r

theorem terminates_of_complete (parseLine : τ → List UInt8 → τ) (store : τ) {size : ℤ}
    {text : List UInt8} (cuts : ℕ → ℕ) (h : size ≤ text.length ∨ fragment [] text = []) :
    Terminates parseLine store size text cuts := by
  rcases le_or_gt size 0 with hsize | hsize
  · exact ⟨0,⟨store,⟨text,cuts,0⟩,true,false⟩,by simp [configStoreLoad,hsize]⟩
  have hstuck : ∀ st : LoadState τ FileDevice, Loading text size st →
      ¬ (0 < st.fileSize ∧ st.device.rest = [] ∧ st.data ≠ []) := by
    rintro st hst ⟨hpos,hrest,hne⟩
    have hbooks := hst.fileSize
    have hline := hst.line hpos
    rw [hrest] at hbooks hline
    rcases h with h | h
    · simp only [List.length_nil] at hbooks
      omega
    · exact hne (hline.trans h)
  obtain ⟨r,hr,-⟩ := @Loop.run_total _ _ (loadBody parseLine fileRead) (Loading text size)
    (fun _ => True) roundsLeft
    (fun st st' hst hb => by
      rcases loading_round parseLine hst with ⟨⟨r,hdone⟩,-⟩ | ⟨s,hnext,hloading,hless⟩
      · rw [hdone] at hb
        simp at hb
      · obtain rfl := Loop.Step.next.inj (hnext.symm.trans hb)
        exact ⟨hloading,hless.resolve_right (hstuck st hst)⟩)
    (fun _ _ _ _ => trivial) _ (Loading.init text size store cuts)
  exact ⟨_,r,(configStoreLoad_of_pos hsize fileRead _ store _).trans hr⟩

theorem not_terminates_of_missing (parseLine : τ → List UInt8 → τ) (store : τ) {size : ℤ}
    {text : List UInt8} (cuts : ℕ → ℕ) (hmissing : text.length < size)
    (hline : fragment [] text ≠ []) : ¬ Terminates parseLine store size text cuts := by
  have hstuck := @Loop.run_diverges _ _ (loadBody parseLine fileRead) (Loading text size)
    (fun st hst => by
      have hpos : 0 < st.fileSize := by
        have hbooks := hst.fileSize
        omega
      rcases loading_round parseLine hst with ⟨-,hend⟩ | ⟨s,hnext,hloading,-⟩
      · have hempty := hst.line hpos
        rw [(hend hpos).1,(hend hpos).2] at hempty
        exact absurd hempty.symm hline
      · exact ⟨s,hnext,hloading⟩) _ (Loading.init text size store cuts)
  rintro ⟨fuel,r,hr⟩
  rw [configStoreLoad_of_pos (by omega)] at hr
  exact hstuck ⟨fuel,r,hr⟩

/-- Loading ends exactly when no byte is missing or the delivered bytes leave no line
unfinished in the buffer. -/
theorem terminates_iff (parseLine : τ → List UInt8 → τ) (store : τ) (size : ℤ)
    (text : List UInt8) (cuts : ℕ → ℕ) :
    Terminates parseLine store size text cuts ↔
      size ≤ text.length ∨ fragment [] text = [] := by
  constructor
  · intro h
    by_contra hno
    rw [not_or] at hno
    exact not_terminates_of_missing parseLine store cuts (by omega) hno.2 h
  · exact terminates_of_complete parseLine store cuts

/-- One byte of two arrives. -/
theorem load_of_one_byte_does_not_end :
    ¬ ∀ (size : ℤ) (text : List UInt8) (cuts : ℕ → ℕ),
      Terminates (fun (calls : List (List UInt8)) line => calls++[line]) [] size text cuts := by
  intro h
  have hends := h 2 (lit "p") fun _ => 1
  exact not_terminates_of_missing _ [] _ (by decide) (by decide) hends

/-! ### Files of plain lines -/

end LoadTermination
end A9GTracker
