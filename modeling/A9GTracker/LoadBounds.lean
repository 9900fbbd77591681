import A9GTracker.LoadTermination

/-! The buffer accesses of `ConfigStore_Load`: which offsets of the 256 bytes it reads to and
writes, for any sequence of answers to its reads. -/
namespace A9GTracker
namespace LoadBounds

open CString ConfigLoad ChunkedLoading LoadTermination

variable {τ : Type} {parseLine : τ → List UInt8 → τ}

/-! ### Accesses -/

/-- The `i`-th call of `API_FS_Read` gives the `i`-th answer; the device counts the calls. -/
def answer (results : ℕ → ReadResult) (calls _n : ℕ) : ReadResult × ℕ := (results calls,calls+1)

def request (st : LoadState τ ℕ) : ℕ := (256-st.leftover-1).toNat

/-- Where `line_end` points to in the rounds of the inner loop, from `curr_position` on. -/
def lineEnds (fileEnd : Bool) : ℕ → ℕ → List UInt8 → List ℕ
  | 0, _, _ => []
  | n+1, curr, data =>
    if data = [] then []
    else
      match strchr data 10 with
      | some i => (curr+i)::lineEnds fileEnd n (curr+i+1) (data.drop (i+1))
      | none => if fileEnd then [curr+data.length] else []

/-- The indexes that a round writes behind a read of `bs`: the terminator, the line ends and
the destination of `memmove`. -/
def writes (parseLine : τ → List UInt8 → τ) (st : LoadState τ ℕ) (bs : List UInt8) : List ℤ :=
  let fileSize := st.fileSize-bs.length
  let leftover := st.leftover+bs.length
  let data := if st.overrun then bs.drop 1 else st.data++bs
  if leftover ≤ 0 then []
  else if strchr data 10 = none ∧ leftover ≥ 255 then [leftover]
  else
    let l := lineLoop parseLine (fileSize ≤ 0) data.length ⟨st.store,data,false,st.skipNextLine⟩
    leftover::(lineEnds (fileSize ≤ 0) data.length 0 data++List.range l.data.length).map Nat.cast

structure InBounds (parseLine : τ → List UInt8 → τ) (results : ℕ → ReadResult)
    (st : LoadState τ ℕ) : Prop where
  offset : 0 ≤ st.leftover ∧ st.leftover ≤ 255
  room : st.leftover+request st < 256
  writes : ∀ bs, results st.device = .bytes bs → ∀ i ∈ writes parseLine st bs, 0 ≤ i ∧ i ≤ 255

def LoopHead (parseLine : τ → List UInt8 → τ) (store : τ) (size : ℤ) (results : ℕ → ReadResult)
    (st : LoadState τ ℕ) : Prop :=
  0 < size ∧ Loop.Visits (loadBody parseLine (answer results)) ⟨store,0,[],false,size,false⟩ st

/-- A load of a file that is announced with `size` bytes stays inside the buffer. -/
def StaysInside (parseLine : τ → List UInt8 → τ) (store : τ) (size : ℤ)
    (results : ℕ → ReadResult) : Prop :=
  ∀ st, LoopHead parseLine store size results st → InBounds parseLine results st

def Obedient (parseLine : τ → List UInt8 → τ) (store : τ) (size : ℤ) (results : ℕ → ReadResult) :
    Prop :=
  ∀ st, LoopHead parseLine store size results st →
    ∀ bs, results st.device = .bytes bs → bs.length ≤ request st

theorem lineEnds_le {fileEnd : Bool} {n curr i : ℕ} {data : List UInt8}
    (h : i ∈ lineEnds fileEnd n curr data) : i ≤ curr+data.length := by
  induction n generalizing curr data with
  | zero => simp [lineEnds] at h
  | succ n ih =>
    by_cases hnil : data = []
    · simp [lineEnds,hnil] at h
    · cases hchr : strchr data 10 with
      | some j =>
        obtain ⟨a,b,rfl,rfl,-,-⟩ := strchr_eq_some hchr
        have hdrop : (a++10::b).drop (a.length+1) = b := by simp
        simp only [lineEnds,hnil,hchr,hdrop,if_false,List.mem_cons] at h
        rw [List.length_append,List.length_cons]
        rcases h with rfl | h
        · omega
        · have hle := ih h
          omega
      | none =>
        cases fileEnd with
        | true =>
          simp only [lineEnds,hnil,hchr,if_true,if_false,List.mem_singleton] at h
          exact h.le
        | false => simp [lineEnds,hnil,hchr] at h

/-! ### Rounds -/

def delivered (results : ℕ → ReadResult) : ℕ → List UInt8
  | 0 => []
  | k+1 =>
    match results k with
    | .error _ => delivered results k
    | .bytes bs => delivered results k++bs

theorem delivered_succ {results : ℕ → ReadResult} {k : ℕ} {bs : List UInt8}
    (h : results k = .bytes bs) : delivered results (k+1) = delivered results k++bs := by
  simp [delivered,h]

/-- The loop asks for more after the first `k` reads: none of them failed, and none brought
nothing while no line was unfinished. -/
def Running (results : ℕ → ReadResult) (k : ℕ) : Prop :=
  ∀ j < k, ∃ bs, results j = .bytes bs ∧ ¬ (bs = [] ∧ fragment [] (delivered results j) = [])

/-- Where a read brings the delivered bytes to the announced size or beyond, it ends with
a line. -/
def Aligned (size : ℤ) (results : ℕ → ReadResult) : Prop :=
  ∀ k, Running results k → size ≤ (delivered results k).length →
    fragment [] (delivered results k) = []

structure Sound (size : ℤ) (results : ℕ → ReadResult) (st : LoadState τ ℕ) : Prop where
  overrun : st.overrun = false
  running : Running results st.device
  data : st.data = fragment [] (delivered results st.device)
  fileSize : st.fileSize = size-(delivered results st.device).length
  past : st.fileSize ≤ 0 → st.data = []

section Sound
variable {size : ℤ} {results : ℕ → ReadResult} {st : LoadState τ ℕ}

theorem Sound.unfinished (h : Sound size results st) : Unfinished st.data := by
  rw [h.data]
  exact unfinished_nil.fragment _

theorem Sound.leftover (h : Sound size results st) : st.leftover = st.data.length := by
  simp [LoadState.leftover,h.overrun]

theorem Sound.request (h : Sound size results st) : request st = 255-st.data.length := by
  have hroom := h.unfinished.room
  rw [LoadBounds.request,h.leftover]
  omega

theorem Sound.init (size : ℤ) (results : ℕ → ReadResult) (store : τ) :
    Sound size results (⟨store,0,[],false,size,false⟩ : LoadState τ ℕ) :=
  ⟨rfl,fun j hj => absurd hj (Nat.not_lt_zero j),rfl,by simp [delivered],fun _ => rfl⟩

theorem Sound.inBounds (h : Sound size results st)
    (hread : ∀ bs, results st.device = .bytes bs → bs.length ≤ LoadBounds.request st) :
    InBounds parseLine results st := by
  have hroom := h.unfinished.room
  have hleft := h.leftover
  have hrequest := h.request
  refine ⟨by omega,by omega,fun bs hbs i hi => ?_⟩
  have hle := hread bs hbs
  have hover := h.overrun
  simp only [writes,hleft,hover,Bool.false_eq_true,if_false] at hi
  split_ifs at hi with hdone hfull
  · simp at hi
  · obtain rfl := List.mem_singleton.1 hi
    omega
  · rw [List.mem_cons,List.mem_map] at hi
    rcases hi with rfl | ⟨j,hj,rfl⟩
    · omega
    · have hlength : (st.data++bs).length = st.data.length+bs.length := List.length_append
      rw [List.mem_append,List.mem_range] at hj
      rcases hj with hj | hj
      · have hend := lineEnds_le hj
        omega
      · have hsuffix := (lineLoop_consumed parseLine (decide (st.fileSize-bs.length ≤ 0))
          ⟨st.store,st.data++bs,false,st.skipNextLine⟩ le_rfl rfl).suffix.length_le
        simp only at hsuffix
        omega

variable (parseLine) in
/-- One round from a sound state: the next one starts in a sound state as well, or in one with
a negative offset. -/
theorem Sound.round (h : Sound size results st) {bs : List UInt8}
    (hread : results st.device = .bytes bs) (hlen : bs.length ≤ LoadBounds.request st) :
    (bs = [] ∧ fragment [] (delivered results st.device) = [] ∧
      ∃ r, loadBody parseLine (answer results) st = .done r) ∨
    ∃ st', loadBody parseLine (answer results) st = .next st' ∧ st'.device = st.device+1 ∧
      (st'.overrun = true ↔ size ≤ (delivered results (st.device+1)).length ∧
        fragment [] (delivered results (st.device+1)) ≠ []) ∧
      (st'.overrun = false → Sound size results st') := by
  rw [h.request] at hlen
  have hsucc := delivered_succ hread
  have hfragment : fragment [] (delivered results (st.device+1)) = fragment st.data bs := by
    rw [hsucc,fragment_append,h.data]
  have hanswer : (answer results st.device (255-st.data.length)).1 = .bytes bs := hread
  rcases loadBody_unfinished parseLine h.overrun h.unfinished hanswer hlen
    with ⟨hnil,hbs,hdone⟩ | ⟨hne,st',hnext,ha⟩
  · exact Or.inl ⟨hbs,h.data ▸ hnil,_,hdone⟩
  · have hdevice : st'.device = st.device+1 := ha.device
    have hsize : st'.fileSize = size-(delivered results (st.device+1)).length := by
      rw [ha.fileSize,h.fileSize,hsucc,List.length_append]
      omega
    have hover : st'.overrun = true ↔ size ≤ (delivered results (st.device+1)).length ∧
        fragment [] (delivered results (st.device+1)) ≠ [] := by
      rw [ha.overrun,hfragment,hsize]
      exact and_congr_left fun _ => by omega
    refine Or.inr ⟨st',hnext,hdevice,hover,fun hno => ?_⟩
    have hpast : st'.fileSize ≤ 0 → fragment st.data bs = [] := by
      intro hle
      by_contra hline
      have htrue := ha.overrun.2 ⟨hle,hline⟩
      simp [hno] at htrue
    refine ⟨hno,fun j hj => ?_,?_,by rw [hdevice,hsize],fun hle => by rw [ha.data,if_pos hle]⟩
    · rw [hdevice] at hj
      rcases Nat.lt_succ_iff_lt_or_eq.1 hj with hlt | rfl
      · exact h.running j hlt
      · refine ⟨bs,hread,?_⟩
        rintro ⟨rfl,hnil⟩
        rw [← h.data] at hnil
        simp [hnil] at hne
    · rw [ha.data,hdevice,hfragment]
      split_ifs with hle
      · exact (hpast hle).symm
      · rfl

end Sound

/-! ### Runs -/

section runs
variable {store : τ} {size : ℤ} {results : ℕ → ReadResult}

theorem sound_of_aligned (hread : Obedient parseLine store size results)
    (h : Aligned size results) {st : LoadState τ ℕ}
    (hst : LoopHead parseLine store size results st) : Sound size results st := by
  obtain ⟨hsize,hvisits⟩ := hst
  induction hvisits with
  | refl => exact Sound.init size results store
  | @next st st' hv hb ih =>
    cases hr : results st.device with
    | error code =>
      have hdone : loadBody parseLine (answer results) st =
          .done ⟨st.store,st.device+1,false,true⟩ := by
        simp [loadBody,answer,hr]
      rw [hdone] at hb
      simp at hb
    | bytes bs =>
      rcases ih.round parseLine hr (hread st ⟨hsize,hv⟩ bs hr) with
        ⟨-,-,r,hdone⟩ | ⟨s,hnext,hdevice,hover,hsound⟩
      · rw [hdone] at hb
        simp at hb
      · obtain rfl := Loop.Step.next.inj (hnext.symm.trans hb)
        refine hsound (Bool.eq_false_iff.2 fun htrue => ?_)
        obtain ⟨hle,hne⟩ := hover.1 htrue
        refine hne (h _ (fun j hj => ?_) hle)
        rcases Nat.lt_succ_iff_lt_or_eq.1 hj with hlt | rfl
        · exact ih.running j hlt
        · refine ⟨bs,hr,?_⟩
          rintro ⟨rfl,hnil⟩
          rw [delivered_succ hr,List.append_nil] at hne
          exact hne hnil

/-- The loop reaches the round after the `k`-th read in a sound state, unless the offset gets
negative before. -/
theorem exists_loopHead (hread : Obedient parseLine store size results) (hsize : 0 < size)
    {k : ℕ} (hk : Running results k) :
    (∃ st, LoopHead parseLine store size results st ∧ st.overrun = true) ∨
    ∃ st, LoopHead parseLine store size results st ∧ Sound size results st ∧ st.device = k := by
  induction k with
  | zero => exact Or.inr ⟨_,⟨hsize,.refl _⟩,Sound.init size results store,rfl⟩
  | succ k ih =>
    rcases ih fun j hj => hk j (by omega) with hover | ⟨st,hst,hsound,rfl⟩
    · exact Or.inl hover
    · obtain ⟨bs,hbs,hmore⟩ := hk st.device (by omega)
      rcases hsound.round parseLine hbs (hread st hst bs hbs) with
        ⟨hnil,hline,-⟩ | ⟨st',hnext,hdevice,-,hsound'⟩
      · exact absurd ⟨hnil,hline⟩ hmore
      · have hst' : LoopHead parseLine store size results st' := ⟨hsize,hst.2.next hnext⟩
        cases hover : st'.overrun with
        | true => exact Or.inl ⟨st',hst',hover⟩
        | false => exact Or.inr ⟨st',hst',hsound' hover,hdevice⟩

/-- A load stays inside its buffer exactly when it reads nothing, or no read that brings the
delivered bytes to the announced size or beyond ends in the middle of a line. -/
theorem staysInside_iff (hread : Obedient parseLine store size results) :
    StaysInside parseLine store size results ↔ size ≤ 0 ∨ Aligned size results := by
  constructor
  · intro h
    rcases le_or_gt size 0 with hsize | hsize
    · exact Or.inl hsize
    · refine Or.inr fun k hk hle => ?_
      rcases exists_loopHead hread hsize hk with ⟨st,hst,hover⟩ | ⟨st,-,hsound,rfl⟩
      · have hoffset := (h st hst).offset.1
        simp [LoadState.leftover,hover] at hoffset
      · rw [← hsound.data]
        refine hsound.past ?_
        rw [hsound.fileSize]
        omega
  · rintro (hsize | haligned) st hst
    · exact absurd hst.1 (by omega)
    · exact (sound_of_aligned hread haligned hst).inBounds (hread st hst)

end runs

/-! ### A file without a last line end -/

def oneLine : ℕ → ReadResult
  | 0 => .bytes (lit "port=80")
  | _+1 => .bytes []

theorem device_of_next {results : ℕ → ReadResult} {st st' : LoadState τ ℕ}
    (h : loadBody parseLine (answer results) st = .next st') : st'.device = st.device+1 := by
  rcases loadBody_outcomes parseLine (answer results) st with ⟨ret,hdone⟩ | ⟨s,hnext,hdevice,-⟩
  · rw [hdone] at h
    simp at h
  · exact Loop.Step.next.inj (hnext.symm.trans h) ▸ hdevice

theorem oneLine_obedient (store : τ) (size : ℤ) : Obedient parseLine store size oneLine := by
  intro st hst bs hbs
  have hfirst : st.device = 0 → st.leftover = 0 := by
    refine Loop.Visits.invariant (I := fun st : LoadState τ ℕ => st.device = 0 → st.leftover = 0)
      (fun s s' _ hb hzero => ?_) hst.2 fun _ => rfl
    rw [device_of_next hb] at hzero
    exact absurd hzero (Nat.succ_ne_zero _)
  cases hdevice : st.device with
  | zero =>
    rw [hdevice,oneLine,ReadResult.bytes.injEq] at hbs
    rw [request,hfirst hdevice,← hbs]
    decide
  | succ k =>
    rw [hdevice,oneLine,ReadResult.bytes.injEq] at hbs
    simp [← hbs]

/-- The condition for a file of which two bytes are missing. -/
theorem staysInside_iff_oneLine :
    StaysInside (fun (calls : List (List UInt8)) line => calls++[line]) [] 9 oneLine ↔
      (9 : ℤ) ≤ 0 ∨ Aligned 9 oneLine :=
  staysInside_iff (oneLine_obedient [] 9)

/-- The read behind the line goes in front of the buffer. -/
theorem oneLine_not_staysInside :
    ¬ ∀ (size : ℤ) (results : ℕ → ReadResult),
      Obedient (fun (calls : List (List UInt8)) line => calls++[line]) [] size results →
        StaysInside (fun (calls : List (List UInt8)) line => calls++[line]) [] size results := by
  intro h
  have hnext : loadBody (fun (calls : List (List UInt8)) line => calls++[line]) (answer oneLine)
      ⟨[],0,[],false,7,false⟩ = .next ⟨[lit "port=80"],1,[],true,0,false⟩ :=
    rfl
  have hoffset := (h 7 oneLine (oneLine_obedient [] 7) _
    ⟨by decide,.next (.refl _) hnext⟩).offset.1
  exact absurd hoffset (by decide)

end LoadBounds
end A9GTracker
