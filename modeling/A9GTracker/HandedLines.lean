import A9GTracker.ConfigLoad

/-! The lines that `ConfigStore_Load` hands to `parse_line`: they depend on the reads only, and
loading is a fold over them. -/
namespace A9GTracker
namespace HandedLines

open CString ConfigLoad

variable {τ δ : Type}

def logLine (handed : List (List UInt8)) (line : List UInt8) : List (List UInt8) := handed++[line]

section replay
variable (parseLine : τ → List UInt8 → τ) (store : τ)

/-- The store behind the lines handed over so far. -/
def replayLine (st : LineState (List (List UInt8))) : LineState τ :=
  ⟨st.store.foldl parseLine store,st.data,st.overrun,st.skipNextLine⟩

def replayLoad (st : LoadState (List (List UInt8)) δ) : LoadState τ δ :=
  ⟨st.store.foldl parseLine store,st.device,st.data,st.overrun,st.fileSize,st.skipNextLine⟩

def replayResult (r : LoadResult (List (List UInt8)) δ) : LoadResult τ δ :=
  ⟨r.store.foldl parseLine store,r.device,r.ret,r.closed⟩

theorem takeLine_replay (line rest : List UInt8) (overrun : Bool)
    (st : LineState (List (List UInt8))) :
    takeLine parseLine line rest overrun (replayLine parseLine store st) =
      replayLine parseLine store (takeLine logLine line rest overrun st) := by
  unfold takeLine replayLine
  cases st.skipNextLine <;> simp [logLine]

theorem lineLoop_replay (fileEnd : Bool) (n : ℕ) (st : LineState (List (List UInt8))) :
    lineLoop parseLine fileEnd n (replayLine parseLine store st) =
      replayLine parseLine store (lineLoop logLine fileEnd n st) := by
  induction n generalizing st with
  | zero => rfl
  | succ n ih =>
    have hdata : (replayLine parseLine store st).data = st.data := rfl
    by_cases hnil : st.data = []
    · rw [lineLoop,lineLoop,hdata,if_pos hnil,if_pos hnil]
    · rw [lineLoop,lineLoop,hdata,if_neg hnil,if_neg hnil]
      cases strchr st.data 10 with
      | some i => simp only [takeLine_replay,ih]
      | none => cases fileEnd <;> simp [takeLine_replay]

theorem loadBody_replay (read : δ → ℕ → ReadResult × δ)
    (st : LoadState (List (List UInt8)) δ) :
    loadBody parseLine read (replayLoad parseLine store st) =
      (loadBody logLine read st).map (replayLoad parseLine store)
        (replayResult parseLine store) := by
  obtain ⟨handed,device,buffered,overrun,size,skip⟩ := st
  have hlines : ∀ (fileEnd : Bool) (n : ℕ) (data : List UInt8),
      lineLoop parseLine fileEnd n ⟨handed.foldl parseLine store,data,false,skip⟩ =
        replayLine parseLine store (lineLoop logLine fileEnd n ⟨handed,data,false,skip⟩) :=
    fun fileEnd n data => lineLoop_replay parseLine store fileEnd n ⟨handed,data,false,skip⟩
  change loadBody parseLine read
    ⟨handed.foldl parseLine store,device,buffered,overrun,size,skip⟩ = _
  simp only [loadBody,LoadState.leftover,hlines]
  cases (read device (256-(if overrun then -1 else (buffered.length : ℤ))-1).toNat).1 with
  | error code => rfl
  | bytes bs =>
    -- the two sides branch on the same bytes and differ in the store only
    cases overrun <;> simp only [Bool.false_eq_true,if_false,if_true] <;> split_ifs <;> rfl

theorem configStoreLoad_replay (read : δ → ℕ → ReadResult × δ) (opened : Bool) (fileSize : ℤ)
    (fuel : ℕ) (device : δ) :
    configStoreLoad parseLine read opened fileSize fuel store device =
      (configStoreLoad logLine read opened fileSize fuel [] device).map
        (replayResult parseLine store) := by
  unfold configStoreLoad
  split_ifs
  · rfl
  · exact Loop.run_map (loadBody_replay parseLine store read) fuel
      ⟨[],device,[],false,fileSize,false⟩
  · rfl

end replay

end HandedLines
end A9GTracker
