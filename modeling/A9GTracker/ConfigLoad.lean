import Mathlib.Data.List.Basic
import Mathlib.Tactic.Common
import A9GTracker.CString
import A9GTracker.Loop

/-! The loop of `ConfigStore_Load` in `app/src/config_store.c`, with the file and the line
callback as parameters. -/
namespace A9GTracker
namespace ConfigLoad

open CString

/-- What `API_FS_Read` delivers: bytes, none at the end, or a negative error code. -/
inductive ReadResult
  | error (code : ℤ)
  | bytes (bs : List UInt8)

/-- A file that is read from the front. The `i`-th read is cut to `cuts i` bytes, but to no
less than one byte and no more than was requested. -/
structure FileDevice where
  rest : List UInt8
  cuts : ℕ → ℕ
  reads : ℕ

def fileRead (d : FileDevice) (n : ℕ) : ReadResult × FileDevice :=
  let k := min n (max 1 (d.cuts d.reads))
  (.bytes (d.rest.take k),{ d with rest := d.rest.drop k, reads := d.reads+1 })

variable {τ δ : Type}

/-- The buffer from `curr_position` on. Behind an unterminated last line `curr_position` is
one past the end of the valid data. -/
structure LineState (τ : Type) where
  store : τ
  data : List UInt8
  overrun : Bool
  skipNextLine : Bool

def takeLine (parseLine : τ → List UInt8 → τ) (line rest : List UInt8) (overrun : Bool)
    (st : LineState τ) : LineState τ :=
  if st.skipNextLine then ⟨st.store,rest,overrun,false⟩
  else ⟨parseLine st.store (cstring line),rest,overrun,false⟩

section takeLine
variable (parseLine : τ → List UInt8 → τ) (line rest : List UInt8) (overrun : Bool)
  (st : LineState τ)

@[simp] theorem takeLine_store : (takeLine parseLine line rest overrun st).store =
    if st.skipNextLine then st.store else parseLine st.store (cstring line) := by
  unfold takeLine
  split_ifs <;> rfl
@[simp] theorem takeLine_data : (takeLine parseLine line rest overrun st).data = rest := by
  unfold takeLine
  split_ifs <;> rfl
@[simp] theorem takeLine_overrun :
    (takeLine parseLine line rest overrun st).overrun = overrun := by
  unfold takeLine
  split_ifs <;> rfl
@[simp] theorem takeLine_skipNextLine :
    (takeLine parseLine line rest overrun st).skipNextLine = false := by
  unfold takeLine
  split_ifs <;> rfl

end takeLine

/-- The inner loop over the lines in the buffer, at most one round for each byte;
`fileEnd` says that the announced bytes have all been read. -/
def lineLoop (parseLine : τ → List UInt8 → τ) (fileEnd : Bool) : ℕ → LineState τ → LineState τ
  | 0, st => st
  | n+1, st =>
    if st.data = [] then st
    else
      match strchr st.data 10 with
      | some i =>
        lineLoop parseLine fileEnd n
          (takeLine parseLine (st.data.take i) (st.data.drop (i+1)) false st)
      | none => if fileEnd then takeLine parseLine st.data [] true st else st

/-- The outer loop between two reads: the bytes left in the buffer, and the bytes announced
but not read yet. -/
structure LoadState (τ δ : Type) where
  store : τ
  device : δ
  data : List UInt8
  overrun : Bool
  fileSize : ℤ
  skipNextLine : Bool

def LoadState.leftover (st : LoadState τ δ) : ℤ := if st.overrun then -1 else st.data.length

structure LoadResult (τ δ : Type) where
  store : τ
  device : δ
  ret : Bool
  closed : Bool

def loadBody (parseLine : τ → List UInt8 → τ) (read : δ → ℕ → ReadResult × δ)
    (st : LoadState τ δ) : Loop.Step (LoadState τ δ) (LoadResult τ δ) :=
  let r := read st.device (256-st.leftover-1).toNat
  match r.1 with
  | .error _ => .done ⟨st.store,r.2,false,true⟩
  | .bytes bs =>
    let fileSize := st.fileSize-bs.length
    let leftover := st.leftover+bs.length
    -- with a leftover of -1 the first byte goes in front of the buffer
    let data := if st.overrun then bs.drop 1 else st.data++bs
    if leftover ≤ 0 then .done ⟨st.store,r.2,true,true⟩
    else if strchr data 10 = none ∧ leftover ≥ 255 then .next ⟨st.store,r.2,[],false,fileSize,true⟩
    else
      let l := lineLoop parseLine (fileSize ≤ 0) data.length ⟨st.store,data,false,st.skipNextLine⟩
      .next ⟨l.store,r.2,l.data,l.overrun,fileSize,l.skipNextLine⟩

/-- What a round can do: it ends with the file closed and the store as it was, or it goes on
behind one read, with the store of the lines it has parsed, if any. -/
theorem loadBody_outcomes (parseLine : τ → List UInt8 → τ) (read : δ → ℕ → ReadResult × δ)
    (st : LoadState τ δ) :
    (∃ ret, loadBody parseLine read st =
      .done ⟨st.store,(read st.device (256-st.leftover-1).toNat).2,ret,true⟩) ∨
    ∃ st', loadBody parseLine read st = .next st' ∧
      st'.device = (read st.device (256-st.leftover-1).toNat).2 ∧
      (st'.store = st.store ∨ ∃ fileEnd n data, st'.store =
        (lineLoop parseLine fileEnd n ⟨st.store,data,false,st.skipNextLine⟩).store) := by
  cases hread : (read st.device (256-st.leftover-1).toNat).1 with
  | error code => exact Or.inl ⟨false,by simp only [loadBody,hread]⟩
  | bytes bs =>
    simp only [loadBody,hread]
    generalize (if st.overrun = true then bs.drop 1 else st.data++bs) = data
    split_ifs
    · exact Or.inl ⟨true,rfl⟩
    · exact Or.inr ⟨_,rfl,rfl,Or.inl rfl⟩
    · exact Or.inr ⟨_,rfl,rfl,Or.inr ⟨_,_,_,rfl⟩⟩

/-- A round that finds the unfinished line at the front of the buffer and reads `bs` behind
it. -/
theorem loadBody_bytes (parseLine : τ → List UInt8 → τ) {read : δ → ℕ → ReadResult × δ}
    {st : LoadState τ δ} (hover : st.overrun = false) (hroom : st.data.length ≤ 255)
    {bs : List UInt8} (hread : (read st.device (255-st.data.length)).1 = .bytes bs) :
    loadBody parseLine read st =
      let device := (read st.device (255-st.data.length)).2
      if st.data++bs = [] then .done ⟨st.store,device,true,true⟩
      else if strchr (st.data++bs) 10 = none ∧ 255 ≤ (st.data++bs).length then
        .next ⟨st.store,device,[],false,st.fileSize-bs.length,true⟩
      else
        let l := lineLoop parseLine (decide (st.fileSize-bs.length ≤ 0)) (st.data++bs).length
          ⟨st.store,st.data++bs,false,st.skipNextLine⟩
        .next ⟨l.store,device,l.data,l.overrun,st.fileSize-bs.length,l.skipNextLine⟩ := by
  have hleft : st.leftover = st.data.length := by simp [LoadState.leftover,hover]
  have hn : (256-(st.data.length : ℤ)-1).toNat = 255-st.data.length := by omega
  have hdone : (st.data.length : ℤ)+bs.length ≤ 0 ↔ st.data++bs = [] := by
    rw [← List.length_eq_zero_iff,List.length_append]
    omega
  have hfull : (st.data.length : ℤ)+bs.length ≥ 255 ↔ 255 ≤ (st.data++bs).length := by
    rw [List.length_append]
    omega
  simp only [loadBody,hleft,hn,hread,hover,hdone,hfull,if_false,Bool.false_eq_true]

/-- `ConfigStore_Load`, or `none` when the fuel is used up: `opened` is the success of
`API_FS_Open`, `fileSize` the answer of `API_FS_GetFileSize` as it is kept in the `int`
`file_size`. A file of 2^31 bytes and more has no true length there. -/
def configStoreLoad (parseLine : τ → List UInt8 → τ) (read : δ → ℕ → ReadResult × δ)
    (opened : Bool) (fileSize : ℤ) (fuel : ℕ) (store : τ) (device : δ) :
    Option (LoadResult τ δ) :=
  if ¬ opened then some ⟨store,device,false,false⟩
  else if fileSize ≤ 0 then some ⟨store,device,true,false⟩
  else Loop.run (loadBody parseLine read) fuel ⟨store,device,[],false,fileSize,false⟩

end ConfigLoad
end A9GTracker
