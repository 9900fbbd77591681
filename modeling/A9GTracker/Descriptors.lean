import A9GTracker.ConfigFile
import A9GTracker.HttpTransfer
import A9GTracker.TailCommand

/-! Which descriptors the four functions that open one leave open. -/
namespace A9GTracker
namespace Descriptors

open CString Utils ConfigStore ConfigLoad ConfigFile DescriptorTable HttpTransfer TailCommand

variable {F τ δ δ' δ'' : Type} [FloatLib F]

/-! ### The configuration file -/

/-- The calls of a `ConfigStore_Load` that has returned; `fd` is the answer of
`API_FS_Open`. -/
def loadCalls (fd : ℤ) (r : LoadResult τ δ) : List (FdCall ℤ) :=
  if fd < 0 then [] else if r.closed then [.opened fd,.closed fd] else [.opened fd]

/-- `ConfigStore_Save` on its way through the entries. -/
structure SaveState where
  file : List UInt8
  calls : List (FdCall ℤ)

def saveEntry (c : Config F) (written : ℕ → ℤ) (st : SaveState) (e : Param × ℕ) : SaveState :=
  { st with file := st.file++(saveLine c e.1).take (written e.2).toNat }

/-- `ConfigStore_Save` with its calls; `fd` is the answer of `API_FS_Open`. -/
def saveRun (fd : ℤ) (written : ℕ → ℤ) (c : Config F) : Option SaveState × List (FdCall ℤ) :=
  if fd < 0 then (none,[])
  else
    let st := gConfigMap.zipIdx.foldl (saveEntry c written) ⟨[],[.opened fd]⟩
    (some st,st.calls++[.closed fd])

def saveCalls (fd : ℤ) (written : ℕ → ℤ) (c : Config F) : List (FdCall ℤ) :=
  (saveRun fd written c).2

theorem closed_of_loadBody {parseLine : τ → List UInt8 → τ} {read : δ → ℕ → ReadResult × δ}
    {st : LoadState τ δ} {r : LoadResult τ δ} (h : loadBody parseLine read st = .done r) :
    r.closed = true := by
  rcases loadBody_outcomes parseLine read st with ⟨ret,hdone⟩ | ⟨s,hnext,-⟩
  · exact Loop.Step.done.inj (hdone.symm.trans h) ▸ rfl
  · rw [hnext] at h
    simp at h

theorem closed_of_configStoreLoad {parseLine : τ → List UInt8 → τ}
    {read : δ → ℕ → ReadResult × δ} {size : ℤ} {fuel : ℕ} {store : τ} {device : δ}
    {r : LoadResult τ δ} (hsize : 0 < size)
    (h : configStoreLoad parseLine read true size fuel store device = some r) :
    r.closed = true := by
  unfold configStoreLoad at h
  rw [if_neg (by simp),if_neg (by omega)] at h
  exact Loop.run_partial (fun _ => True) (fun r : LoadResult τ δ => r.closed = true)
    (fun _ _ _ _ => trivial) (fun _ _ _ hb => closed_of_loadBody hb) trivial h

/-- Every `ConfigStore_Load` that returns has closed what it opened. -/
def LoadBalanced (parseLine : τ → List UInt8 → τ) (read : δ → ℕ → ReadResult × δ) (fd size : ℤ)
    (store : τ) (device : δ) : Prop :=
  ∀ fuel r, configStoreLoad parseLine read (0 ≤ fd) size fuel store device = some r →
    Balanced (loadCalls fd r)

theorem loadBalanced_iff (parseLine : τ → List UInt8 → τ) (read : δ → ℕ → ReadResult × δ)
    (fd size : ℤ) (store : τ) (device : δ) :
    LoadBalanced parseLine read fd size store device ↔ fd < 0 ∨ 0 < size := by
  constructor
  · intro h
    by_contra hno
    have hopen : decide (0 ≤ fd) = true := decide_eq_true (by omega)
    have hleak := h 0 ⟨store,device,true,false⟩ (by
      rw [hopen,configStoreLoad,if_neg (by simp),if_pos (by omega)])
    rw [loadCalls,if_neg (by omega)] at hleak
    exact not_balanced_single fd hleak
  · intro h fuel r hr
    rcases lt_or_ge fd 0 with hfd | hfd
    · rw [loadCalls,if_pos hfd]
      exact balanced_nil
    · have hopen : decide (0 ≤ fd) = true := decide_eq_true hfd
      rw [hopen] at hr
      rw [loadCalls,if_neg (by omega),if_pos (closed_of_configStoreLoad (by omega) hr)]
      exact balanced_pair fd

/-! ### The other functions -/

theorem foldl_saveEntry (c : Config F) (written : ℕ → ℤ) (es : List (Param × ℕ))
    (st : SaveState) : es.foldl (saveEntry c written) st =
      ⟨st.file++(es.map fun e => (saveLine c e.1).take (written e.2).toNat).flatten,st.calls⟩ := by
  induction es generalizing st with
  | nil => simp
  | cons e es ih =>
    rw [List.foldl_cons,ih]
    simp [saveEntry]

theorem saveRun_file (fd : ℤ) (written : ℕ → ℤ) (c : Config F) :
    (saveRun fd written c).1.map SaveState.file = (configStoreSave ⟨0 ≤ fd,written⟩ c).1 := by
  rcases lt_or_ge fd 0 with hfd | hfd
  · simp [saveRun,configStoreSave,hfd]
  · simp [saveRun,configStoreSave,hfd,not_lt.2 hfd,foldl_saveEntry]

theorem saveCalls_balanced (fd : ℤ) (written : ℕ → ℤ) (c : Config F) :
    Balanced (saveCalls fd written c) := by
  unfold saveCalls saveRun
  split_ifs with hfd
  · exact balanced_nil
  · simp only [foldl_saveEntry]
    exact balanced_pair fd

theorem handleTailCommand_balanced {api : Files δ} {args : List UInt8} {fuel : ℕ} {files : δ}
    {r : TailResult δ} (h : handleTailCommand api args fuel files = some r) :
    Balanced r.calls := by
  simp only [handleTailCommand] at h
  split_ifs at h
  · exact Option.some.inj h ▸ balanced_nil
  · exact Option.some.inj h ▸ balanced_nil
  · exact Option.some.inj h ▸ balanced_pair _
  · exact Option.some.inj h ▸ balanced_pair _
  · obtain ⟨st,-,rfl⟩ := Option.map_eq_some_iff.1 h
    exact balanced_pair _

theorem httpSendReceive_balanced {api : Sockets δ}
    {hostName port sendBuffer retBuffer : List UInt8} {retBufferSize : ℤ} {fuel : ℕ} {network : δ}
    {r : TransferResult δ}
    (h : httpSendReceive api hostName port sendBuffer retBuffer retBufferSize fuel network =
      some r) : Balanced r.calls := by
  cases hhost : (api.getHostByName network hostName).1 with
  | none =>
    simp only [httpSendReceive,hhost] at h
    split_ifs at h
    · exact Option.some.inj h ▸ balanced_nil
    · exact Option.some.inj h ▸ balanced_nil
  | some ipAddr =>
    simp only [httpSendReceive,hhost] at h
    split_ifs at h
    · exact Option.some.inj h ▸ balanced_nil
    · exact Option.some.inj h ▸ balanced_nil
    · exact Option.some.inj h ▸ balanced_pair _
    · exact Option.some.inj h ▸ balanced_pair _
    · obtain ⟨sent,-,hsent⟩ := Option.bind_eq_some_iff.1 h
      split_ifs at hsent
      · obtain ⟨received,-,rfl⟩ := Option.map_eq_some_iff.1 hsent
        simp only [RecvExit.calls_eq]
        exact balanced_pair _
      · exact Option.some.inj hsent ▸ balanced_pair _

/-! ### All four -/

/-- No function leaks a descriptor exactly when `ConfigStore_Load` does not open an empty
file. -/
theorem balanced_iff (parseLine : τ → List UInt8 → τ) (read : δ → ℕ → ReadResult × δ)
    (fd size : ℤ) (store : τ) (device : δ) (saveFd : ℤ) (written : ℕ → ℤ) (c : Config F)
    (files : Files δ') (fileState : δ') (args : List UInt8) (api : Sockets δ'') (network : δ'')
    (hostName port sendBuffer retBuffer : List UInt8) (retBufferSize : ℤ) :
    (LoadBalanced parseLine read fd size store device ∧ Balanced (saveCalls saveFd written c) ∧
      (∀ fuel r, handleTailCommand files args fuel fileState = some r → Balanced r.calls) ∧
      ∀ fuel r, httpSendReceive api hostName port sendBuffer retBuffer retBufferSize fuel
        network = some r → Balanced r.calls) ↔
    fd < 0 ∨ 0 < size := by
  rw [loadBalanced_iff]
  exact and_iff_left ⟨saveCalls_balanced saveFd written c,fun _ _ => handleTailCommand_balanced,
    fun _ _ => httpSendReceive_balanced⟩

/-- The empty file that `FS_O_CREAT` has just made stays open. -/
theorem load_of_new_file_leaks :
    ¬ ∀ (fd size : ℤ) (device : FileDevice),
      LoadBalanced (fun (calls : List (List UInt8)) line => calls++[line]) fileRead fd size []
        device := by
  intro h
  have hleak := h 3 0 ⟨[],fun _ => 1,0⟩ 0 ⟨[],⟨[],fun _ => 1,0⟩,true,false⟩ rfl
  exact not_balanced_single 3 hleak

end Descriptors
end A9GTracker
