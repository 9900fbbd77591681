import A9GTracker.CharBuffer
import A9GTracker.Network
import A9GTracker.Utils

/-! The console command `ls` of `app/src/config_commands.c`, with every write to the buffer in
which it puts the path of a file together. -/
namespace A9GTracker
namespace LsCommand

open CString Utils CharBuffer Network

/-! ### The command -/

/-- `Dirent_t`, the fields that are read. The name ends inside of its 256 bytes. -/
structure Dirent where
  dType : UInt8
  dName : List UInt8
  length_le : dName.length ≤ 255
  noNul : (0 : UInt8) ∉ dName

/-- What the SDK finds: the entries of a directory that opens, and the size of a file that
does. -/
structure Directories where
  openDir : List UInt8 → Option (List Dirent)
  fileSize : List UInt8 → Option ℤ

/-- What `UART_Printf` writes of a text. -/
def uartPrintf (text : List UInt8) : List UInt8 := text.take 1023

def printName (name : List UInt8) : List UInt8 := name++List.replicate (20-name.length) 32
def printSize (size : ℤ) : List UInt8 :=
  List.replicate (8-(printInt size).length) 32++printInt size

structure LsState where
  filePath : Buffer
  opened : List (List UInt8)
  output : List (List UInt8)

def lsPath (path : List UInt8) : List UInt8 :=
  let path := trimWhitespace (cstring path)
  if path = [] then lit "/" else path

/-- `file_path` and `base_path_len` in front of the loop. The first copy writes the whole
buffer, so what it held before does not matter. -/
def startPath (path : List UInt8) : Buffer × ℕ :=
  let filePath := (strncpyFrom 0 255 path ⟨List.replicate 256 0,[]⟩).put 255 0
  let basePathLen := (cstring filePath.bytes).length
  if basePathLen = 0 ∨ filePath.bytes.getD (basePathLen-1) 0 ≠ 47 then
    if basePathLen < 255 then
      ((filePath.put basePathLen 47).put (basePathLen+1) 0,basePathLen+1)
    else (filePath,basePathLen)
  else (filePath,basePathLen)

/-- One round of the loop. The copy of the name is bounded, the terminator behind it is not. -/
def lsEntry (sdk : Directories) (basePathLen : ℕ) (st : LsState) (dirent : Dirent) : LsState :=
  if dirent.dType = 8 then
    let filePath := (strncpyFrom basePathLen (256-basePathLen-1) dirent.dName st.filePath).put
      (basePathLen+dirent.dName.length) 0
    let opened := cstring filePath.bytes
    ⟨filePath,st.opened++[opened],st.output++[uartPrintf (lit "<file>  "++printName dirent.dName++
      lit "  "++printSize ((sdk.fileSize opened).getD 0)++lit "\r\n")]⟩
  else if dirent.dType = 4 then
    { st with output := st.output++[uartPrintf (lit "<dir>   "++printName dirent.dName++lit "\r\n")] }
  else { st with output := st.output++[uartPrintf (lit "<unknown>\r\n")] }

def handleLsCommand (sdk : Directories) (path : List UInt8) : LsState :=
  let path := lsPath path
  let output := [uartPrintf (lit "File list in "++path++lit ":\r\n")]
  match sdk.openDir path with
  | none =>
    ⟨⟨[],[]⟩,[],output++[uartPrintf (lit "cannot open directory: "++path++lit "\r\n")]⟩
  | some entries =>
    entries.foldl (lsEntry sdk (startPath path).2) ⟨(startPath path).1,[],output⟩

/-! ### The base path -/

def basePath (path : List UInt8) : List UInt8 :=
  if path.getLast? = some 47 ∨ 255 ≤ path.length then path.take 255 else path++[47]

theorem length_basePath_le (path : List UInt8) : (basePath path).length ≤ 255 := by
  unfold basePath
  split_ifs with h
  · exact List.length_take_le _ _
  · rw [List.length_append,List.length_singleton]
    omega

theorem basePath_noNul {path : List UInt8} (h : (0 : UInt8) ∉ path) :
    (0 : UInt8) ∉ basePath path := by
  unfold basePath
  split_ifs
  · exact fun hmem => h (List.mem_of_mem_take hmem)
  · simpa using h

theorem lsPath_noNul (path : List UInt8) : (0 : UInt8) ∉ lsPath path := by
  unfold lsPath
  dsimp only
  split_ifs
  · decide
  · exact fun hmem => zero_notMem_cstring path (mem_of_mem_trimWhitespace hmem)

/-- A name copied behind the base path, with a terminator at or behind its end. -/
theorem copyName_eq (base s : List UInt8) (writes : List ℕ) {name : List UInt8} {i : ℕ}
    (hs : (base++s).length ≤ 255) (h0 : (0 : UInt8) ∉ name)
    (hi : (base++name.take (255-base.length)).length ≤ i) :
    (strncpyFrom base.length (256-base.length-1) name ⟨padded 256 (base++s),writes⟩).put i 0 =
      ⟨padded 256 (base++name.take (255-base.length)),
        writes++List.range' base.length (255-base.length)++[i]⟩ := by
  have hroom : 256-base.length-1 = 255-base.length := by omega
  have hlen : (padded 256 (base++s)).length = 256 := length_padded (hs.trans (by decide))
  rw [List.length_append] at hs
  have hend : base.length+(255-base.length) = 255 := by omega
  have hfront : (padded 256 (base++s)).take base.length = base := by
    rw [padded,List.append_assoc,List.take_left]
  have hback : (padded 256 (base++s)).drop 255 = [0] := by
    have hlast : 255-(base++s).length ≤ 256-(base++s).length := by omega
    rw [padded,List.drop_append,List.drop_of_length_le (by rw [List.length_append]; omega),
      List.nil_append,List.drop_replicate,List.length_append]
    exact congrArg (List.replicate · 0) (by omega : _ = 1)
  have hcopied : (strncpyFrom base.length (255-base.length) name
      ⟨padded 256 (base++s),writes⟩).bytes = padded 256 (base++name.take (255-base.length)) := by
    have htake : (name.take (255-base.length)).length ≤ 255-base.length := List.length_take_le _ _
    rw [strncpyFrom_bytes h0 (by rw [hend,hlen]; decide),hend,hfront,hback,padded,padded,
      List.append_assoc base,List.append_assoc,← List.replicate_succ',List.append_assoc,
      List.length_append]
    congr 3
    omega
  rw [hroom,Buffer.put,strncpyFrom_writes,hcopied,padded_set_zero hi]

theorem copiedPath_eq {path : List UInt8} (h0 : (0 : UInt8) ∉ path) :
    (strncpyFrom 0 255 path ⟨List.replicate 256 0,[]⟩).put 255 0 =
      ⟨padded 256 (path.take 255),List.range' 0 255++[255]⟩ :=
  copyName_eq [] [] [] (by decide) h0 (List.length_take_le _ _)

theorem last_padded {path : List UInt8} (hne : path ≠ []) :
    (padded 256 path).getD (path.length-1) 0 = 47 ↔ path.getLast? = some 47 := by
  have hpos := List.length_pos_iff.2 hne
  have hlt : path.length-1 < path.length := by omega
  rw [padded,List.getD_eq_getElem?_getD,List.getElem?_append_left hlt,List.getLast?_eq_getElem?,
    List.getElem?_eq_getElem hlt,Option.getD_some,Option.some.injEq]

theorem startPath_eq {path : List UInt8} (h0 : (0 : UInt8) ∉ path) (hne : path ≠ []) :
    ∃ writes, startPath path = (⟨padded 256 (basePath path),writes⟩,(basePath path).length) ∧
      ∀ i ∈ writes, i ≤ 255 := by
  have h0' : (0 : UInt8) ∉ path.take 255 := fun hmem => h0 (List.mem_of_mem_take hmem)
  have hpos := List.length_pos_iff.2 hne
  have hbounds : ∀ i ∈ List.range' 0 255++[255], i ≤ 255 := by
    intro i hi
    rcases List.mem_append.1 hi with hi | hi
    · have := List.mem_range'_1.1 hi
      omega
    · exact (List.mem_singleton.1 hi).le
  unfold startPath
  rw [copiedPath_eq h0]
  dsimp only
  rw [cstring_padded,cstring_eq_self h0']
  by_cases hfull : 255 ≤ path.length
  · -- no room is left for a `/`
    have hlen : (path.take 255).length = 255 := List.length_take_of_le hfull
    rw [basePath,if_pos (Or.inr hfull),hlen]
    exact ⟨_,ite_self _,hbounds⟩
  · rw [List.take_of_length_le (by omega : path.length ≤ 255)]
    by_cases hslash : path.getLast? = some 47
    · have hends := (last_padded hne).2 hslash
      rw [if_neg (not_or.2 ⟨hpos.ne',not_not.2 hends⟩),basePath,if_pos (Or.inl hslash),
        List.take_of_length_le (by omega)]
      exact ⟨_,rfl,hbounds⟩
    · have hends := (last_padded hne).not.2 hslash
      have hbase : basePath path = path++[47] := if_neg (not_or.2 ⟨hslash,hfull⟩)
      have hlen : (path++[47]).length = path.length+1 := List.length_append
      rw [if_pos (Or.inr hends),if_pos (by omega),hbase,hlen]
      simp only [Buffer.put]
      rw [padded_set (by omega),padded_set_zero hlen.le]
      refine ⟨_,rfl,fun i hi => ?_⟩
      rcases List.mem_append.1 hi with hi | hi
      · rcases List.mem_append.1 hi with hi | hi
        · exact hbounds i hi
        · rw [List.mem_singleton.1 hi]
          omega
      · rw [List.mem_singleton.1 hi]
        omega

/-! ### The entries -/

def openedPath (base name : List UInt8) : List UInt8 := base++name.take (255-base.length)

def HoldsPath (base : List UInt8) (st : LsState) : Prop :=
  ∃ s writes, (base++s).length ≤ 255 ∧ st.filePath = ⟨padded 256 (base++s),writes⟩

def regular (entries : List Dirent) : List Dirent := entries.filter (·.dType = 8)

theorem lsEntry_regular (sdk : Directories) {base : List UInt8} {st : LsState} {dirent : Dirent}
    (h0 : (0 : UInt8) ∉ base) (hlen : base.length ≤ 255) (hst : HoldsPath base st)
    (hd : dirent.dType = 8) :
    HoldsPath base (lsEntry sdk base.length st dirent) ∧
      (lsEntry sdk base.length st dirent).filePath.writes = st.filePath.writes++
        List.range' base.length (255-base.length)++[base.length+dirent.dName.length] ∧
      (lsEntry sdk base.length st dirent).opened = st.opened++[openedPath base dirent.dName] := by
  obtain ⟨s,writes,hs,hpath⟩ := hst
  have hcut : (dirent.dName.take (255-base.length)).length ≤ 255-base.length ∧
      (dirent.dName.take (255-base.length)).length ≤ dirent.dName.length :=
    ⟨List.length_take_le _ _,List.length_take_le' _ _⟩
  have hcopy := copyName_eq base s writes (i := base.length+dirent.dName.length) hs
    dirent.noNul (by rw [List.length_append]; omega)
  have h0' : (0 : UInt8) ∉ base++dirent.dName.take (255-base.length) := by
    rintro hmem
    rcases List.mem_append.1 hmem with hmem | hmem
    · exact h0 hmem
    · exact dirent.noNul (List.mem_of_mem_take hmem)
  rw [lsEntry,if_pos hd,hpath,hcopy]
  refine ⟨⟨_,_,?_,rfl⟩,rfl,?_⟩
  · rw [List.length_append]
    omega
  · dsimp only
    rw [cstring_padded,cstring_eq_self h0']
    rfl

theorem lsEntry_other (sdk : Directories) (basePathLen : ℕ) (st : LsState) {dirent : Dirent}
    (hd : dirent.dType ≠ 8) :
    (lsEntry sdk basePathLen st dirent).filePath = st.filePath ∧
      (lsEntry sdk basePathLen st dirent).opened = st.opened := by
  rw [lsEntry,if_neg hd]
  split_ifs <;> exact ⟨rfl,rfl⟩

def FitsBehind (base name : List UInt8) : Prop := base.length+name.length ≤ 255

/-- The loop opens the path of every regular file, and its writes stay inside of the buffer just
when every name fits. -/
theorem lsEntries_spec (sdk : Directories) {base : List UInt8} (h0 : (0 : UInt8) ∉ base)
    (hlen : base.length ≤ 255) (entries : List Dirent) {st : LsState} (hst : HoldsPath base st) :
    (entries.foldl (lsEntry sdk base.length) st).opened =
        st.opened++(regular entries).map (fun e => openedPath base e.dName) ∧
      ((∀ i ∈ (entries.foldl (lsEntry sdk base.length) st).filePath.writes, i ≤ 255) ↔
        (∀ i ∈ st.filePath.writes, i ≤ 255) ∧ ∀ e ∈ regular entries, FitsBehind base e.dName) := by
  induction entries generalizing st with
  | nil => simp [regular]
  | cons e entries ih =>
    rw [List.foldl_cons]
    by_cases hd : e.dType = 8
    · obtain ⟨hholds,hwrites,hopened⟩ := lsEntry_regular sdk h0 hlen hst hd
      obtain ⟨ihopened,ihwrites⟩ := ih hholds
      have hcons : regular (e::entries) = e::regular entries :=
        List.filter_cons_of_pos (by simpa using hd)
      have hrange : ∀ i ∈ List.range' base.length (255-base.length), i ≤ 255 := by
        intro i hi
        have := List.mem_range'_1.1 hi
        omega
      refine ⟨?_,?_⟩
      · rw [ihopened,hopened,hcons,List.map_cons,List.append_assoc,List.singleton_append]
      · rw [ihwrites,hwrites,hcons,List.forall_mem_cons,FitsBehind,List.forall_mem_append,
          List.forall_mem_append,List.forall_mem_singleton]
        exact ⟨fun ⟨⟨⟨hstart,_⟩,hfits⟩,hrest⟩ => ⟨hstart,hfits,hrest⟩,
          fun ⟨hstart,hfits,hrest⟩ => ⟨⟨⟨hstart,hrange⟩,hfits⟩,hrest⟩⟩
    · obtain ⟨hpath,hopened⟩ := lsEntry_other sdk base.length st hd
      have hskip : regular (e::entries) = regular entries :=
        List.filter_cons_of_neg (by simpa using hd)
      obtain ⟨s,writes,hs,heq⟩ := hst
      have hholds : HoldsPath base (lsEntry sdk base.length st e) :=
        ⟨s,writes,hs,hpath.trans heq⟩
      rw [hskip,← hopened,← hpath]
      exact ih hholds

/-! ### Listings in bounds -/

/-- The directory path, a single `/` and the name. -/
def joinPath (path name : List UInt8) : List UInt8 :=
  if path.getLast? = some 47 then path++name else path++47::name

theorem fitsBehind_iff (path name : List UInt8) :
    FitsBehind (basePath path) name ↔ name = [] ∨ (joinPath path name).length ≤ 255 := by
  rw [FitsBehind,basePath,joinPath,← List.length_eq_zero_iff]
  by_cases hslash : path.getLast? = some 47
  · rw [if_pos (Or.inl hslash),if_pos hslash,List.length_take,List.length_append]
    omega
  · rw [if_neg hslash,List.length_append,List.length_cons]
    split_ifs with hfull
    · have hlen : 255 ≤ path.length := hfull.resolve_left hslash
      rw [List.length_take_of_le hlen]
      omega
    · rw [List.length_append,List.length_singleton]
      omega

theorem openedPath_of_fits {path name : List UInt8} (h : (joinPath path name).length ≤ 255) :
    openedPath (basePath path) name = joinPath path name := by
  have hfits : (basePath path).length+name.length ≤ 255 := (fitsBehind_iff path name).2 (Or.inr h)
  rw [openedPath,List.take_of_length_le (by omega),basePath,joinPath] at *
  by_cases hslash : path.getLast? = some 47
  · rw [if_pos hslash,List.length_append] at h
    rw [if_pos (Or.inl hslash),if_pos hslash,List.take_of_length_le (by omega)]
  · rw [if_neg hslash,List.length_append,List.length_cons] at h
    rw [if_neg (not_or.2 ⟨hslash,by omega⟩),if_neg hslash,List.append_assoc]
    rfl

theorem handleLsCommand_spec (sdk : Directories) (path : List UInt8) {entries : List Dirent}
    (hopen : sdk.openDir (lsPath path) = some entries) :
    (handleLsCommand sdk path).opened =
        (regular entries).map (fun e => openedPath (basePath (lsPath path)) e.dName) ∧
      ((∀ i ∈ (handleLsCommand sdk path).filePath.writes, i ≤ 255) ↔
        ∀ e ∈ regular entries, FitsBehind (basePath (lsPath path)) e.dName) := by
  have hne : lsPath path ≠ [] := by
    unfold lsPath
    dsimp only
    split_ifs with hempty
    · decide
    · exact hempty
  have h0 := lsPath_noNul path
  obtain ⟨writes,hstart,hbounds⟩ := startPath_eq h0 hne
  have hholds : HoldsPath (basePath (lsPath path)) ⟨⟨padded 256 (basePath (lsPath path)),writes⟩,[],
      [uartPrintf (lit "File list in "++lsPath path++lit ":\r\n")]⟩ := by
    refine ⟨[],writes,?_,?_⟩
    · rw [List.append_nil]
      exact length_basePath_le _
    · rw [List.append_nil]
  obtain ⟨hopened,hwrites⟩ := lsEntries_spec sdk (basePath_noNul h0)
    (length_basePath_le _) entries hholds
  have hrun : handleLsCommand sdk path = entries.foldl (lsEntry sdk (basePath (lsPath path)).length)
      ⟨⟨padded 256 (basePath (lsPath path)),writes⟩,[],
        [uartPrintf (lit "File list in "++lsPath path++lit ":\r\n")]⟩ := by
    simp only [handleLsCommand,hopen,hstart]
  rw [hrun]
  exact ⟨hopened,hwrites.trans ⟨fun h => h.2,fun h => ⟨hbounds,h⟩⟩⟩

/-- All writes are inside of the buffer, and the path opened for a regular file is that of the
file whenever it fits. -/
structure ListsInBounds (sdk : Directories) (path : List UInt8) : Prop where
  writes : ∀ i ∈ (handleLsCommand sdk path).filePath.writes, i ≤ 255
  opened : ∀ entries ∈ sdk.openDir (lsPath path),
    List.Forall₂ (fun e p => (joinPath (lsPath path) e.dName).length ≤ 255 →
      p = joinPath (lsPath path) e.dName) (regular entries) (handleLsCommand sdk path).opened

/-- Exactly the directories without a regular file whose path is too long are listed so. -/
theorem listsInBounds_iff (sdk : Directories) (path : List UInt8) :
    ListsInBounds sdk path ↔ ∀ entries ∈ sdk.openDir (lsPath path), ∀ e ∈ regular entries,
      e.dName = [] ∨ (joinPath (lsPath path) e.dName).length ≤ 255 := by
  constructor
  · rintro ⟨hwrites,-⟩ entries hentries e he
    exact (fitsBehind_iff _ _).1 ((handleLsCommand_spec _ _ hentries).2.1 hwrites e he)
  · intro h
    cases hopen : sdk.openDir (lsPath path) with
    | none =>
      refine ⟨?_,fun entries hentries => ?_⟩
      · simp [handleLsCommand,hopen]
      · rw [hopen] at hentries
        cases hentries
    | some entries =>
      obtain ⟨hopened,hwrites⟩ := handleLsCommand_spec _ _ hopen
      refine ⟨hwrites.2 fun e he => (fitsBehind_iff _ _).2 (h entries hopen e he),?_⟩
      intro entries' hentries'
      obtain rfl := Option.mem_unique hentries' hopen
      rw [hopened,List.forall₂_map_right_iff,List.forall₂_same]
      exact fun e he hfits => openedPath_of_fits hfits

def longName : Dirent where
  dType := 8
  dName := List.replicate 255 97
  length_le := List.length_replicate.le
  noNul := fun h => absurd (List.eq_of_mem_replicate h) (by decide)

/-- The terminator behind that name is written behind the buffer. -/
theorem ls_longName_overruns :
    ¬ ∀ (sdk : Directories) (path : List UInt8), ListsInBounds sdk path := by
  intro h
  have hwrites := (handleLsCommand_spec ⟨fun _ => some [longName],fun _ => none⟩ [] rfl).2.1
    (h _ []).writes
  have hfits := hwrites longName (List.mem_filter.2 ⟨List.mem_singleton_self _,rfl⟩)
  have hroot : (basePath (lsPath [])).length = 1 := by decide
  have hname : longName.dName.length = 255 := List.length_replicate
  rw [FitsBehind,hroot,hname] at hfits
  exact absurd hfits (by decide)

end LsCommand
end A9GTracker
