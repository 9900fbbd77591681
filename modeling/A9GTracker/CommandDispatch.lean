import A9GTracker.ConfigCommands
import A9GTracker.Selection

/-! The dispatch of a console line: the table is tried in the order of falling command
lengths, so the first command that fits is the longest one. -/
namespace A9GTracker
namespace CommandDispatch

open CString Utils ConfigStore ConfigFile ConfigCommands Selection

variable {F : Type} [FloatLib F]

/-! ### The sorted table -/

/-- The sort of the source is a selection sort of the indices by their command lengths. -/
theorem initUartCmdTableSortedIdx_eq (cmdLen : List ℕ) :
    initUartCmdTableSortedIdx cmdLen =
      selectionSort (fun i => cmdLen.getD i 0) 0 (List.range cmdLen.length) := by
  rw [selectionSort,List.length_range]
  rfl

theorem initUartCmdTableSortedIdx_perm (cmdLen : List ℕ) :
    (initUartCmdTableSortedIdx cmdLen).Perm (List.range cmdLen.length) := by
  rw [initUartCmdTableSortedIdx_eq]
  exact selectionSort_perm _ _ _

theorem initUartCmdTableSortedIdx_pairwise (cmdLen : List ℕ) :
    (initUartCmdTableSortedIdx cmdLen).Pairwise
      fun i j => cmdLen.getD j 0 ≤ cmdLen.getD i 0 := by
  rw [initUartCmdTableSortedIdx_eq]
  exact selectionSort_pairwise _ _ _

theorem filterMap_range {ρ : Type} (table : List ρ) :
    (List.range table.length).filterMap (fun i => table[i]?) = table := by
  induction table with
  | nil => rfl
  | cons r table ih =>
    rw [List.length_cons,List.range_succ_eq_map,List.filterMap_cons,List.filterMap_map]
    exact congrArg (r::·) ih

section rows
variable {ρ : Type} (table : List ρ) (cmdLen : ρ → ℕ)

/-- Any table is only put in another order. -/
theorem sorted_perm :
    ((initUartCmdTableSortedIdx (table.map cmdLen)).filterMap fun i => table[i]?).Perm table := by
  have hperm := (initUartCmdTableSortedIdx_perm (table.map cmdLen)).filterMap fun i => table[i]?
  rwa [List.length_map,filterMap_range] at hperm

theorem sorted_pairwise :
    ((initUartCmdTableSortedIdx (table.map cmdLen)).filterMap fun i => table[i]?).Pairwise
      fun r r' => cmdLen r' ≤ cmdLen r := by
  refine (initUartCmdTableSortedIdx_pairwise (table.map cmdLen)).filterMap _ ?_
  intro i j hle r hr r' hr'
  have hlen : ∀ {k r}, table[k]? = some r → (table.map cmdLen).getD k 0 = cmdLen r := by
    intro k r hk
    rw [List.getD_eq_getElem?_getD,List.getElem?_map,hk]
    rfl
  rwa [hlen hr,hlen hr'] at hle

end rows

theorem mem_sortedTable (c : UartCmd) : c ∈ sortedTable ↔ c ∈ uartCmdTable :=
  (sorted_perm uartCmdTable fun c => c.cmd.length).mem_iff

theorem sortedTable_pairwise : sortedTable.Pairwise fun c c' => c'.cmd.length ≤ c.cmd.length :=
  sorted_pairwise uartCmdTable fun c => c.cmd.length

/-! ### The first match -/

/-- The line is the command, or begins with it and a blank; `arg` is what follows it. -/
def Invokes (c : UartCmd) (line arg : List UInt8) : Prop :=
  line = c.cmd++arg ∧ (arg = [] ∨ arg.head? = some 32)

/-- The longest command of the table that the line invokes. -/
structure LongestMatch (line : List UInt8) (c : UartCmd) (arg : List UInt8) : Prop where
  listed : c ∈ uartCmdTable
  invokes : Invokes c line arg
  longest : ∀ c' ∈ uartCmdTable, c' ≠ c → ∀ arg', Invokes c' line arg' →
    c'.cmd.length < c.cmd.length

theorem isAt_iff_invokes {c : UartCmd} {line : List UInt8} :
    c.isAt line = true ↔ Invokes c line (line.drop c.cmd.length) := by
  rw [isAt_iff]
  constructor
  · rintro ⟨rest,rfl,hrest⟩
    rw [List.drop_left]
    refine ⟨rfl,hrest.imp_right ?_⟩
    rintro ⟨t,rfl⟩
    rfl
  · rintro ⟨hline,harg⟩
    exact ⟨_,hline,harg.imp_right List.head?_eq_some_iff.1⟩

theorem Invokes.arg_eq {c : UartCmd} {line arg : List UInt8} (h : Invokes c line arg) :
    line.drop c.cmd.length = arg := by
  rw [h.1,List.drop_left]

theorem Invokes.eq_of_length {c c' : UartCmd} {line arg arg' : List UInt8}
    (h : Invokes c line arg) (h' : Invokes c' line arg') (hlen : c'.cmd.length = c.cmd.length) :
    c' = c := by
  have hcmd : c'.cmd = c.cmd := (List.append_inj (h'.1.symm.trans h.1) hlen).1
  have hinj : ∀ a ∈ uartCmdTable, ∀ b ∈ uartCmdTable, a.cmd = b.cmd → a = b := by
    decide +kernel
  have hall : ∀ a : UartCmd, a ∈ uartCmdTable := by
    intro a
    cases a <;> decide
  exact hinj c' (hall c') c (hall c) hcmd

/-- The longest match is unique. -/
theorem LongestMatch.unique {line : List UInt8} {c c' : UartCmd} {arg arg' : List UInt8}
    (h : LongestMatch line c arg) (h' : LongestMatch line c' arg') : (c',arg') = (c,arg) := by
  obtain rfl : c' = c := by
    by_contra hne
    have hlt := h.longest c' h'.listed hne arg' h'.invokes
    have hgt := h'.longest c h.listed (Ne.symm hne) arg h.invokes
    omega
  rw [← h.invokes.arg_eq,← h'.invokes.arg_eq]

theorem dispatch_eq_some {data : List UInt8} {call : UartCmd × List UInt8}
    (h : dispatch data = some call) : LongestMatch (trimWhitespace data) call.1 call.2 := by
  simp only [dispatch,Option.map_eq_some_iff] at h
  obtain ⟨c,hfind,rfl⟩ := h
  have hat := List.find?_some hfind
  rw [isAt_iff_invokes] at hat
  refine ⟨(mem_sortedTable c).1 (List.mem_of_find?_eq_some hfind),hat,?_⟩
  intro c' hc' hne arg' hinvokes
  have hat' : c'.isAt (trimWhitespace data) = true := by
    rw [isAt_iff_invokes,hinvokes.arg_eq]
    exact hinvokes
  have hle := key_le_of_find? sortedTable_pairwise hfind c' ((mem_sortedTable c').2 hc') hat'
  exact lt_of_le_of_ne hle fun heq => hne (hat.eq_of_length hinvokes heq)

theorem dispatch_eq_none {data : List UInt8} (h : dispatch data = none) :
    ∀ c ∈ uartCmdTable, ∀ arg, ¬ Invokes c (trimWhitespace data) arg := by
  intro c hc arg hinvokes
  simp only [dispatch,Option.map_eq_none_iff] at h
  have hnone := List.find?_eq_none.1 h c ((mem_sortedTable c).2 hc)
  rw [isAt_iff_invokes,hinvokes.arg_eq] at hnone
  exact hnone hinvokes

/-- The sort puts the rows of any table in an order of falling lengths, and every line runs
the one handler of its longest match, with what follows the command, or none when there is
no match. -/
theorem handleUartCommand_longestMatch :
    (∀ (len : ℕ) (lens : List ℕ),
      (initUartCmdTableSortedIdx (len::lens)).Perm (List.range (len::lens).length) ∧
        (initUartCmdTableSortedIdx (len::lens)).Pairwise
          fun i j => (len::lens).getD j 0 ≤ (len::lens).getD i 0) ∧
    ∀ data : List UInt8,
      (∃ call : UartCmd × List UInt8,
        (∀ c arg, LongestMatch (trimWhitespace (cstring data)) c arg ↔ (c,arg) = call) ∧
          ∀ a (d : Device F), handleUartCommand a data d = runHandler a d (some call)) ∨
      ((∀ c ∈ uartCmdTable, ∀ arg, ¬ Invokes c (trimWhitespace (cstring data)) arg) ∧
        ∀ a (d : Device F), handleUartCommand a data d = (d,.unknownCommand)) := by
  refine ⟨fun len lens => ⟨initUartCmdTableSortedIdx_perm _,
    initUartCmdTableSortedIdx_pairwise _⟩,fun data => ?_⟩
  cases hdispatch : dispatch (cstring data) with
  | some call =>
    have hmatch := dispatch_eq_some hdispatch
    refine Or.inl ⟨call,fun c arg => ⟨fun h => hmatch.unique h,?_⟩,fun a d => ?_⟩
    · rintro rfl
      exact hmatch
    · rw [handleUartCommand,hdispatch]
  | none =>
    refine Or.inr ⟨dispatch_eq_none hdispatch,fun a d => ?_⟩
    rw [handleUartCommand,hdispatch]
    rfl

example : dispatch (lit " net activate  ") = some (.netActivate,[]) := by decide +kernel

end CommandDispatch
end A9GTracker
