import A9GTracker.ConfigInvariant

/-! The two ways to a parameter: a `set` command of the console and a line of the file. They
agree exactly where no blank is left in front of the value of the command. -/
namespace A9GTracker
namespace ConfigPaths

open CString Utils ConfigStore ConfigFile ConfigCommands ConfigFields

variable {F : Type} [FloatLib F]

/-! ### The console path -/

theorem isAt_set (c : UartCmd) (s : List UInt8) :
    c.isAt (lit "set "++s) = decide (c = .set) := by
  have hset : lit "set "++s = 115::101::116::32::s := by
    have heq : lit "set " = [115,101,116,32] := by decide
    simp [heq]
  rw [hset]
  cases c <;> simp [UartCmd.isAt,UartCmd.cmd,lit]

/-- A line that starts with `set` and a blank goes to the handler of `set`. -/
theorem dispatch_set {s : List UInt8} (h : trimWhitespace (lit "set "++s) = lit "set "++s) :
    dispatch (lit "set "++s) = some (.set,32::s) := by
  have hfind : (sortedTable.find? fun c => c.isAt (lit "set "++s)) = some .set := by
    simp only [isAt_set]
    decide +kernel
  have hdrop : (lit "set "++s).drop UartCmd.set.cmd.length = 32::s := by simp [UartCmd.cmd,lit]
  simp only [dispatch,h,hfind,Option.map_some,hdrop]

theorem dispatch_append_blank {ws : List UInt8} (h : AllBlank ws) (s : List UInt8) :
    dispatch (s++ws) = dispatch s := by
  simp only [dispatch,trimWhitespace_append_right h]

theorem paramName_plain (p : Param) : (32 : UInt8) ∉ p.paramName ∧ (0 : UInt8) ∉ p.paramName ∧
    (61 : UInt8) ∉ p.paramName ∧ trimWhitespace p.paramName = p.paramName ∧ p.paramName ≠ [] := by
  cases p <;> decide

def outcome (p : Param) (value : List UInt8) (d : Device F) : Device F × Bool :=
  match decode (F := F) p value with
  | none => (d,false)
  | some x => (put p x d,true)

theorem outcome_eq_iff {p : Param} {value value' : List UInt8} {d : Device F} :
    outcome p value d = outcome p value' d ↔ decode (F := F) p value = decode p value' := by
  unfold outcome
  constructor
  · intro h
    cases hx : decode (F := F) p value with
    | none =>
      cases hx' : decode (F := F) p value' with
      | none => rfl
      | some x' => simp [hx,hx'] at h
    | some x =>
      cases hx' : decode (F := F) p value' with
      | none => simp [hx,hx'] at h
      | some x' =>
        simp only [hx,hx',Prod.mk.injEq,and_true] at h
        rw [← get_put_self p x d,h,get_put_self]
  · intro h
    rw [h]

theorem handleSetCommand_eq (a : SaveAnswers) {param : List UInt8} {p : Param}
    {value : List UInt8} (hne : trimWhitespace param ≠ [])
    (hsplit : splitAtSpace (trimWhitespace param) = (p.paramName,value)) (d : Device F) :
    ((handleSetCommand a param d).1,(handleSetCommand a param d).2.accepted) =
      outcome p value d := by
  simp only [handleSetCommand,if_neg hne,hsplit,getConfigMap_paramName,validator_eq,outcome]
  cases decode (F := F) p value <;> rfl

theorem parseLine_eq {key : List UInt8} {p : Param} (h61 : (61 : UInt8) ∉ key)
    (h0 : (0 : UInt8) ∉ key) (hkey : trimWhitespace key = p.paramName) (v : List UInt8)
    (d : Device F) : ((parseLine d (key++61::v)).1,(parseLine d (key++61::v)).2.ret) =
      outcome p (trimWhitespace v) d := by
  have htake : (key++61::v).take key.length = key := by simp
  have hdrop : (key++61::v).drop (key.length+1) = v := by simp
  simp only [parseLine,strchr_append h61 h0 (by decide),htake,hdrop,hkey,getConfigMap_paramName,
    validator_eq,outcome]
  cases decode (F := F) p (trimWhitespace v) <;> rfl

/-! ### Blanks in front of a value -/

theorem decodeString_blanks {n : ℕ} {emptyOk : Bool} {u w : List UInt8} (hu : (0 : UInt8) ∉ u)
    (hw : (0 : UInt8) ∉ w) (hne : w ≠ []) (hlt : w.length < u.length) :
    decodeString n emptyOk u = decodeString n emptyOk w ↔ decodeString n emptyOk w = none := by
  have hpos := List.length_pos_iff.2 hne
  constructor
  · intro h
    cases hx : decodeString n emptyOk w with
    | none => rfl
    | some a =>
      have hu' := text_of_decodeString hu (h.trans hx)
      have hw' := text_of_decodeString hw hx
      rw [← hu',hw'] at hlt
      exact absurd hlt (lt_irrefl _)
  · intro h
    have hlong : n ≤ w.length := by
      by_contra hshort
      rw [decodeString,if_pos ⟨Or.inr hpos,by omega⟩] at h
      simp at h
    rw [h,decodeString,if_neg (by omega)]

theorem strtol_blanks {bs : List UInt8} (hbs : AllBlank bs) {w : List UInt8} (hne : w ≠ []) :
    (strtol (bs++w)).1 = (strtol w).1 ∧ ((strtol (bs++w)).2 = [] ↔ (strtol w).2 = []) := by
  induction bs with
  | nil => simp
  | cons c bs ih =>
    have hcons := strtol_cons (hbs c (by simp)) (s := bs++w) (by simp [hne])
    rw [List.cons_append,hcons.1,hcons.2]
    exact ih fun c' hc' => hbs c' (by simp [hc'])

theorem decodePort_blanks {bs w : List UInt8} (hbs : AllBlank bs) (hbs' : bs ≠ [])
    (hw : (0 : UInt8) ∉ w) (hne : w ≠ []) (hhead : ∀ c ∈ w.head?, isspace c = false) :
    decodePort (bs++w) = decodePort w ↔ decodePort w = none := by
  obtain ⟨hval,hrest⟩ := strtol_blanks hbs hne
  by_cases hok : (strtol w).2 = [] ∧ 0 < (strtol w).1 ∧ (strtol w).1 ≤ 65535
  · have hnul : (0 : UInt8) ∉ bs := fun hmem => absurd (hbs 0 hmem) (by decide)
    have hu : (0 : UInt8) ∉ bs++w := by simp [hw,hnul]
    have hsome : decodePort w = some (strncpy 8 w) := if_pos hok
    rw [hsome]
    refine iff_of_false (fun h => ?_) (by simp)
    -- the copies differ in their first character
    have htext := congrArg CharArray.text (decodePort_eq_some.1 h).2
    rw [strncpy_text hu,strncpy_text hw] at htext
    cases bs with
    | nil => exact hbs' rfl
    | cons b bs =>
      cases w with
      | nil => exact hne rfl
      | cons c w =>
        have hc : isspace c = false := hhead c rfl
        rw [List.cons_append,List.take_succ_cons,List.take_succ_cons,List.cons.injEq] at htext
        rw [← htext.1,hbs b (by simp)] at hc
        exact absurd hc (by decide)
  · have hnone : decodePort w = none := if_neg hok
    have hnone' : decodePort (bs++w) = none := by
      rw [decodePort,if_neg]
      rwa [hval,hrest]
    rw [hnone,hnone']

/-- No keyword begins with a blank. -/
def PlainHeads {α : Type} (table : List (List UInt8 × α)) : Prop :=
  ∀ k ∈ table, k.1.head?.any (fun b => !isspace (tolower b)) = true

theorem protocolTable_heads : PlainHeads protocolTable := by unfold PlainHeads; decide
theorem logLevelTable_heads : PlainHeads logLevelTable := by unfold PlainHeads; decide
theorem logOutputTable_heads : PlainHeads logOutputTable := by unfold PlainHeads; decide
theorem boolTable_heads : PlainHeads boolTable := by unfold PlainHeads; decide

theorem decodeKeyword_blank {α : Type} {table : List (List UInt8 × α)} (h : PlainHeads table)
    {c : UInt8} (hc : isspace c = true) (s : List UInt8) : decodeKeyword table (c::s) = none := by
  rw [decodeKeyword,Option.map_eq_none_iff,List.find?_eq_none]
  intro k hk
  have hhead := h k hk
  obtain ⟨keyword,x⟩ := k
  cases keyword with
  | nil => simp at hhead
  | cons b t =>
    have hb : isspace (tolower b) = false := by simpa using hhead
    have hne : tolower c ≠ tolower b := by
      intro heq
      rw [← heq,tolower_of_isspace hc,hc] at hb
      exact absurd hb (by decide)
    have hnat : (tolower c).toNat ≠ (tolower b).toNat := fun heq => hne (UInt8.toNat_inj.1 heq)
    simp only [strCaseCmp,if_pos hne,decide_eq_true_eq]
    omega

/-- `atof` looks behind the blanks, unless one of them is the byte 160. -/
theorem decode_gpsUere_blanks {bs : List UInt8} (hbs : AllBlank bs) (w : List UInt8) :
    (160 ∉ bs → decode (F := F) .gpsUere (bs++w) = decode .gpsUere w) ∧
      (160 ∈ bs → decode (F := F) .gpsUere (bs++w) = none) := by
  induction bs with
  | nil => simp
  | cons c bs ih =>
    have hc := isspace_iff.1 (hbs c (by simp))
    obtain ⟨hplain,hhigh⟩ := ih fun c' hc' => hbs c' (by simp [hc'])
    by_cases hnbsp : c = 160
    · subst hnbsp
      refine ⟨fun h => absurd (by simp) h,fun _ => ?_⟩
      simp [decode,FloatLib.atof_high (F := F) 160 (bs++w) (by decide)]
    · have hskip : skippedByAtof c = true := by
        have hne : c.toNat ≠ 160 := fun h => hnbsp (UInt8.toNat_inj.1 h)
        simp only [skippedByAtof,Bool.or_eq_true,beq_iff_eq,Bool.and_eq_true,decide_eq_true_eq,
          UInt8.le_iff_toNat_le,← UInt8.toNat_inj]
        exact hc.imp id fun h => h.resolve_right hne
      have hstep : decode (F := F) .gpsUere (c::bs++w) = decode .gpsUere (bs++w) := by
        simp only [decode,List.cons_append,FloatLib.atof_skipped _ _ hskip]
      rw [hstep]
      refine ⟨fun h => hplain fun hmem => h (by simp [hmem]),fun h => hhigh ?_⟩
      rcases List.mem_cons.1 h with heq | hmem
      · exact absurd heq.symm hnbsp
      · exact hmem

/-- Blanks in front matter to every acceptable value but a number for `gps_uere`. -/
theorem decode_blanks_iff {bs w : List UInt8} (hbs : AllBlank bs) (hw : (0 : UInt8) ∉ w)
    (hne : w ≠ []) (hhead : ∀ c ∈ w.head?, isspace c = false) (p : Param) :
    decode (F := F) p (bs++w) = decode p w ↔
      bs = [] ∨ (p = .gpsUere ∧ 160 ∉ bs) ∨ decode (F := F) p w = none := by
  by_cases hnil : bs = []
  · simp [hnil]
  rw [or_iff_right hnil]
  by_cases hp : p = .gpsUere
  · subst hp
    obtain ⟨hplain,hhigh⟩ := decode_gpsUere_blanks (F := F) hbs w
    by_cases hnbsp : 160 ∈ bs
    · rw [hhigh hnbsp]
      simp [hnbsp,eq_comm]
    · simp [hplain hnbsp,hnbsp]
  rw [or_iff_right fun h => hp h.1]
  have hnul : (0 : UInt8) ∉ bs := fun hmem => absurd (hbs 0 hmem) (by decide)
  have hu : (0 : UInt8) ∉ bs++w := by simp [hw,hnul]
  have hlt : w.length < (bs++w).length := by
    have hpos := List.length_pos_iff.2 hnil
    rw [List.length_append]
    omega
  have hstring : ∀ n emptyOk,
      decodeString n emptyOk (bs++w) = decodeString n emptyOk w ↔
        decodeString n emptyOk w = none := fun n emptyOk => decodeString_blanks hu hw hne hlt
  have hkeyword : ∀ {α : Type} {table : List (List UInt8 × α)}, PlainHeads table →
      (decodeKeyword table (bs++w) = decodeKeyword table w ↔ decodeKeyword table w = none) := by
    intro α table htable
    obtain ⟨c,bs',rfl⟩ := List.exists_cons_of_ne_nil hnil
    rw [List.cons_append,decodeKeyword_blank htable (hbs c (by simp)),eq_comm]
  cases p with
  | deviceName => exact hstring 32 false
  | serverAddr => exact hstring 64 false
  | apn => exact hstring 32 false
  | apnUser => exact hstring 32 true
  | apnPass => exact hstring 32 true
  | gpsLogFile => exact hstring 128 false
  | serverPort => exact decodePort_blanks hbs hnil hw hne hhead
  | serverProtocol => exact hkeyword protocolTable_heads
  | logLevel => exact hkeyword logLevelTable_heads
  | logOutput => exact hkeyword logOutputTable_heads
  | gpsLogs => exact hkeyword boolTable_heads
  | gpsPrintPos => exact hkeyword boolTable_heads
  | gpsUere => exact absurd rfl hp

/-! ### Both paths -/

def setLine (p : Param) (n : ℕ) (v : List UInt8) : List UInt8 :=
  lit "set "++(p.paramName++(List.replicate n 32++v))

def fileLine (p : Param) (v : List UInt8) : List UInt8 := p.paramName++(lit " = "++v)

/-- Both are accepted or both are rejected, and they lead to the same configuration. -/
def PathsAgree (a : SaveAnswers) (d : Device F) (p : Param) (n : ℕ) (v : List UInt8) : Prop :=
  (handleUartCommand a (setLine p n v) d).2.accepted = (parseLine d (fileLine p v)).2.ret ∧
    (handleUartCommand a (setLine p n v) d).1 = (parseLine d (fileLine p v)).1

theorem parseLine_fileLine (p : Param) (v : List UInt8) (d : Device F) :
    ((parseLine d (fileLine p v)).1,(parseLine d (fileLine p v)).2.ret) =
      outcome p (trimWhitespace v) d := by
  have hname := paramName_plain p
  have hsplit : fileLine p v = (p.paramName++[32])++61::32::v := by simp [fileLine,lit_equals]
  have hkey : trimWhitespace (p.paramName++[32]) = p.paramName := by
    rw [trimWhitespace_concat (by decide),hname.2.2.2.1]
  rw [hsplit,parseLine_eq (by simp [hname.2.2.1]) (by simp [hname.2.1]) hkey,
    trimWhitespace_cons (by decide)]

theorem handleUartCommand_arg (a : SaveAnswers) {s ws : List UInt8} (hs : trimWhitespace s = s)
    (hne : s ≠ []) (h0 : (0 : UInt8) ∉ s) (hws : AllBlank ws) {p : Param} {value : List UInt8}
    (hsplit : splitAtSpace s = (p.paramName,value)) (d : Device F) :
    ((handleUartCommand a (lit "set "++(s++ws)) d).1,
      (handleUartCommand a (lit "set "++(s++ws)) d).2.accepted) = outcome p value d := by
  have hlast : ∀ c ∈ s.getLast?, isspace c = false :=
    fun c hc => isspace_of_getLast_trimWhitespace (by rw [hs]; exact hc)
  have hset : trimWhitespace (lit "set "++s) = lit "set "++s := by
    refine trimWhitespace_of_ends ?_ ?_
    · intro c hc
      obtain rfl : c = 115 := by simpa [lit,eq_comm] using hc
      decide
    · rw [List.getLast?_append_of_ne_nil _ hne]
      exact hlast
  have hplain : (0 : UInt8) ∉ lit "set "++(s++ws) := by
    have hlit : (0 : UInt8) ∉ lit "set " := by decide
    have hblank : (0 : UInt8) ∉ ws := fun hmem => absurd (hws 0 hmem) (by decide)
    simp [hlit,h0,hblank]
  have hdisp : dispatch (cstring (lit "set "++(s++ws))) = some (.set,32::s) := by
    rw [cstring_eq_self hplain,← List.append_assoc,dispatch_append_blank hws,dispatch_set hset]
  have harg : trimWhitespace (32::s) = s := by rw [trimWhitespace_cons (by decide),hs]
  simp only [handleUartCommand,hdisp,runHandler,if_true,UartReply.accepted]
  have hne' : trimWhitespace (32::s) ≠ [] := by rwa [harg]
  have hsplit' : splitAtSpace (trimWhitespace (32::s)) = (p.paramName,value) :=
    (congrArg splitAtSpace harg).trans hsplit
  exact handleSetCommand_eq a hne' hsplit' d

theorem handleUartCommand_value (a : SaveAnswers) (p : Param) (value : List UInt8) {ws : List UInt8}
    (hlast : ∀ c ∈ value.getLast?, isspace c = false) (hne : value ≠ [])
    (h0 : (0 : UInt8) ∉ value) (hws : AllBlank ws) (d : Device F) :
    ((handleUartCommand a (lit "set "++((p.paramName++32::value)++ws)) d).1,
      (handleUartCommand a (lit "set "++((p.paramName++32::value)++ws)) d).2.accepted) =
      outcome p value d := by
  obtain ⟨hblank,hnul,-,hname,hname'⟩ := paramName_plain p
  have htrim : trimWhitespace (p.paramName++32::value) = p.paramName++32::value := by
    refine trimWhitespace_of_ends ?_ ?_
    · rw [List.head?_append_of_ne_nil _ hname']
      exact fun c hc => isspace_of_head_trimWhitespace (by rw [hname]; exact hc)
    · rw [List.getLast?_append_of_ne_nil _ (by simp),List.getLast?_cons_of_ne_nil hne]
      exact hlast
  have hsplit : splitAtSpace (p.paramName++32::value) = (p.paramName,value) := by
    rw [splitAtSpace,strchr_append hblank hnul (by decide)]
    simp
  exact handleUartCommand_arg a htrim (by simp) (by simp [hnul,h0]) hws hsplit d

theorem handleUartCommand_blank (a : SaveAnswers) (p : Param) {ws : List UInt8}
    (hws : AllBlank ws) (d : Device F) :
    ((handleUartCommand a (lit "set "++(p.paramName++ws)) d).1,
      (handleUartCommand a (lit "set "++(p.paramName++ws)) d).2.accepted) = outcome p [] d := by
  obtain ⟨hblank,hnul,-,hname,hname'⟩ := paramName_plain p
  have hsplit : splitAtSpace p.paramName = (p.paramName,[]) := by
    have hnone : strchr p.paramName 32 = none := by
      rwa [strchr_eq_none,cstring_eq_self hnul]
    rw [splitAtSpace,hnone]
  exact handleUartCommand_arg a hname hname' hnul hws hsplit d

def NoControl (v : List UInt8) : Prop := ∀ b ∈ v, 32 ≤ b ∧ b ≠ 127

theorem allBlank_replicate (n : ℕ) : AllBlank (List.replicate n 32) := by
  intro c hc
  rw [(List.mem_replicate.1 hc).2]
  decide

theorem pathsAgree_iff_decode {a : SaveAnswers} {d : Device F} {p : Param} {n : ℕ}
    {v value : List UInt8}
    (h : ((handleUartCommand a (setLine p n v) d).1,
      (handleUartCommand a (setLine p n v) d).2.accepted) = outcome p value d) :
    PathsAgree a d p n v ↔ decode (F := F) p value = decode p (trimWhitespace v) := by
  rw [← outcome_eq_iff (d := d),← h,← parseLine_fileLine,Prod.mk.injEq]
  exact and_comm

def blanksBefore (n : ℕ) (v : List UInt8) : List UInt8 :=
  List.replicate (n-1) 32++v.takeWhile isspace

/-- What the two paths do with a value that is not blank: the trimmed value, with the blanks
behind the first one in front on the console. -/
theorem exists_blanks_setLine {p : Param} {n : ℕ} (hn : 1 ≤ n) {v : List UInt8}
    (_hne : trimWhitespace v ≠ []) :
    ∃ ws, AllBlank ws ∧ setLine p n v =
      lit "set "++((p.paramName++32::(blanksBefore n v++trimWhitespace v))++ws) := by
  refine ⟨(v.dropWhile isspace).rtakeWhile isspace,fun c hc => List.mem_rtakeWhile_imp hc,?_⟩
  have hsplit : v = v.takeWhile isspace++(trimWhitespace v++
      (v.dropWhile isspace).rtakeWhile isspace) := by
    rw [trimWhitespace_eq,List.rdropWhile_append_rtakeWhile,List.takeWhile_append_dropWhile]
  obtain ⟨m,rfl⟩ : ∃ m, n = m+1 := ⟨n-1,by omega⟩
  conv_lhs => rw [hsplit]
  simp only [setLine,blanksBefore,List.replicate_succ,Nat.add_sub_cancel,List.append_assoc,
    List.cons_append]

theorem blanksBefore_eq_nil {n : ℕ} (hn : 1 ≤ n) {v : List UInt8} :
    blanksBefore n v = [] ↔ n = 1 ∧ ∀ c ∈ v.head?, isspace c = false := by
  have hhead : v.takeWhile isspace = [] ↔ ∀ c ∈ v.head?, isspace c = false := by
    cases v with
    | nil => simp
    | cons c v => cases hc : isspace c <;> simp [hc]
  rw [blanksBefore,List.append_eq_nil_iff,List.replicate_eq_nil_iff,hhead]
  exact and_congr_left fun _ => by omega

/-- The paths agree on a blank value, on a value behind a single blank that does not begin
with one, on a number for `gps_uere` without the byte 160 in front, and on every value that is
rejected; and on no other. -/
theorem pathsAgree_iff (a : SaveAnswers) (d : Device F) (p : Param) {n : ℕ} (hn : 1 ≤ n)
    {v : List UInt8} (hv : NoControl v) :
    PathsAgree a d p n v ↔ AllBlank v ∨ (n = 1 ∧ ∀ c ∈ v.head?, isspace c = false) ∨
      (p = .gpsUere ∧ 160 ∉ v.takeWhile isspace) ∨ decode (F := F) p (trimWhitespace v) = none := by
  by_cases hblank : AllBlank v
  · have hws : AllBlank (List.replicate n 32++v) := by
      intro c hc
      rcases List.mem_append.1 hc with hc | hc
      · exact allBlank_replicate n c hc
      · exact hblank c hc
    rw [pathsAgree_iff_decode (handleUartCommand_blank a p hws d),trimWhitespace_eq_nil.2 hblank]
    exact iff_of_true rfl (Or.inl hblank)
  · have hne : trimWhitespace v ≠ [] := fun hnil => hblank (trimWhitespace_eq_nil.1 hnil)
    have hnul : (0 : UInt8) ∉ trimWhitespace v :=
      fun hmem => absurd (hv 0 (mem_of_mem_trimWhitespace hmem)).1 (by decide)
    obtain ⟨ws,hws,hline⟩ := exists_blanks_setLine (p := p) hn hne
    have hbefore : AllBlank (blanksBefore n v) := by
      intro c hc
      rcases List.mem_append.1 hc with hc | hc
      · exact allBlank_replicate (n-1) c hc
      · exact List.mem_takeWhile_imp hc
    have hnbsp : 160 ∉ blanksBefore n v ↔ 160 ∉ v.takeWhile isspace := by
      simp [blanksBefore,List.mem_replicate]
    have hset := handleUartCommand_value a p (blanksBefore n v++trimWhitespace v)
      (by
        rw [List.getLast?_append_of_ne_nil _ hne]
        exact fun c hc => isspace_of_getLast_trimWhitespace hc)
      (by simp [hne])
      (by
        have hnul' : (0 : UInt8) ∉ blanksBefore n v :=
          fun hmem => absurd (hbefore 0 hmem) (by decide)
        simp [hnul,hnul'])
      hws d
    rw [← hline] at hset
    rw [pathsAgree_iff_decode hset,
      decode_blanks_iff hbefore hnul hne (fun c hc => isspace_of_head_trimWhitespace hc),
      blanksBefore_eq_nil hn,hnbsp,or_iff_right hblank]

/-- A plain name, and one behind the byte 160. -/
theorem pathsAgree_iff_name :
    (PathsAgree ⟨true,fun _ => 0⟩ (initDefaults none : Device Micros) .deviceName 1 (lit "foo") ↔
      AllBlank (lit "foo") ∨ (1 = 1 ∧ ∀ c ∈ (lit "foo").head?, isspace c = false) ∨
        (Param.deviceName = .gpsUere ∧ 160 ∉ (lit "foo").takeWhile isspace) ∨
        decode (F := Micros) .deviceName (trimWhitespace (lit "foo")) = none) ∧
    (PathsAgree ⟨true,fun _ => 0⟩ (initDefaults none : Device Micros) .deviceName 1 (160::lit "foo") ↔
      AllBlank (160::lit "foo") ∨ (1 = 1 ∧ ∀ c ∈ (160::lit "foo").head?, isspace c = false) ∨
        (Param.deviceName = .gpsUere ∧ 160 ∉ (160::lit "foo").takeWhile isspace) ∨
        decode (F := Micros) .deviceName (trimWhitespace (160::lit "foo")) = none) :=
  ⟨pathsAgree_iff _ _ _ (le_refl 1) (by unfold NoControl; decide +kernel),
    pathsAgree_iff _ _ _ (le_refl 1) (by unfold NoControl; decide +kernel)⟩

/-- `set device_name  foo` stores ` foo`, the line `device_name = foo` stores `foo`. -/
theorem second_blank_stored :
    NoControl (lit "foo") ∧
      ¬ PathsAgree ⟨true,fun _ => 0⟩ (initDefaults none : Device Micros) .deviceName 2 (lit "foo") := by
  refine ⟨by unfold NoControl; decide +kernel,fun h => ?_⟩
  have htext := congrArg (fun d => d.config.deviceName.text) h.2
  revert htext
  decide +kernel

end ConfigPaths
end A9GTracker
