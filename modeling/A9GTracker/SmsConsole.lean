import A9GTracker.ConfigCommands
import A9GTracker.Decimal
import A9GTracker.TailCommand

/-! The console commands `sms`, `sms ls` and `sms rm` of `app/src/config_commands.c`, against
the grammar that `help` prints. -/
namespace A9GTracker
namespace SmsConsole

open CString Utils ConfigStore ConfigCommands Decimal TailCommand

/-! ### The handlers -/

inductive SmsStatus
  | all | read | unread
  deriving DecidableEq

/-- The calls of the SDK; all of them are about the SIM card. -/
inductive SmsCall
  | getStorageInfo
  | listMessageRequst (status : SmsStatus)
  | deleteMessage (index : UInt8) (status : SmsStatus)
  deriving DecidableEq

structure SmsStorageInfo where
  used : ℤ
  total : ℤ
  unReadRecords : ℤ
  readRecords : ℤ
  sentRecords : ℤ
  unsentRecords : ℤ
  unknownRecords : ℤ
  storageId : ℤ

/-- The answers of the SDK; `printD` is the `%d` of `printf`. -/
structure SmsAnswers where
  storageInfo : Option SmsStorageInfo
  listed : Bool
  deleted : Bool
  printD : ℤ → List UInt8

structure SmsReply where
  calls : List SmsCall
  output : List UInt8

def storageText (printD : ℤ → List UInt8) (info : SmsStorageInfo) : List UInt8 :=
  lit "SMS Storage Info (SIM):\r\n"++
    lit "  Used: "++printD info.used++lit "\r\n"++
    lit "  Total: "++printD info.total++lit "\r\n"++
    lit "  Unread: "++printD info.unReadRecords++lit "\r\n"++
    lit "  Read: "++printD info.readRecords++lit "\r\n"++
    lit "  Sent: "++printD info.sentRecords++lit "\r\n"++
    lit "  Unsent: "++printD info.unsentRecords++lit "\r\n"++
    lit "  Unknown: "++printD info.unknownRecords++lit "\r\n"++
    lit "  Storage ID: "++printD info.storageId++lit "\r\n"

def handleSmsCommand (a : SmsAnswers) (param : List UInt8) : SmsReply :=
  let param := trimWhitespace param
  if param ≠ [] then ⟨[],lit "Unknown sms command parameter\r\n"⟩
  else
    match a.storageInfo with
    | none => ⟨[.getStorageInfo],lit "Failed to get SMS storage info.\r\n"⟩
    | some info => ⟨[.getStorageInfo],storageText a.printD info⟩

def lsStatus (param : List UInt8) : Option SmsStatus :=
  if param = [] ∨ param.take 3 = lit "all" then some .all
  else if param.take 4 = lit "read" then some .read
  else if param.take 6 = lit "unread" then some .unread
  else none

def handleSmsLsCommand (a : SmsAnswers) (param : List UInt8) : SmsReply :=
  match lsStatus (trimWhitespace param) with
  | none => ⟨[],lit "Unknown sms ls parameter. Use 'all', 'read', or 'unread'\r\n"⟩
  | some status =>
    ⟨[.listMessageRequst status],
      if ¬ a.listed then lit "Failed to request SMS list\r\n" else []⟩

/-- The index is an 8-bit number for the SDK. -/
def handleSmsRmCommand (a : SmsAnswers) (param : List UInt8) : SmsReply :=
  let param := trimWhitespace param
  if param ≠ [] then ⟨[],lit "incorrect parameter\r\n"⟩
  else
    let idx := atoi param
    if idx < 0 then ⟨[],lit "Invalid index.\r\n"⟩
    else
      ⟨[.deleteMessage (UInt8.ofNat (idx % 256).toNat) .all],
        if a.deleted then lit "Deleted SMS at index "++a.printD idx++lit "\r\n"
        else lit "Failed to delete SMS at index "++a.printD idx++lit "\r\n"⟩

/-- The calls for messages in the handler that runs; the other handlers make none. -/
def smsCalls (a : SmsAnswers) : Option (UartCmd × List UInt8) → List SmsCall
  | some (.sms,arg) => (handleSmsCommand a arg).calls
  | some (.smsLs,arg) => (handleSmsLsCommand a arg).calls
  | some (.smsRm,arg) => (handleSmsRmCommand a arg).calls
  | _ => []

/-! ### The grammar -/

inductive Request
  | list (status : SmsStatus)
  | delete (index : UInt8)
  | deleteAll
  deriving DecidableEq

def SmsCall.request : SmsCall → Option Request
  | .getStorageInfo => none
  | .listMessageRequst status => some (.list status)
  | .deleteMessage index _ => some (.delete index)

def requests (a : SmsAnswers) (data : List UInt8) : List Request :=
  (smsCalls a (dispatch (cstring data))).filterMap SmsCall.request

def listWord : SmsStatus → List UInt8
  | .all => lit "all"
  | .read => lit "read"
  | .unread => lit "unread"

/-- A decimal index that fits 8 bits. -/
structure IsIndex (n : List UInt8) : Prop where
  nonempty : n ≠ []
  digits : IsDigits n
  le : digitsValue n ≤ 255

/-- The lines that `help` documents: `sms ls <all|read|unread>` with an optional word, and
`sms rm <index|all>`. -/
inductive Documented : List UInt8 → Request → Prop
  | ls : Documented (lit "sms ls") (.list .all)
  | lsWord {ws : List UInt8} (h : AllBlank ws) (status : SmsStatus) :
      Documented (lit "sms ls"++32::(ws++listWord status)) (.list status)
  | rm {ws digits : List UInt8} (h : AllBlank ws) (hindex : IsIndex digits) :
      Documented (lit "sms rm"++32::(ws++digits)) (.delete (UInt8.ofNat (digitsValue digits)))
  | rmAll {ws : List UInt8} (h : AllBlank ws) :
      Documented (lit "sms rm"++32::(ws++lit "all")) .deleteAll

/-- The console does what the line asks for, and nothing else. -/
def FollowsGrammar (data : List UInt8) : Prop :=
  ∀ (a : SmsAnswers) (req : Request),
    req ∈ requests a data ↔ Documented (trimWhitespace (cstring data)) req

/-- The lines it takes for something else: a removal, with or without its operand, and a
list of something that only starts with one of the words. -/
inductive Misread : List UInt8 → Prop
  | rm : Misread (lit "sms rm")
  | rmIndex {ws digits : List UInt8} (h : AllBlank ws) (hindex : IsIndex digits) :
      Misread (lit "sms rm"++32::(ws++digits))
  | rmAll {ws : List UInt8} (h : AllBlank ws) : Misread (lit "sms rm"++32::(ws++lit "all"))
  | lsLonger {ws arg : List UInt8} (h : AllBlank ws) (status : SmsStatus)
      (hword : listWord status <+: arg) (hne : arg ≠ listWord status) :
      Misread (lit "sms ls"++32::(ws++arg))

/-! ### The dispatch -/

theorem sortedTable_eq :
    sortedTable =
      [.netDeactivate,.netActivate,.netStatus,.location,.restart,.smsLs,.smsRm]++
        sortedTable.drop 7 := by
  decide +kernel

theorem isAt_of_head_ne {c : UartCmd} {line : List UInt8} (hne : c.cmd ≠ [])
    (h : c.cmd.head? ≠ line.head?) : c.isAt line = false := by
  rw [← Bool.not_eq_true,isAt_iff]
  rintro ⟨rest,rfl,-⟩
  rw [List.head?_append_of_ne_nil _ hne] at h
  exact h rfl

theorem smsRm_isAt_of_smsLs {line : List UInt8} (h : UartCmd.smsLs.isAt line = true) :
    UartCmd.smsRm.isAt line = false := by
  obtain ⟨rest,rfl,-⟩ := isAt_iff.1 h
  have hls : UartCmd.smsLs.cmd.length = UartCmd.smsRm.cmd.length := by decide
  have hne : UartCmd.smsLs.cmd ≠ UartCmd.smsRm.cmd := by decide
  rw [UartCmd.isAt,← hls,List.take_left]
  simp [hne]

/-- The longer commands in front of `sms ls` start with another letter. -/
theorem find_of_head {line : List UInt8} (h : line.head? = some 115) :
    (sortedTable.find? fun c => c.isAt line) =
      (UartCmd.smsLs::.smsRm::sortedTable.drop 7).find? fun c => c.isAt line := by
  have hfalse : ∀ c : UartCmd, c.cmd ≠ [] → c.cmd.head? ≠ some 115 → c.isAt line = false :=
    fun c hne hc => isAt_of_head_ne hne (by rwa [h])
  conv_lhs => rw [sortedTable_eq]
  simp only [List.cons_append,List.nil_append,List.find?_cons,
    hfalse .netDeactivate (by decide) (by decide),hfalse .netActivate (by decide) (by decide),
    hfalse .netStatus (by decide) (by decide),hfalse .location (by decide) (by decide),
    hfalse .restart (by decide) (by decide)]

theorem head_of_isAt {c : UartCmd} {line : List UInt8} (hne : c.cmd ≠ [])
    (h : c.isAt line = true) : line.head? = c.cmd.head? := by
  obtain ⟨rest,rfl,-⟩ := isAt_iff.1 h
  exact List.head?_append_of_ne_nil _ hne

theorem find_of_smsLs {line : List UInt8} (h : UartCmd.smsLs.isAt line = true) :
    (sortedTable.find? fun c => c.isAt line) = some .smsLs := by
  rw [find_of_head (head_of_isAt (by decide) h),List.find?_cons,h]

theorem find_of_smsRm {line : List UInt8} (h : UartCmd.smsRm.isAt line = true) :
    (sortedTable.find? fun c => c.isAt line) = some .smsRm := by
  have hls : UartCmd.smsLs.isAt line = false := by
    rw [← Bool.not_eq_true]
    intro hls
    rw [smsRm_isAt_of_smsLs hls] at h
    exact absurd h (by decide)
  rw [find_of_head (head_of_isAt (by decide) h),List.find?_cons,hls,List.find?_cons,h]

def operand (line : List UInt8) : List UInt8 := trimWhitespace (line.drop 6)

theorem requests_of_smsLs (a : SmsAnswers) {data : List UInt8}
    (h : UartCmd.smsLs.isAt (trimWhitespace (cstring data)) = true) :
    requests a data =
      ((lsStatus (operand (trimWhitespace (cstring data)))).map Request.list).toList := by
  simp only [requests,dispatch,find_of_smsLs h,Option.map_some,smsCalls,handleSmsLsCommand]
  have hlen : UartCmd.smsLs.cmd.length = 6 := rfl
  rw [hlen,← operand]
  cases lsStatus (operand (trimWhitespace (cstring data))) <;> rfl

theorem requests_of_smsRm (a : SmsAnswers) {data : List UInt8}
    (h : UartCmd.smsRm.isAt (trimWhitespace (cstring data)) = true) :
    requests a data = if operand (trimWhitespace (cstring data)) = [] then [.delete 0] else [] := by
  simp only [requests,dispatch,find_of_smsRm h,Option.map_some,smsCalls,handleSmsRmCommand]
  have hlen : UartCmd.smsRm.cmd.length = 6 := rfl
  rw [hlen,← operand]
  by_cases hnil : operand (trimWhitespace (cstring data)) = []
  · have hzero : atoi [] = 0 := by decide
    simp [hnil,hzero,SmsCall.request]
  · simp [hnil]

theorem requests_of_other (a : SmsAnswers) {data : List UInt8}
    (hls : ¬ UartCmd.smsLs.isAt (trimWhitespace (cstring data)) = true)
    (hrm : ¬ UartCmd.smsRm.isAt (trimWhitespace (cstring data)) = true) :
    requests a data = [] := by
  simp only [requests,dispatch]
  cases hfind : sortedTable.find? fun c => c.isAt (trimWhitespace (cstring data)) with
  | none => rfl
  | some c =>
    have hc := List.find?_some hfind
    cases c with
    | smsLs => exact absurd hc hls
    | smsRm => exact absurd hc hrm
    | sms =>
      simp only [Option.map_some,smsCalls,handleSmsCommand]
      split_ifs
      · rfl
      · cases a.storageInfo <;> rfl
    | _ => rfl

/-! ### Lines with an operand -/

theorem trimWhitespace_of_noBlank {s : List UInt8} (h : ∀ c ∈ s, isspace c = false) :
    trimWhitespace s = s :=
  trimWhitespace_of_ends (fun c hc => h c (List.mem_of_mem_head? hc))
    fun c hc => h c (List.mem_of_mem_getLast? hc)

theorem trimWhitespace_blank {ws arg : List UInt8} (h : AllBlank ws)
    (harg : trimWhitespace arg = arg) : trimWhitespace (32::(ws++arg)) = arg := by
  rw [trimWhitespace_cons (by decide),trimWhitespace_append_left h,harg]

/-- A trimmed line with a command of six characters is the command alone, or the command and
its operand behind blanks. -/
theorem operand_cases {c : UartCmd} {line : List UInt8} (hlen : c.cmd.length = 6)
    (h : c.isAt line = true) (htrim : trimWhitespace line = line) :
    (line = c.cmd ∧ operand line = []) ∨
    (operand line ≠ [] ∧ ∃ ws, AllBlank ws ∧ line = c.cmd++32::(ws++operand line)) := by
  obtain ⟨rest,hline,hrest⟩ := isAt_iff.1 h
  have hdrop : line.drop 6 = rest := by
    rw [hline,← hlen,List.drop_left]
  rcases hrest with rfl | ⟨t,rfl⟩
  · rw [List.append_nil] at hline
    refine Or.inl ⟨hline,?_⟩
    rw [operand,hdrop]
    rfl
  · right
    have hop : operand line = trimWhitespace t := by
      rw [operand,hdrop,trimWhitespace_cons (by decide)]
    obtain ⟨htrimmed,ws,hws,ht⟩ := exists_blanks_behind (htrim.trans hline)
    rw [hop]
    exact ⟨htrimmed,ws,hws,by rw [hline]; congr 2⟩

theorem operand_append {c : UartCmd} {ws arg : List UInt8} (hlen : c.cmd.length = 6)
    (h : AllBlank ws) (harg : trimWhitespace arg = arg) :
    c.isAt (c.cmd++32::(ws++arg)) = true ∧ operand (c.cmd++32::(ws++arg)) = arg := by
  refine ⟨isAt_iff.2 ⟨_,rfl,Or.inr ⟨_,rfl⟩⟩,?_⟩
  rw [operand,← hlen,List.drop_left,trimWhitespace_blank h harg]

/-! ### The two readings of the operand -/

theorem trimWhitespace_listWord (status : SmsStatus) :
    trimWhitespace (listWord status) = listWord status := by
  cases status <;> decide

theorem listWord_ne_nil (status : SmsStatus) : listWord status ≠ [] := by
  cases status <;> decide

theorem listWord_unique {s s' : SmsStatus} {arg : List UInt8} (h : listWord s <+: arg)
    (h' : listWord s' <+: arg) : s = s' := by
  have hpair : ∀ s s' : SmsStatus, listWord s <+: listWord s' → s = s' := by
    intro s s'
    cases s <;> cases s' <;> decide
  rcases List.prefix_or_prefix_of_prefix h h' with hpre | hpre
  · exact hpair s s' hpre
  · exact (hpair s' s hpre).symm

theorem lsStatus_eq_some {param : List UInt8} {status : SmsStatus} :
    lsStatus param = some status ↔
      (param = [] ∧ status = .all) ∨ listWord status <+: param := by
  have hall : param.take 3 = lit "all" ↔ listWord .all <+: param := by
    rw [List.prefix_iff_eq_take]
    exact eq_comm
  have hread : param.take 4 = lit "read" ↔ listWord .read <+: param := by
    rw [List.prefix_iff_eq_take]
    exact eq_comm
  have hunread : param.take 6 = lit "unread" ↔ listWord .unread <+: param := by
    rw [List.prefix_iff_eq_take]
    exact eq_comm
  have hnil : ∀ s, param = [] → ¬ listWord s <+: param := by
    rintro s rfl hpre
    exact listWord_ne_nil s (List.prefix_nil.1 hpre)
  -- the first word that matches is the only one
  have hhit : ∀ s, listWord s <+: param →
      (some s = some status ↔ (param = [] ∧ status = .all) ∨ listWord status <+: param) := by
    intro s hs
    constructor
    · rintro ⟨⟩
      exact Or.inr hs
    · rintro (⟨h,-⟩ | h)
      · exact absurd hs (hnil s h)
      · rw [listWord_unique hs h]
  simp only [lsStatus,hall,hread,hunread]
  split_ifs with h1 h2 h3
  · rcases h1 with h1 | h1
    · constructor
      · rintro ⟨⟩
        exact Or.inl ⟨h1,rfl⟩
      · rintro (⟨-,rfl⟩ | h)
        · rfl
        · exact absurd h (hnil status h1)
    · exact hhit .all h1
  · exact hhit .read h2
  · exact hhit .unread h3
  · rw [not_or] at h1
    refine iff_of_false (by simp) ?_
    rintro (⟨h,-⟩ | h)
    · exact h1.1 h
    · cases status
      · exact h1.2 h
      · exact h2 h
      · exact h3 h

theorem IsIndex.trimWhitespace_eq {n : List UInt8} (h : IsIndex n) : trimWhitespace n = n :=
  trimWhitespace_of_noBlank fun c hc => isspace_of_isdigit (h.digits c hc)

theorem ls_isAt : UartCmd.smsLs.isAt (lit "sms ls") = true ∧ operand (lit "sms ls") = [] := by
  decide

theorem rm_isAt : UartCmd.smsRm.isAt (lit "sms rm") = true ∧ operand (lit "sms rm") = [] := by
  decide

theorem trimWhitespace_all : trimWhitespace (lit "all") = lit "all" := by
  decide

/-- The documented lines are those of the two commands, and the operand decides. -/
theorem Documented.forms {line : List UInt8} {req : Request} (h : Documented line req) :
    (UartCmd.smsLs.isAt line = true ∧
      ∃ status, req = .list status ∧
        (operand line = [] ∧ status = .all ∨ operand line = listWord status)) ∨
    (UartCmd.smsRm.isAt line = true ∧
      (IsIndex (operand line) ∧ req = .delete (UInt8.ofNat (digitsValue (operand line))) ∨
        operand line = lit "all" ∧ req = .deleteAll)) := by
  cases h with
  | ls => exact Or.inl ⟨ls_isAt.1,.all,rfl,Or.inl ⟨ls_isAt.2,rfl⟩⟩
  | lsWord hws status =>
    obtain ⟨hat,hop⟩ := operand_append (c := .smsLs) (by decide) hws (trimWhitespace_listWord status)
    exact Or.inl ⟨hat,status,rfl,Or.inr hop⟩
  | @rm ws digits hws hindex =>
    obtain ⟨hat,hop⟩ := operand_append (c := .smsRm) (by decide) hws hindex.trimWhitespace_eq
    have hop : operand (lit "sms rm"++32::(ws++digits)) = digits := hop
    rw [hop]
    exact Or.inr ⟨hat,Or.inl ⟨hindex,rfl⟩⟩
  | rmAll hws =>
    obtain ⟨hat,hop⟩ := operand_append (c := .smsRm) (by decide) hws trimWhitespace_all
    exact Or.inr ⟨hat,Or.inr ⟨hop,rfl⟩⟩

/-- A line with one of the two commands is documented when its operand is. -/
theorem documented_of_smsLs {line : List UInt8} {status : SmsStatus}
    (htrim : trimWhitespace line = line) (hat : UartCmd.smsLs.isAt line = true)
    (h : operand line = [] ∧ status = .all ∨ operand line = listWord status) :
    Documented line (.list status) := by
  rcases operand_cases (by decide) hat htrim with ⟨hline,hnil⟩ | ⟨hne,ws,hws,hline⟩
  · rcases h with ⟨-,rfl⟩ | hword
    · rw [hline]
      exact .ls
    · exact absurd (hword.symm.trans hnil) (listWord_ne_nil status)
  · rcases h with ⟨hnil,-⟩ | hword
    · exact absurd hnil hne
    · rw [hline,hword]
      exact .lsWord hws status

theorem misread_of_smsLs {line : List UInt8} {status : SmsStatus}
    (htrim : trimWhitespace line = line) (hat : UartCmd.smsLs.isAt line = true)
    (hword : listWord status <+: operand line) (hne : operand line ≠ listWord status) :
    Misread line := by
  rcases operand_cases (by decide) hat htrim with ⟨-,hnil⟩ | ⟨-,ws,hws,hline⟩
  · rw [hnil,List.prefix_nil] at hword
    exact absurd hword (listWord_ne_nil status)
  · rw [hline]
    exact .lsLonger hws status hword hne

theorem misread_of_smsRm {line : List UInt8} (htrim : trimWhitespace line = line)
    (hat : UartCmd.smsRm.isAt line = true)
    (h : operand line = [] ∨ IsIndex (operand line) ∨ operand line = lit "all") :
    Misread line := by
  rcases operand_cases (by decide) hat htrim with ⟨hline,hnil⟩ | ⟨hne,ws,hws,hline⟩
  · rw [hline]
    exact .rm
  · rcases h with hnil | hindex | hall
    · exact absurd hnil hne
    · rw [hline]
      exact .rmIndex hws hindex
    · rw [hline,hall]
      exact .rmAll hws

theorem Misread.forms {line : List UInt8} (h : Misread line) (htrim : trimWhitespace line = line) :
    (UartCmd.smsLs.isAt line = true ∧
      ∃ status, listWord status <+: operand line ∧ operand line ≠ listWord status) ∨
    (UartCmd.smsRm.isAt line = true ∧
      (operand line = [] ∨ IsIndex (operand line) ∨ operand line = lit "all")) := by
  cases h with
  | rm => exact Or.inr ⟨rm_isAt.1,Or.inl rm_isAt.2⟩
  | @rmIndex ws digits hws hindex =>
    obtain ⟨hat,hop⟩ := operand_append (c := .smsRm) (by decide) hws hindex.trimWhitespace_eq
    have hop : operand (lit "sms rm"++32::(ws++digits)) = digits := hop
    rw [hop]
    exact Or.inr ⟨hat,Or.inr (Or.inl hindex)⟩
  | rmAll hws =>
    obtain ⟨hat,hop⟩ := operand_append (c := .smsRm) (by decide) hws trimWhitespace_all
    exact Or.inr ⟨hat,Or.inr (Or.inr hop)⟩
  | @lsLonger ws arg hws status hword hne =>
    have hnil : arg ≠ [] := by
      rintro rfl
      exact listWord_ne_nil status (List.prefix_nil.1 hword)
    -- the operand starts with the word and ends as the line does
    have harg : trimWhitespace arg = arg := by
      refine trimWhitespace_of_ends (fun c hc => ?_) fun c hc => ?_
      · obtain ⟨t,rfl⟩ := hword
        rw [List.head?_append_of_ne_nil _ (listWord_ne_nil status)] at hc
        exact isspace_of_head_trimWhitespace ((trimWhitespace_listWord status).symm ▸ hc)
      · refine isspace_of_getLast_trimWhitespace
          (s := lit "sms ls"++32::(ws++arg)) ?_
        rw [htrim,List.getLast?_append_of_ne_nil _ (List.cons_ne_nil _ _),← List.cons_append,
          List.getLast?_append_of_ne_nil _ hnil]
        exact hc
    obtain ⟨hat,hop⟩ := operand_append (c := .smsLs) (by decide) hws harg
    have hop : operand (lit "sms ls"++32::(ws++arg)) = arg := hop
    rw [hop]
    exact Or.inl ⟨hat,status,hword,hne⟩

/-! ### The console against the grammar -/

section line
variable {data line : List UInt8} (hline : trimWhitespace (cstring data) = line)
include hline

theorem mem_requests_of_smsLs (hat : UartCmd.smsLs.isAt line = true) (a : SmsAnswers)
    (req : Request) : req ∈ requests a data ↔
      ∃ status, req = .list status ∧
        (operand line = [] ∧ status = .all ∨ listWord status <+: operand line) := by
  subst hline
  rw [requests_of_smsLs a hat]
  simp only [Option.mem_toList,Option.map_eq_some_iff,lsStatus_eq_some]
  constructor
  · rintro ⟨status,h,rfl⟩
    exact ⟨status,rfl,h⟩
  · rintro ⟨status,rfl,h⟩
    exact ⟨status,h,rfl⟩

theorem mem_requests_of_smsRm (hat : UartCmd.smsRm.isAt line = true) (a : SmsAnswers)
    (req : Request) : req ∈ requests a data ↔ operand line = [] ∧ req = .delete 0 := by
  subst hline
  rw [requests_of_smsRm a hat]
  split_ifs with hnil <;> simp [hnil]

theorem not_mem_requests (hls : ¬ UartCmd.smsLs.isAt line = true)
    (hrm : ¬ UartCmd.smsRm.isAt line = true) (a : SmsAnswers) (req : Request) :
    req ∉ requests a data := by
  subst hline
  rw [requests_of_other a hls hrm]
  exact List.not_mem_nil

theorem not_misread_of_follows (htrim : trimWhitespace line = line) (h : FollowsGrammar data) :
    ¬ Misread line := by
  have hreq := h ⟨none,false,false,fun _ => []⟩
  rw [hline] at hreq
  intro hmis
  rcases hmis.forms htrim with ⟨hat,status,hword,hne⟩ | ⟨hat,hop⟩
  · -- the list that the longer word asks for is not documented
    have hdoc := (hreq (.list status)).1
      ((mem_requests_of_smsLs hline hat _ _).2 ⟨status,rfl,Or.inr hword⟩)
    rcases hdoc.forms with ⟨-,status',heq,hop⟩ | ⟨hat',-⟩
    · obtain rfl : status = status' := by
        cases heq
        rfl
      rcases hop with ⟨hnil,-⟩ | hop
      · rw [hnil,List.prefix_nil] at hword
        exact listWord_ne_nil status hword
      · exact hne hop
    · rw [smsRm_isAt_of_smsLs hat] at hat'
      exact absurd hat' (by decide)
  · rcases operand_cases (by decide) hat htrim with ⟨hrm,hnil⟩ | ⟨hne,ws,hws,hrm⟩
    · -- without an operand the record 0 is removed
      have hdoc := (hreq (.delete 0)).1 ((mem_requests_of_smsRm hline hat _ _).2 ⟨hnil,rfl⟩)
      rcases hdoc.forms with ⟨hat',-⟩ | ⟨-,⟨hindex,-⟩ | ⟨hall,-⟩⟩
      · rw [smsRm_isAt_of_smsLs hat'] at hat
        exact absurd hat (by decide)
      · exact hindex.nonempty hnil
      · exact absurd (hnil.symm.trans hall) (by decide)
    · -- with one, nothing is
      have hnone : ∀ req, ¬ Documented (lit "sms rm"++32::(ws++operand line)) req := by
        intro req hdoc
        have hmem := (hreq req).2 (by rw [hrm]; exact hdoc)
        exact hne ((mem_requests_of_smsRm hline hat _ _).1 hmem).1
      rcases hop with hnil | hindex | hall
      · exact hne hnil
      · exact hnone _ (.rm hws hindex)
      · exact hnone .deleteAll (by rw [hall]; exact .rmAll hws)

theorem follows_of_not_misread (htrim : trimWhitespace line = line) (h : ¬ Misread line) :
    FollowsGrammar data := by
  intro a req
  rw [hline]
  by_cases hls : UartCmd.smsLs.isAt line = true
  · rw [mem_requests_of_smsLs hline hls]
    constructor
    · rintro ⟨status,rfl,hop⟩
      refine documented_of_smsLs htrim hls (hop.imp_right fun hword => ?_)
      by_contra hne
      exact h (misread_of_smsLs htrim hls hword hne)
    · intro hdoc
      rcases hdoc.forms with ⟨-,status,rfl,hop⟩ | ⟨hrm,-⟩
      · exact ⟨status,rfl,hop.imp_right fun hword => by rw [hword]⟩
      · rw [smsRm_isAt_of_smsLs hls] at hrm
        exact absurd hrm (by decide)
  · by_cases hrm : UartCmd.smsRm.isAt line = true
    · rw [mem_requests_of_smsRm hline hrm]
      constructor
      · rintro ⟨hnil,-⟩
        exact absurd (misread_of_smsRm htrim hrm (Or.inl hnil)) h
      · intro hdoc
        rcases hdoc.forms with ⟨hat,-⟩ | ⟨-,⟨hindex,-⟩ | ⟨hall,-⟩⟩
        · exact absurd hat hls
        · exact absurd (misread_of_smsRm htrim hrm (Or.inr (Or.inl hindex))) h
        · exact absurd (misread_of_smsRm htrim hrm (Or.inr (Or.inr hall))) h
    · refine iff_of_false (not_mem_requests hline hls hrm a req) fun hdoc => ?_
      rcases hdoc.forms with ⟨hat,-⟩ | ⟨hat,-⟩
      · exact hls hat
      · exact hrm hat

end line

/-- The console follows its grammar for exactly the lines that it does not misread. -/
theorem followsGrammar_iff (data : List UInt8) :
    FollowsGrammar data ↔ ¬ Misread (trimWhitespace (cstring data)) :=
  ⟨not_misread_of_follows rfl (trimWhitespace_trimWhitespace _),
    follows_of_not_misread rfl (trimWhitespace_trimWhitespace _)⟩

/-- `sms rm 3` removes nothing. -/
theorem remove_index_ignored : ¬ FollowsGrammar (lit "sms rm 3") := by
  intro h
  have hindex : IsIndex (lit "3") := ⟨by decide,by decide,by decide⟩
  have hdoc : Documented (lit "sms rm"++32::([]++lit "3")) (.delete 3) :=
    .rm (List.forall_mem_nil _) hindex
  have hmem := (h ⟨none,false,false,fun _ => []⟩ (.delete 3)).2 hdoc
  exact absurd hmem (by decide +kernel)

end SmsConsole
end A9GTracker
