import Mathlib.Data.List.Basic
import Mathlib.Tactic.Common
import A9GTracker.ConfigFile

/-! The UART console of `app/src/config_commands.c`: the dispatch of a line and the command
`set`. The other handlers do not touch the configuration. -/
namespace A9GTracker
namespace ConfigCommands

open CString Utils ConfigStore ConfigFile

variable {F : Type} [FloatLib F]

/-! ### The command table -/

inductive UartCmd
  | help | set | get | ls | rm | tail | netActivate | netDeactivate | netStatus | sms | smsLs
  | smsRm | location | restart
  deriving DecidableEq

def UartCmd.cmd : UartCmd → List UInt8
  | .help => lit "help"
  | .set => lit "set"
  | .get => lit "get"
  | .ls => lit "ls"
  | .rm => lit "rm"
  | .tail => lit "tail"
  | .netActivate => lit "net activate"
  | .netDeactivate => lit "net deactivate"
  | .netStatus => lit "net status"
  | .sms => lit "sms"
  | .smsLs => lit "sms ls"
  | .smsRm => lit "sms rm"
  | .location => lit "location"
  | .restart => lit "restart"

def uartCmdTable : List UartCmd :=
  [.help,.set,.get,.ls,.rm,.tail,.netActivate,.netDeactivate,.netStatus,.sms,.smsLs,.smsRm,
    .location,.restart]

/-- The inner loop of the selection sort: the position of the longest command from `i` on. -/
def longestFrom (cmdLen idx : List ℕ) (i : ℕ) : ℕ :=
  (List.range' (i+1) (idx.length-(i+1))).foldl
    (fun maxj j => if cmdLen.getD (idx.getD j 0) 0 > cmdLen.getD (idx.getD maxj 0) 0 then j else maxj)
    i

/-- `InitUartCmdTableSortedIdx` for a table with these command lengths. -/
def initUartCmdTableSortedIdx (cmdLen : List ℕ) : List ℕ :=
  (List.range (cmdLen.length-1)).foldl
    (fun idx i =>
      let maxj := longestFrom cmdLen idx i
      if maxj ≠ i then (idx.set i (idx.getD maxj 0)).set maxj (idx.getD i 0) else idx)
    (List.range cmdLen.length)

def sortedTable : List UartCmd :=
  (initUartCmdTableSortedIdx (uartCmdTable.map fun c => c.cmd.length)).filterMap
    fun i => uartCmdTable[i]?

def UartCmd.isAt (c : UartCmd) (cmd : List UInt8) : Bool :=
  cmd.take c.cmd.length = c.cmd &&
    ((cmd.drop c.cmd.length).head? = none || (cmd.drop c.cmd.length).head? = some 32)

theorem isAt_iff {c : UartCmd} {line : List UInt8} :
    c.isAt line = true ↔ ∃ rest, line = c.cmd++rest ∧ (rest = [] ∨ ∃ t, rest = 32::t) := by
  simp only [UartCmd.isAt,Bool.and_eq_true,Bool.or_eq_true,decide_eq_true_eq]
  constructor
  · rintro ⟨htake,hhead⟩
    refine ⟨line.drop c.cmd.length,?_,?_⟩
    · conv_lhs => rw [← List.take_append_drop c.cmd.length line,htake]
    · rcases hhead with hnil | hblank
      · exact Or.inl (List.head?_eq_none_iff.1 hnil)
      · obtain ⟨t,ht⟩ := List.head?_eq_some_iff.1 hblank
        exact Or.inr ⟨t,ht⟩
  · rintro ⟨rest,rfl,rfl | ⟨t,rfl⟩⟩ <;> simp

def dispatch (cmd : List UInt8) : Option (UartCmd × List UInt8) :=
  let cmd := trimWhitespace cmd
  (sortedTable.find? fun c => c.isAt cmd).map fun c => (c,cmd.drop c.cmd.length)

/-! ### `set` -/

inductive SetReply
  | missing
  | unknown (param : List UInt8)
  | invalid (p : Param)
  | done (p : Param) (value : List UInt8) (file : Option (List UInt8))
  deriving DecidableEq

def SetReply.accepted : SetReply → Bool
  | .done _ _ _ => true
  | _ => false

/-- The name up to the first blank and the value behind it, which is not trimmed. -/
def splitAtSpace (param : List UInt8) : List UInt8 × List UInt8 :=
  match strchr param 32 with
  | some i => (param.take i,param.drop (i+1))
  | none => (param,[])

theorem mem_of_mem_splitAtSpace {param : List UInt8} {c : UInt8} (h : c ∈ (splitAtSpace param).2) :
    c ∈ param := by
  unfold splitAtSpace at h
  split at h
  · exact List.mem_of_mem_drop h
  · simp at h

def handleSetCommand (a : SaveAnswers) (param : List UInt8) (d : Device F) : Device F × SetReply :=
  let param := trimWhitespace param
  if param = [] then (d,.missing)
  else
    let split := splitAtSpace param
    match getConfigMap split.1 with
    | none => (d,.unknown split.1)
    | some p =>
      match p.validator split.2 d with
      | none => (d,.invalid p)
      | some d' => (d',.done p split.2 (configStoreSave a d'.config).1)

inductive UartReply
  | unknownCommand
  | set (reply : SetReply)
  | other (c : UartCmd) (arg : List UInt8)
  deriving DecidableEq

def UartReply.accepted : UartReply → Bool
  | .set reply => reply.accepted
  | _ => false

def runHandler (a : SaveAnswers) (d : Device F) :
    Option (UartCmd × List UInt8) → Device F × UartReply
  | none => (d,.unknownCommand)
  | some (c,arg) =>
    if c = .set then
      let r := handleSetCommand a arg d
      (r.1,.set r.2)
    else (d,.other c arg)

/-- `HandleUartCommand` on the bytes of a UART event, behind which stands a NUL. -/
def handleUartCommand (a : SaveAnswers) (data : List UInt8) (d : Device F) :
    Device F × UartReply :=
  runHandler a d (dispatch (cstring data))

theorem handleUartCommand_set {data arg : List UInt8} (h : dispatch (cstring data) = some (.set,arg))
    (a : SaveAnswers) (d : Device F) :
    (handleUartCommand a data d).1 = (handleSetCommand a arg d).1 := by
  rw [handleUartCommand,h,runHandler,if_pos rfl]

end ConfigCommands
end A9GTracker
