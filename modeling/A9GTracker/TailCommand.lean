import Mathlib.Data.List.Basic
import Mathlib.Tactic.Common
import A9GTracker.ConfigLoad
import A9GTracker.DescriptorTable
import A9GTracker.Utils

/-! The console command `tail` of `app/src/config_commands.c`. -/
namespace A9GTracker
namespace TailCommand

open CString Utils ConfigLoad DescriptorTable

/-- `atoi` of the ROM: the digits in front, in 32 bits. It takes neither blanks nor a sign. -/
def atoi (nptr : List UInt8) : ℤ :=
  (nptr.takeWhile isdigit).foldl (fun v c => wrap32 (v*10+c.toNat-48)) 0

/-- The calls of the SDK on a file system in state `δ`. -/
structure Files (δ : Type) where
  fileOpen : δ → List UInt8 → ℤ × δ
  getFileSize : δ → ℤ × δ
  seek : δ → ℤ → ℤ × δ
  read : δ → ℕ → ReadResult × δ

def tailArguments (args : List UInt8) : List UInt8 × ℤ :=
  let filePath := trimWhitespace args
  match strchr filePath 32 with
  | none => (filePath,500)
  | some i =>
    let bytesStr := trimWhitespace (filePath.drop (i+1))
    let val := atoi bytesStr
    (filePath.take i,if bytesStr ≠ [] ∧ 0 < val then val else 500)

def tailStart (fileSize bytes : ℤ) : ℤ := if fileSize > bytes then fileSize-bytes else 0

variable {δ : Type}

structure TailState (δ : Type) where
  remaining : ℤ
  printed : List UInt8
  files : δ

/-- One round of the loop; a failed or empty read leaves it. -/
def tailBody (api : Files δ) (st : TailState δ) : Loop.Step (TailState δ) (TailState δ) :=
  if 0 < st.remaining then
    let r := api.read st.files (min st.remaining 128).toNat
    match r.1 with
    | .error _ => .done { st with files := r.2 }
    | .bytes bs =>
      if bs = [] then .done { st with files := r.2 }
      else .next ⟨st.remaining-bs.length,st.printed++bs,r.2⟩
  else .done st

structure TailResult (δ : Type) where
  output : List UInt8
  calls : List (FdCall ℤ)
  files : δ

/-- `HandleTailCommand`, or `none` when the fuel is used up. -/
def handleTailCommand (api : Files δ) (args : List UInt8) (fuel : ℕ) (files : δ) :
    Option (TailResult δ) :=
  if trimWhitespace args = [] then some ⟨lit "missing file\r\n",[],files⟩
  else
    let filePath := (tailArguments args).1
    let bytes := (tailArguments args).2
    let fd := api.fileOpen files filePath
    if fd.1 < 0 then some ⟨lit "tail: cannot open file "++filePath++lit "\r\n",[],fd.2⟩
    else
      let answer := api.getFileSize fd.2
      let fileSize := wrap32 answer.1
      if fileSize < 0 then
        some ⟨lit "tail: cannot get file size\r\n",[.opened fd.1,.closed fd.1],answer.2⟩
      else
        let start := tailStart fileSize bytes
        let sought := api.seek answer.2 start
        if sought.1 < 0 then
          some ⟨lit "tail: seek error\r\n",[.opened fd.1,.closed fd.1],sought.2⟩
        else
          (Loop.run (tailBody api) fuel ⟨fileSize-start,[],sought.2⟩).map fun st =>
            ⟨st.printed++lit "\r\n",[.opened fd.1,.closed fd.1],st.files⟩

example : atoi (lit "4294967301") = 5 ∧ atoi (lit "+5") = 0 := by decide

end TailCommand
end A9GTracker
