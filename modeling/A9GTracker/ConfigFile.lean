import Mathlib.Data.List.Basic
import Mathlib.Tactic.Common
import A9GTracker.ConfigLoad
import A9GTracker.ConfigStore

/-! The configuration file: `parse_line`, `ConfigStore_Save` and `ConfigStore_Init` of
`app/src/config_store.c`. -/
namespace A9GTracker
namespace ConfigFile

open CString Utils ConfigStore ConfigLoad

variable {F : Type} [FloatLib F]

/-! ### `parse_line` -/

/-- How `parse_line` ends; only a stored value makes it return true. -/
inductive LineOutcome
  | noEquals
  | unknownKey (line : List UInt8)
  | invalid (p : Param) (value : List UInt8)
  | stored (p : Param) (value : List UInt8)
  deriving DecidableEq

def LineOutcome.ret : LineOutcome → Bool
  | .stored _ _ => true
  | _ => false

def parseLine (d : Device F) (line : List UInt8) : Device F × LineOutcome :=
  match strchr line 61 with
  | none => (d,.noEquals)
  | some i =>
    let key := trimWhitespace (line.take i)
    let value := trimWhitespace (line.drop (i+1))
    match getConfigMap key with
    | none => (d,.unknownKey key)
    | some p =>
      match p.validator value d with
      | none => (d,.invalid p value)
      | some d' => (d',.stored p value)

/-! ### `ConfigStore_Save` -/

theorem lit_equals : lit " = " = [32,61,32] := by decide
theorem lit_crlf : lit "\r\n" = [13,10] := by decide

def configLine (name value : List UInt8) : List UInt8 :=
  name++List.replicate (20-name.length) 32++lit " = "++value++lit "\r\n"

def saveLine (c : Config F) (p : Param) : List UInt8 :=
  (configLine p.paramName (p.serializer c)).take 254

/-- The answers of the file system: whether the file opens, and what each write returns. -/
structure SaveAnswers where
  opened : Bool
  written : ℕ → ℤ

/-- The new content of the file, if it could be opened, and the result. A short or failed
write leaves its part and does not end the loop. -/
def configStoreSave (a : SaveAnswers) (c : Config F) : Option (List UInt8) × Bool :=
  if ¬ a.opened then (none,false)
  else (some ((gConfigMap.zipIdx.map fun e => (saveLine c e.1).take (a.written e.2).toNat).flatten),
    true)

def savedFile (c : Config F) : List UInt8 := (gConfigMap.map (saveLine c)).flatten

theorem configStoreSave_complete (a : SaveAnswers) (c : Config F) (ho : a.opened = true)
    (hw : ∀ e ∈ gConfigMap.zipIdx, a.written e.2 = (saveLine c e.1).length) :
    configStoreSave a c = (some (savedFile c),true) := by
  have hlines : (gConfigMap.zipIdx.map fun e => (saveLine c e.1).take (a.written e.2).toNat) =
      gConfigMap.zipIdx.map fun e => saveLine c e.1 := by
    refine List.map_congr_left fun e he => ?_
    rw [hw e he,Int.toNat_natCast,List.take_length]
  have hmap : (gConfigMap.zipIdx.map fun e => saveLine c e.1) = gConfigMap.map (saveLine c) := rfl
  simp [configStoreSave,ho,hlines,hmap,savedFile]

/-! ### `ConfigStore_Init` -/

def getImei (imei : Option (List UInt8)) (d : Device F) : Device F :=
  { d with config := { d.config with
    imei := match imei with
      | some text => strncpy 16 text
      | none => .zero 16 } }

/-- The default values; the entry of the device name points to the IMEI when there is one. -/
def defaultOf (imei : Option (List UInt8)) (c : Config F) : Param → List UInt8
  | .deviceName => if imei.isSome then c.imei.text else Param.deviceName.defaultValue
  | p => p.defaultValue

/-- Every default goes through its validator; a rejected one is skipped. -/
def applyDefaults (default : Param → List UInt8) (d : Device F) : Device F :=
  gConfigMap.foldl (fun d p => (p.validator (default p) d).getD d) d

def initDefaults (imei : Option (List UInt8)) : Device F :=
  let d := getImei imei zeroDevice
  applyDefaults (defaultOf imei d.config) d

theorem length_flatten_le {α : Type} {ls : List (List α)} {n : ℕ} (h : ∀ l ∈ ls, l.length ≤ n) :
    ls.flatten.length ≤ ls.length*n := by
  induction ls with
  | nil => exact Nat.zero_le _
  | cons l ls ih =>
    have hl := h l (by simp)
    have hls := ih fun l' hl' => h l' (by simp [hl'])
    rw [List.flatten_cons,List.length_append,List.length_cons,Nat.succ_mul]
    omega

theorem saveLine_length_le (c : Config F) (p : Param) : (saveLine c p).length ≤ 254 :=
  List.length_take_le _ _

theorem savedFile_length_le (c : Config F) : (savedFile c).length ≤ 3302 := by
  have hlength : (savedFile c).length ≤ (gConfigMap.map (saveLine c)).length*254 := by
    refine length_flatten_le fun l hl => ?_
    obtain ⟨p,-,rfl⟩ := List.mem_map.1 hl
    exact saveLine_length_le c p
  rw [List.length_map] at hlength
  exact hlength

structure BootFile (δ : Type) where
  opened : Bool
  fileSize : ℤ
  device : δ

/-- `ConfigStore_Init` after a reset, or `none` when the fuel is used up. -/
def configStoreInit {δ : Type} (read : δ → ℕ → ReadResult × δ) (imei : Option (List UInt8))
    (file : BootFile δ) (fuel : ℕ) : Option (Device F) :=
  (configStoreLoad (fun d line => (parseLine d line).1) read file.opened file.fileSize fuel
    (initDefaults imei) file.device).map fun r => r.store

/-- A file that opens, announces its length in an `int` and is read in the given cuts. -/
def wholeFile (text : List UInt8) (cuts : ℕ → ℕ) : BootFile FileDevice :=
  ⟨true,wrap32 text.length,⟨text,cuts,0⟩⟩

theorem wholeFile_eq {text : List UInt8} (h : text.length < 2147483648) (cuts : ℕ → ℕ) :
    wholeFile text cuts = ⟨true,text.length,⟨text,cuts,0⟩⟩ := by
  rw [wholeFile,wrap32_of_range (by omega) (by omega)]

end ConfigFile
end A9GTracker
