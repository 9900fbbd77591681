import Mathlib.Data.List.Basic
import Mathlib.Data.List.DropRight
import Mathlib.Data.UInt
import Mathlib.Tactic.Common
import A9GTracker.Search

/-! C strings and the part of the C library that works on them. A string is the list
of its bytes without the terminator; memory that holds one is cut at the first NUL. -/
namespace A9GTracker
namespace CString

def lit (s : String) : List UInt8 := s.toList.map fun c => UInt8.ofNat c.toNat

/-- A literal by its characters: evaluating a long one costs far more than its list. -/
theorem lit_ofList (cs : List Char) :
    lit (String.ofList cs) = cs.map fun c => UInt8.ofNat c.toNat := by
  simp [lit]

/-- The string that starts at the head of a piece of memory. -/
def cstring (mem : List UInt8) : List UInt8 := mem.takeWhile (· ≠ 0)

theorem zero_notMem_cstring (mem : List UInt8) : (0 : UInt8) ∉ cstring mem := by
  intro h
  have := List.mem_takeWhile_imp h
  simp at this

theorem cstring_eq_self {s : List UInt8} (h : (0 : UInt8) ∉ s) : cstring s = s := by
  refine List.takeWhile_eq_self_iff.mpr fun b hb => ?_
  have : b ≠ 0 := fun h0 => h (h0 ▸ hb)
  simpa using this

theorem cstring_append {a : List UInt8} (h : (0 : UInt8) ∉ a) (b : List UInt8) :
    cstring (a++b) = a++cstring b := by
  refine List.takeWhile_append_of_pos fun x hx => ?_
  have hx0 : x ≠ 0 := fun h0 => h (h0 ▸ hx)
  simpa using hx0

theorem mem_cstring_append {a : List UInt8} {c : UInt8} (hc : c ≠ 0) (ha : c ∉ a)
    (b : List UInt8) : c ∈ cstring (a++c::b) ↔ (0 : UInt8) ∉ a := by
  constructor
  · intro h h0
    obtain ⟨a1,a2,rfl,ha1⟩ := List.eq_append_cons_of_mem h0
    rw [List.append_assoc,cstring_append ha1] at h
    have hnil : cstring ((0 : UInt8)::a2++c::b) = [] := by simp [cstring]
    rw [hnil,List.append_nil] at h
    exact ha (by simp [h])
  · intro h0
    rw [cstring_append h0]
    simp [cstring,hc]

theorem exists_cstring_append (mem : List UInt8) :
    ∃ z, mem = cstring mem++z ∧ ∀ c ∈ z.head?, c = 0 := by
  refine ⟨mem.dropWhile (· ≠ 0),List.takeWhile_append_dropWhile.symm,?_⟩
  intro c hc
  have hnot := List.head?_dropWhile_not (fun x : UInt8 => decide (x ≠ 0)) mem
  rw [Option.mem_def.mp hc] at hnot
  simpa using hnot

theorem getD_cstring {mem : List UInt8} {i : ℕ} (h : i ≤ (cstring mem).length) :
    mem.getD i 0 = (cstring mem).getD i 0 := by
  induction mem generalizing i with
  | nil => rfl
  | cons x mem ih =>
    by_cases hx : x = 0
    · have hnil : cstring (x::mem) = [] := by simp [cstring,hx]
      rw [hnil] at h ⊢
      obtain rfl : i = 0 := by simpa using h
      simp [hx]
    · have hcons : cstring (x::mem) = x::cstring mem := by simp [cstring,hx]
      rw [hcons] at h ⊢
      cases i with
      | zero => rfl
      | succ i => simpa using ih (by simpa using h)

theorem cstring_drop {mem : List UInt8} {k : ℕ} (h : k ≤ (cstring mem).length) :
    cstring (mem.drop k) = (cstring mem).drop k := by
  induction mem generalizing k with
  | nil => simp [cstring]
  | cons x mem ih =>
    cases k with
    | zero => rfl
    | succ k =>
      by_cases hx : x = 0
      · simp [cstring,hx] at h
      · have hcons : cstring (x::mem) = x::cstring mem := by simp [cstring,hx]
        rw [hcons] at h ⊢
        exact ih (by simpa using h)

/-! ### `ctype.h`

The macros look a character up in `_ctype`, a table of the ROM
(`platform/chip/rom/8955/lib/mem_bridge_rom_CHIP.elf`). Its upper half is Latin-1: 160 is white
space, 160 to 255 are printed, and the letters begin at 192. -/

def isspace (b : UInt8) : Bool := b == 32 || (9 ≤ b && b ≤ 13) || b == 160

def isdigit (b : UInt8) : Bool := 48 ≤ b && b ≤ 57

def isprint (b : UInt8) : Bool := (32 ≤ b && b ≤ 126) || 160 ≤ b

def isupper (b : UInt8) : Bool := (65 ≤ b && b ≤ 90) || (192 ≤ b && b ≤ 222 && b != 215)

def islower (b : UInt8) : Bool := (97 ≤ b && b ≤ 122) || (223 ≤ b && b != 247)

def isalpha (b : UInt8) : Bool := isupper b || islower b

def tolower (b : UInt8) : UInt8 := if isupper b then b+32 else b

theorem isspace_iff {c : UInt8} : isspace c = true ↔
    c.toNat = 32 ∨ 9 ≤ c.toNat ∧ c.toNat ≤ 13 ∨ c.toNat = 160 := by
  simp only [isspace,Bool.or_eq_true,beq_iff_eq,Bool.and_eq_true,decide_eq_true_eq,
    UInt8.le_iff_toNat_le,← UInt8.toNat_inj,or_assoc]
  rfl

theorem isdigit_iff {c : UInt8} : isdigit c = true ↔ 48 ≤ c.toNat ∧ c.toNat ≤ 57 := by
  simp only [isdigit,Bool.and_eq_true,decide_eq_true_eq,UInt8.le_iff_toNat_le]
  rfl

theorem isprint_iff {c : UInt8} :
    isprint c = true ↔ 32 ≤ c.toNat ∧ c.toNat ≤ 126 ∨ 160 ≤ c.toNat := by
  simp only [isprint,Bool.or_eq_true,Bool.and_eq_true,decide_eq_true_eq,UInt8.le_iff_toNat_le]
  rfl

theorem isupper_iff {c : UInt8} : isupper c = true ↔
    65 ≤ c.toNat ∧ c.toNat ≤ 90 ∨ 192 ≤ c.toNat ∧ c.toNat ≤ 222 ∧ c.toNat ≠ 215 := by
  simp only [isupper,Bool.or_eq_true,Bool.and_eq_true,decide_eq_true_eq,UInt8.le_iff_toNat_le,
    bne_iff_ne,ne_eq,← UInt8.toNat_inj,and_assoc]
  rfl

theorem islower_iff {c : UInt8} : islower c = true ↔
    97 ≤ c.toNat ∧ c.toNat ≤ 122 ∨ 223 ≤ c.toNat ∧ c.toNat ≠ 247 := by
  simp only [islower,Bool.or_eq_true,Bool.and_eq_true,decide_eq_true_eq,UInt8.le_iff_toNat_le,
    bne_iff_ne,ne_eq,← UInt8.toNat_inj]
  rfl

def strchr (mem : List UInt8) (c : UInt8) : Option ℕ := (cstring mem).idxOf? c

theorem strchr_eq_none {mem : List UInt8} {c : UInt8} : strchr mem c = none ↔ c ∉ cstring mem := by
  simp [strchr]

theorem strchr_append {a : List UInt8} {c : UInt8} (hc : c ∉ a) (h0 : (0 : UInt8) ∉ a)
    (hc0 : c ≠ 0) (b : List UInt8) : strchr (a++c::b) c = some a.length := by
  have hcs : cstring (c::b) = c::cstring b := by simp [cstring,hc0]
  rw [strchr,cstring_append h0,hcs]
  clear h0 hcs
  induction a with
  | nil => simp [List.idxOf?_cons]
  | cons x a ih =>
    have hx : x ≠ c := fun heq => hc (by simp [heq])
    rw [List.cons_append,List.idxOf?_cons,if_neg (by simpa using hx),ih fun h => hc (by simp [h])]
    rfl

theorem strchr_eq_some {mem : List UInt8} {c : UInt8} {i : ℕ} (h : strchr mem c = some i) :
    ∃ a b, mem = a++c::b ∧ a.length = i ∧ c ∉ a ∧ (0 : UInt8) ∉ a := by
  have hmem : c ∈ cstring mem := by
    by_contra hno
    simp [strchr_eq_none.2 hno] at h
  have hprefix : cstring mem <+: mem := List.takeWhile_prefix _
  obtain ⟨t,ht⟩ := hprefix
  obtain ⟨a,b,hab,ha⟩ := List.eq_append_cons_of_mem hmem
  have h0 := zero_notMem_cstring mem
  rw [hab] at ht h0
  have hmem' : mem = a++c::(b++t) := by simpa using ht.symm
  have ha0 : (0 : UInt8) ∉ a := fun h => h0 (by simp [h])
  have hi := strchr_append ha ha0 (fun h => h0 (by simp [h])) (b++t)
  rw [← hmem',h] at hi
  exact ⟨a,b++t,hmem',(Option.some.inj hi).symm,ha,ha0⟩

/-- Offset of the first occurrence of `needle` in a string. -/
def strstr (s needle : List UInt8) : Option ℕ := Search.find needle s

end CString
end A9GTracker
