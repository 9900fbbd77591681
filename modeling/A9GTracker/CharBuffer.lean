import Mathlib.Data.List.Basic
import Mathlib.Tactic.Common
import A9GTracker.CString

/-! A buffer of characters that remembers the indices written to, and the bounded copy of a
string into it. -/
namespace A9GTracker
namespace CharBuffer

open CString

structure Buffer where
  bytes : List UInt8
  writes : List ℕ
  deriving DecidableEq

/-- `b[i] = c`. A write behind the end is recorded all the same. -/
def Buffer.put (b : Buffer) (i : ℕ) (c : UInt8) : Buffer := ⟨b.bytes.set i c,b.writes++[i]⟩

@[simp] theorem Buffer.put_writes (b : Buffer) (i : ℕ) (c : UInt8) :
    (b.put i c).writes = b.writes++[i] := rfl

@[simp] theorem Buffer.length_put (b : Buffer) (i : ℕ) (c : UInt8) :
    (b.put i c).bytes.length = b.bytes.length := List.length_set

/-- `strncpy(b + i, src, n)`: behind the end of the string it writes zeros. -/
def strncpyFrom (i : ℕ) : ℕ → List UInt8 → Buffer → Buffer
  | 0, _, b => b
  | n+1, [], b => strncpyFrom (i+1) n [] (b.put i 0)
  | n+1, c::src, b => strncpyFrom (i+1) n (if c = 0 then [] else src) (b.put i c)

def padded (n : ℕ) (s : List UInt8) : List UInt8 := s++List.replicate (n-s.length) 0

theorem length_padded {n : ℕ} {s : List UInt8} (h : s.length ≤ n) : (padded n s).length = n := by
  rw [padded,List.length_append,List.length_replicate]
  omega

theorem cstring_padded (n : ℕ) (s : List UInt8) : cstring (padded n s) = cstring s := by
  rw [padded]
  generalize n-s.length = k
  induction s with
  | nil => cases k <;> rfl
  | cons c s ih =>
    by_cases hc : c = 0
    · simp [cstring,hc]
    · simpa [cstring,hc] using ih

theorem padded_set {n : ℕ} {s : List UInt8} (h : s.length < n) (c : UInt8) :
    (padded n s).set s.length c = padded n (s++[c]) := by
  obtain ⟨k,hk⟩ : ∃ k, n-s.length = k+1 := ⟨n-s.length-1,by omega⟩
  have hk' : n-(s++[c]).length = k := by
    rw [List.length_append,List.length_singleton]
    omega
  rw [padded,padded,hk,hk',List.set_append_right _ _ le_rfl,Nat.sub_self,List.replicate_succ,
    List.set_cons_zero,List.append_assoc,List.singleton_append]

/-- A zero more behind the string changes nothing, wherever it is written. -/
theorem padded_set_zero {n i : ℕ} {s : List UInt8} (h : s.length ≤ i) :
    (padded n s).set i 0 = padded n s := by
  rw [padded,List.set_append_right _ _ h]
  congr 1
  refine List.ext_getElem? fun j => ?_
  rw [List.getElem?_set]
  split_ifs with heq hlt
  · subst heq
    exact (List.getElem?_replicate_of_lt (by simpa using hlt)).symm
  · subst heq
    exact (List.getElem?_eq_none (not_lt.1 hlt)).symm
  · rfl

theorem strncpyFrom_writes (i n : ℕ) (src : List UInt8) (b : Buffer) :
    (strncpyFrom i n src b).writes = b.writes++List.range' i n := by
  induction n generalizing i src b with
  | zero => simp [strncpyFrom]
  | succ n ih =>
    cases src with
    | nil => rw [strncpyFrom,ih,Buffer.put_writes,List.append_assoc,List.range'_succ]; rfl
    | cons c src => rw [strncpyFrom,ih,Buffer.put_writes,List.append_assoc,List.range'_succ]; rfl

theorem put_around {b : Buffer} {i n : ℕ} (h : i < b.bytes.length) (c : UInt8) :
    (b.put i c).bytes.take (i+1) = b.bytes.take i++[c] ∧
      (b.put i c).bytes.drop (i+1+n) = b.bytes.drop (i+(n+1)) := by
  have hset : (b.put i c).bytes = b.bytes.take i++c::b.bytes.drop (i+1) :=
    List.set_eq_take_append_cons_drop.trans (if_pos h)
  have htake : (b.bytes.take i).length = i := List.length_take_of_le h.le
  constructor
  · rw [hset,List.take_append,htake,List.take_of_length_le (by omega),Nat.add_sub_cancel_left]
    rfl
  · rw [hset,List.drop_append,htake,List.drop_of_length_le (by omega),List.nil_append,
      (by omega : i+1+n-i = n+1),List.drop_succ_cons,List.drop_drop]
    congr 1
    omega

/-- The `n` bytes from `i` on hold the string, cut or filled up to them. -/
theorem strncpyFrom_bytes {i n : ℕ} {src : List UInt8} {b : Buffer} (h0 : (0 : UInt8) ∉ src)
    (h : i+n ≤ b.bytes.length) :
    (strncpyFrom i n src b).bytes =
      b.bytes.take i++padded n (src.take n)++b.bytes.drop (i+n) := by
  induction n generalizing i src b with
  | zero => simp [strncpyFrom,padded]
  | succ n ih =>
    cases src with
    | nil =>
      obtain ⟨htake,hdrop⟩ := put_around (n := n) (by omega : i < b.bytes.length) 0
      rw [strncpyFrom,ih h0 (by rw [Buffer.length_put]; omega),htake,hdrop]
      simp [padded,List.replicate_succ]
    | cons c src =>
      obtain ⟨hc,h0'⟩ := not_or.1 (List.mem_cons.not.1 h0)
      obtain ⟨htake,hdrop⟩ := put_around (n := n) (by omega : i < b.bytes.length) c
      rw [strncpyFrom,if_neg (Ne.symm hc),ih h0' (by rw [Buffer.length_put]; omega),htake,hdrop]
      simp [padded]

end CharBuffer
end A9GTracker
