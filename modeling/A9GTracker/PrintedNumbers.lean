import Mathlib.Data.List.Basic
import A9GTracker.CellInfo
import A9GTracker.Decimal

/-! Printed numbers are read back as what they were. -/
namespace A9GTracker
namespace PrintedNumbers

open CString Utils ConfigStore Decimal Network

theorem isDigits_printNat (n : ℕ) : IsDigits (printNat n) := by
  intro c hc
  obtain ⟨d,hd,rfl⟩ := List.mem_map.1 hc
  have hdigit := Nat.isDigit_of_mem_toDigits (by decide) (by decide) hd
  simp only [Char.isDigit,Bool.and_eq_true,decide_eq_true_eq] at hdigit
  have hge : 48 ≤ d.toNat := hdigit.1
  have hle : d.toNat ≤ 57 := hdigit.2
  have hval : (UInt8.ofNat d.toNat).toNat = d.toNat := by
    rw [UInt8.toNat_ofNat']
    omega
  simp only [isdigit,Bool.and_eq_true,decide_eq_true_eq,UInt8.le_iff_toNat_le,hval]
  exact ⟨hge,hle⟩

def printNat3 (n : ℕ) : List UInt8 := List.replicate (3-(printNat n).length) 48++printNat n

theorem isDigits_printNat3 (n : ℕ) : IsDigits (printNat3 n) := by
  rw [printNat3,isDigits_append]
  refine ⟨fun c hc => ?_,isDigits_printNat n⟩
  rw [List.eq_of_mem_replicate hc]
  rfl

theorem length_printNat3 {n : ℕ} (h : n < 1000) : (printNat3 n).length = 3 := by
  have hle := CellInfo.printNat_length_le (k := 3) (by decide) h
  rw [printNat3,List.length_append,List.length_replicate]
  omega

end PrintedNumbers
end A9GTracker
