import A9GTracker.StrtolRange
import A9GTracker.TailCommand

/-! What `tail` prints: the end of the file, however the reads cut it. -/
namespace A9GTracker
namespace TailOutput

open CString Utils ConfigStore ConfigLoad Decimal StrtolRange TailCommand

/-! ### The line of the console -/

def countOf (text : List UInt8) : ℤ :=
  wrap32 (digitsValue ((text.dropWhile isspace).takeWhile isdigit))

/-- What the line is taken to ask for: the count behind the path where it is positive, or
500. -/
inductive Counts (args : List UInt8) : List UInt8 → ℕ → Prop
  | absent {path : List UInt8} (hargs : trimWhitespace args = path) (hpath : (32 : UInt8) ∉ path) :
    Counts args path 500
  | number {path text : List UInt8} {n : ℕ} (hargs : trimWhitespace args = path++32::text)
    (hpath : (32 : UInt8) ∉ path) (hcount : countOf text = n) (hpos : 0 < n) : Counts args path n
  | notPositive {path text : List UInt8} (hargs : trimWhitespace args = path++32::text)
    (hpath : (32 : UInt8) ∉ path) (hcount : countOf text ≤ 0) : Counts args path 500

theorem exists_counts (args : List UInt8) : ∃ path n, Counts args path n := by
  by_cases hblank : (32 : UInt8) ∈ trimWhitespace args
  · obtain ⟨path,text,hargs,hpath⟩ := List.eq_append_cons_of_mem hblank
    rcases le_or_gt (countOf text) 0 with hle | hpos
    · exact ⟨path,_,.notPositive hargs hpath hle⟩
    · exact ⟨path,_,.number hargs hpath (Int.toNat_of_nonneg hpos.le).symm (by omega)⟩
  · exact ⟨_,_,.absent rfl hblank⟩

/-- The SDK tells the size of an open file and delivers what stands in it: a read in front of
its end gets at least one byte and no more than it asks for. `At` relates a state of the file
system to the position in the file. -/
structure Delivers {δ : Type} (api : Files δ) (content : List UInt8) (At : δ → ℕ → Prop) :
    Prop where
  size : ∀ s p, At s p →
    (api.getFileSize s).1 = content.length ∧ At (api.getFileSize s).2 p
  seek : ∀ s p start, At s p → start ≤ content.length →
    0 ≤ (api.seek s (start : ℕ)).1 ∧ At (api.seek s (start : ℕ)).2 start
  read : ∀ s p n, At s p → p < content.length → 0 < n →
    ∃ k, 0 < k ∧ k ≤ n ∧ p+k ≤ content.length ∧
      (api.read s n).1 = .bytes ((content.drop p).take k) ∧ At (api.read s n).2 (p+k)

section loop

variable {δ : Type} {api : Files δ} {content : List UInt8} {At : δ → ℕ → Prop}

end loop

/-! ### What is printed -/

end TailOutput
end A9GTracker
