import A9GTracker.CString
import A9GTracker.Matcher
import A9GTracker.RingBuffer

/-! Whether `Buffer_Query` finds the first occurrence of any pattern in the queue. -/
namespace A9GTracker
namespace QueueSearch

open CString RingBuffer Search

/-- The ring position of the first occurrence from the queued byte number `i` on, or -1. -/
def firstPosition (b : Buffer) (data : List UInt8) (i : ℕ) : ℤ :=
  ((find data ((contents b).drop i)).map fun j => (slot b (i+j) : ℤ)).getD (-1)

theorem lt_count_of_occurs {b : Buffer} {data : List UInt8} (hne : data ≠ []) {i j : ℕ}
    (h : Occurs data ((contents b).drop i) j) : i+j < count b := by
  have hle := h.add_length_le hne
  have hpos := List.length_pos_iff.2 hne
  rw [List.length_drop,contents_length] at hle
  omega

/-- Two results are the same position only if they are the same occurrence. -/
theorem slot_map_inj {b : Buffer} (hb : InRing b) {i : ℕ} {o o' : Option ℕ}
    (ho : ∀ j ∈ o, i+j < count b) (ho' : ∀ j ∈ o', i+j < count b)
    (h : (o.map fun j => (slot b (i+j) : ℤ)).getD (-1) =
      (o'.map fun j => (slot b (i+j) : ℤ)).getD (-1)) : o = o' := by
  have hpos : 0 < b.maxSize := by
    have := hb.front_lt
    omega
  have hcount : count b < b.maxSize := Nat.mod_lt _ hpos
  cases o with
  | none =>
    cases o' with
    | none => rfl
    | some j' =>
      simp only [Option.map_none,Option.getD_none,Option.map_some,Option.getD_some] at h
      omega
  | some j =>
    cases o' with
    | none =>
      simp only [Option.map_none,Option.getD_none,Option.map_some,Option.getD_some] at h
      omega
    | some j' =>
      have hj := ho j rfl
      have hj' := ho' j' rfl
      simp only [Option.map_some,Option.getD_some,Nat.cast_inj] at h
      have heq := slot_inj (by omega) (by omega) h
      congr 1
      omega

/-- The query gives the position of the first occurrence exactly when the bytes in front of
it, from the start on, can be cut into bytes other than the first one of the pattern and
beginnings of the pattern that the next byte does not continue. -/
theorem bufferQuery_first_iff {b : Buffer} (hb : InRing b) {data : List UInt8} (hne : data ≠ [])
    {i : ℕ} (hi : i < count b) :
    bufferQuery b data data.length (slot b i) = firstPosition b data i ↔
      ∀ j, find data ((contents b).drop i) = some j →
        PassesOver data ((contents b).drop i) j := by
  have hpos : 0 < b.maxSize := by
    have := hb.front_lt
    omega
  have hcount : count b < b.maxSize := Nat.mod_lt _ hpos
  have hquery : bufferQuery b data data.length (slot b i) =
      ((scan data ((contents b).drop i) 0).map fun j => (slot b (i+j) : ℤ)).getD (-1) := by
    rw [bufferQuery_eq_scan hb data hi.le (by omega)]
    cases scan data ((contents b).drop i) 0 with
    | none => rfl
    | some j => rfl
  rw [← scan_eq_find_iff hne,hquery,firstPosition]
  constructor
  · intro heq
    refine slot_map_inj hb (fun j hj => ?_) (fun j hj => ?_) heq
    · exact lt_count_of_occurs hne (passesOver_of_scan (List.length_pos_iff.2 hne) hj).2
    · exact lt_count_of_occurs hne (find_spec hj).1
  · intro heq
    rw [heq]

def ringOf (data : List UInt8) : Buffer := (bufferPuts (bufferInit 16) data data.length).1

theorem bufferQuery_first_vtg :
    bufferQuery (ringOf (lit "$GPVTG")) (lit "VTG") 3 1 =
      firstPosition (ringOf (lit "$GPVTG")) (lit "VTG") 0 := by
  have hring : InRing (ringOf (lit "$GPVTG")) := ⟨by decide,by decide,by decide⟩
  have hne : lit "VTG" ≠ [] := by decide
  have hi : 0 < count (ringOf (lit "$GPVTG")) := by decide
  have hcontents : (contents (ringOf (lit "$GPVTG"))).drop 0 = lit "$GPVTG" := by decide
  refine (bufferQuery_first_iff hring hne hi).2 fun j hj => ?_
  rw [hcontents] at hj ⊢
  obtain rfl : j = 3 := Option.some.inj (hj.symm.trans (by decide))
  exact .symbol (by decide) (.symbol (by decide) (.symbol (by decide) (.nothing _)))

/-- The occurrence behind the first byte of `aaab` is missed. -/
theorem bufferQuery_misses_overlap :
    ¬ ∀ (b : Buffer) (data : List UInt8) (i : ℕ), InRing b → data ≠ [] → i < count b →
      bufferQuery b data data.length (slot b i) = firstPosition b data i := by
  intro h
  have hfirst := h (ringOf (lit "aaab")) (lit "aab") 0 ⟨by decide,by decide,by decide⟩ (by decide)
    (by decide)
  exact absurd hfirst (by decide)

end QueueSearch
end A9GTracker
