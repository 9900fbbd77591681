import A9GTracker.SavedFile

/-! What the result of `ConfigStore_Save` says about the file. -/
namespace A9GTracker
namespace SaveResult

open ConfigStore ConfigFile SavedFile

section Pieces
variable {α β : Type} {f : α → List β} {n : α → ℕ}

theorem length_flatten_take_le (f : α → List β) (n : α → ℕ) (l : List α) :
    (l.map fun x => (f x).take (n x)).flatten.length ≤ (l.map f).flatten.length := by
  induction l with
  | nil => simp
  | cons x l ih =>
    simp only [List.map_cons,List.flatten_cons,List.length_append,List.length_take]
    omega

theorem flatten_take_eq_iff {l : List α} :
    (l.map fun x => (f x).take (n x)).flatten = (l.map f).flatten ↔
      ∀ x ∈ l, (f x).length ≤ n x := by
  induction l with
  | nil => simp
  | cons x l ih =>
    simp only [List.map_cons,List.flatten_cons,List.forall_mem_cons]
    constructor
    · intro h
      have hlen := congrArg List.length h
      have hrest := length_flatten_take_le f n l
      simp only [List.length_append,List.length_take] at hlen
      have hx : (f x).length ≤ n x := by omega
      rw [List.take_of_length_le hx] at h
      exact ⟨hx,ih.1 (List.append_cancel_left h)⟩
    · intro h
      rw [List.take_of_length_le h.1,ih.2 h.2]

end Pieces

variable {F : Type} [FloatLib F]

def serialisation (c : Config F) : List UInt8 :=
  (gConfigMap.map fun p => configLine p.paramName (p.serializer c)).flatten

theorem saveLine_eq_configLine (c : Config F) (p : Param) :
    saveLine c p = configLine p.paramName (p.serializer c) := by
  rw [saveLine_eq]
  simp only [configLine,header,List.append_assoc]

theorem savedFile_eq (c : Config F) : savedFile c = serialisation c := by
  apply congrArg List.flatten
  exact List.map_congr_left fun p _ => saveLine_eq_configLine c p

/-- The file after a save; one that could not be opened is still the old one. -/
def fileAfter (a : SaveAnswers) (c : Config F) (old : Option (List UInt8)) :
    Option (List UInt8) :=
  (configStoreSave a c).1.or old

/-- `ConfigStore_Save` returns true iff the file holds all entries. -/
def Truthful (a : SaveAnswers) (c : Config F) (old : Option (List UInt8)) : Prop :=
  (configStoreSave a c).2 = true ↔ fileAfter a c old = some (serialisation c)

def WholeWrites (a : SaveAnswers) (c : Config F) : Prop :=
  ∀ e ∈ gConfigMap.zipIdx, ((configLine e.1.paramName (e.1.serializer c)).length : ℤ) ≤ a.written e.2

theorem fileAfter_of_opened {a : SaveAnswers} (h : a.opened = true) (c : Config F)
    (old : Option (List UInt8)) : fileAfter a c old = some
      ((gConfigMap.zipIdx.map fun e => (saveLine c e.1).take (a.written e.2).toNat).flatten) := by
  simp [fileAfter,configStoreSave,h]

/-- An opened file is complete exactly when no write failed or was short. -/
theorem complete_iff_wholeWrites {a : SaveAnswers} (h : a.opened = true) (c : Config F)
    (old : Option (List UInt8)) :
    fileAfter a c old = some (serialisation c) ↔ WholeWrites a c := by
  have hlines : serialisation c = (gConfigMap.zipIdx.map fun e => saveLine c e.1).flatten :=
    (savedFile_eq c).symm
  rw [fileAfter_of_opened h,Option.some.injEq,hlines,flatten_take_eq_iff]
  refine forall₂_congr fun e _ => ?_
  rw [saveLine_eq_configLine]
  have hpos : 0 < (configLine e.1.paramName (e.1.serializer c)).length := by
    simp [configLine,lit_crlf]
  omega

/-- A save into an opened file always returns true, one into a file that does not open
always returns false. -/
theorem configStoreSave_ret (a : SaveAnswers) (c : Config F) :
    (configStoreSave a c).2 = a.opened := by
  cases h : a.opened <;> simp [configStoreSave,h]

/-- The result is right exactly when every write was complete, or the file did not open and
was not up to date before. -/
theorem truthful_iff (a : SaveAnswers) (c : Config F) (old : Option (List UInt8)) :
    Truthful a c old ↔
      if a.opened then WholeWrites a c else old ≠ some (serialisation c) := by
  rw [Truthful,configStoreSave_ret]
  cases h : a.opened with
  | true =>
    rw [complete_iff_wholeWrites h]
    simp
  | false =>
    have hfile : fileAfter a c old = old := by simp [fileAfter,configStoreSave,h]
    rw [hfile]
    simp

def fullFileSystem : SaveAnswers where
  opened := true
  written _ := -1

theorem save_not_truthful :
    ¬ ∀ (a : SaveAnswers) (c : Config Micros) (old : Option (List UInt8)), Truthful a c old := by
  intro h
  have hfile := (h fullFileSystem (initDefaults none).config none).1 rfl
  rw [complete_iff_wholeWrites rfl] at hfile
  have hfirst := hfile (.deviceName,0) (by decide)
  simp [fullFileSystem] at hfirst
  omega

end SaveResult
end A9GTracker
