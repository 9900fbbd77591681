import Mathlib.Data.List.GetD
import A9GTracker.AckCheck

/-! The checksum that `GPS_CMDSend` puts into a command and the two checks of it. -/
namespace A9GTracker

/-! Checksums that fold a word with an operation which can be cancelled on both sides: another
symbol in one place always gives another checksum. -/
namespace SingleError

open Function

variable {α : Type} {op : α → α → α}

theorem foldl_injective (hleft : ∀ y, Injective fun x => op x y) (l : List α) :
    Injective fun a => l.foldl op a := by
  induction l with
  | nil => exact injective_id
  | cons y l ih => exact ih.comp (hleft y)

theorem foldl_append_cons_ne (hleft : ∀ y, Injective fun x => op x y)
    (hright : ∀ x, Injective (op x)) (u v : List α) {x y : α} (h : y ≠ x) (a : α) :
    (u++y::v).foldl op a ≠ (u++x::v).foldl op a := by
  rw [List.foldl_append,List.foldl_append,List.foldl_cons,List.foldl_cons]
  intro heq
  exact h (hright _ (foldl_injective hleft v heq))

theorem foldl_set_ne (hleft : ∀ y, Injective fun x => op x y) (hright : ∀ x, Injective (op x))
    {l : List α} {i : ℕ} (hi : i < l.length) {y : α} (h : y ≠ l[i]) (a : α) :
    (l.set i y).foldl op a ≠ l.foldl op a := by
  have hsplit : l = l.take i++l[i]::l.drop (i+1) := by
    rw [← List.drop_eq_getElem_cons hi,List.take_append_drop]
  have hset : l.set i y = l.take i++y::l.drop (i+1) := by
    rw [List.set_eq_take_append_cons_drop,if_pos hi]
  have hne := foldl_append_cons_ne hleft hright (l.take i) (l.drop (i+1)) h a
  rwa [← hsplit,← hset] at hne

end SingleError

namespace CommandChecksum

open CString GpsCommand AckCheck SingleError Function

theorem xor_left_injective (y : UInt8) : Injective fun x => x ^^^ y :=
  fun _ _ h => (UInt8.xor_left_inj y).1 h

theorem xor_right_injective (x : UInt8) : Injective fun y => x ^^^ y :=
  fun _ _ h => (UInt8.xor_right_inj x).1 h

/-! ### Text commands -/

/-- A character of a command: seven bits, no star and no terminator. -/
def CommandChar (c : UInt8) : Prop := c.toNat < 128 ∧ c ≠ 42 ∧ c ≠ 0

theorem checksum_lt {body : List UInt8} (h : ∀ c ∈ body, c.toNat < 128) :
    (checksum body).toNat < 128 := by
  induction body using List.reverseRecOn with
  | nil => decide
  | append_singleton body c ih =>
    rw [checksum,List.foldl_append]
    change (checksum body ^^^ c).toNat < 128
    rw [UInt8.toNat_xor]
    exact @Nat.xor_lt_two_pow _ _ 7 (ih fun x hx => h x (by simp [hx])) (h c (by simp))

def checksumDigits (below : ℕ → UInt8) (body : List UInt8) : List UInt8 :=
  [hexStr below (charVal (checksum body) / 16),hexDigit ((checksum body).toNat % 16),13,10]

theorem gpsCmdSend_nmea (below : ℕ → UInt8) (first : UInt8) {body : List UInt8} (hne : body ≠ []) :
    gpsCmdSend below (first::body) .nmea = first::(body++42::checksumDigits below body) := by
  obtain ⟨b,body,rfl⟩ := List.exists_cons_of_ne_nil hne
  simp only [gpsCmdSend,checksumDigits,checksum_cons]
  rfl

theorem hexDigit_injective {k l : ℕ} (hk : k < 16) (hl : l < 16) (h : hexDigit k = hexDigit l) :
    k = l := by
  have hall : ∀ k < 16, ∀ l < 16, hexDigit k = hexDigit l → k = l := by decide
  exact hall k hk l hl h

theorem hexStr_checksum (below : ℕ → UInt8) {body : List UInt8} (h : ∀ c ∈ body, c.toNat < 128) :
    hexStr below (charVal (checksum body) / 16) = hexDigit ((checksum body).toNat / 16) := by
  have hlt := checksum_lt h
  rw [charVal,if_pos hlt,hexStr,if_pos (by omega)]
  rfl

theorem gpsCheckParity_digits {below : ℕ → UInt8} {first : UInt8} {body sent rest : List UInt8}
    (hfirst : CommandChar first) (hne : body ≠ []) (hbody : ∀ c ∈ body, CommandChar c)
    (hsent : ∀ c ∈ sent, c.toNat < 128) :
    gpsCheckParity below (first::(body++42::(checksumDigits below sent++rest))) = true ↔
      checksum body = checksum sent := by
  have hstar : (42 : UInt8) ∉ body := fun h => (hbody 42 h).2.1 rfl
  have hzero : (0 : UInt8) ∉ body := fun h => (hbody 0 h).2.2 rfl
  have hlt := checksum_lt fun c hc => (hbody c hc).1
  have hlt' := checksum_lt hsent
  have hhigh : (checksumDigits below sent++rest).getD 0 0 =
      hexDigit ((checksum sent).toNat / 16) := hexStr_checksum below hsent
  have hlow : (checksumDigits below sent++rest).getD 1 0 =
      hexDigit ((checksum sent).toNat % 16) := rfl
  rw [gpsCheckParity_eq_true hfirst.2.1 hfirst.2.2 hne hstar,hhigh,hlow,highMatches,
    hexStr_checksum below fun c hc => (hbody c hc).1,hexMatches_hexDigit (by omega)]
  constructor
  · rintro ⟨-,hdiv,hmod⟩
    have hdiv' := hexDigit_injective (by omega) (by omega) hdiv
    have hmod' := hexDigit_injective (Nat.mod_lt _ (by decide)) (Nat.mod_lt _ (by decide)) hmod
    rw [← UInt8.toNat_inj]
    omega
  · intro heq
    rw [heq]
    exact ⟨hzero,rfl,rfl⟩

/-- The check of a sent text, as it is and with one character replaced. -/
structure TextChecked (below : ℕ → UInt8) (str rest : List UInt8) : Prop where
  accepted : gpsCheckParity below (gpsCmdSend below str .nmea++0::rest) = true
  replaced : ∀ i, 1 ≤ i → ∀ h : i < str.length, ∀ c, CommandChar c → c ≠ str[i] →
    gpsCheckParity below ((gpsCmdSend below str .nmea).set i c++0::rest) = false

theorem text_checked (below : ℕ → UInt8) {str : List UInt8} (htwo : 2 ≤ str.length)
    (hstr : ∀ c ∈ str, CommandChar c) (rest : List UInt8) : TextChecked below str rest := by
  obtain ⟨first,body,rfl⟩ := List.exists_cons_of_length_pos (by omega : 0 < str.length)
  have hne : body ≠ [] := by
    rintro rfl
    simp at htwo
  have hfirst := hstr first (by simp)
  have hbody : ∀ c ∈ body, CommandChar c := fun c hc => hstr c (by simp [hc])
  have hseven : ∀ c ∈ body, c.toNat < 128 := fun c hc => (hbody c hc).1
  constructor
  · rw [gpsCmdSend_nmea below first hne,List.cons_append,List.append_assoc,List.cons_append]
    exact (gpsCheckParity_digits hfirst hne hbody hseven).2 rfl
  · intro i hi h c hc hci
    obtain ⟨k,rfl⟩ := Nat.exists_eq_add_of_le' hi
    have hk : k < body.length := by simpa using h
    have hset : (gpsCmdSend below (first::body) .nmea).set (k+1) c++0::rest =
        first::(body.set k c++42::(checksumDigits below body++0::rest)) := by
      rw [gpsCmdSend_nmea below first hne,List.set_cons_succ,List.set_append_left _ _ hk,
        List.cons_append,List.append_assoc,List.cons_append]
    have hset_ne : body.set k c ≠ [] := by simpa using hne
    have hset_body : ∀ x ∈ body.set k c, CommandChar x := by
      intro x hx
      rcases List.mem_or_eq_of_mem_set hx with hx | rfl
      · exact hbody x hx
      · exact hc
    rw [hset,← Bool.not_eq_true,gpsCheckParity_digits hfirst hset_ne hset_body hseven]
    exact foldl_set_ne xor_left_injective xor_right_injective hk hci 0

/-! ### Binary commands -/

def declaredLength (data : List UInt8) : ℕ := (data.getD 2 0).toNat+256*(data.getD 3 0).toNat

def binarySum (data : List UInt8) (len : ℕ) : UInt8 :=
  ((data.take len).drop 3).foldl (· ^^^ ·) (data.getD 2 0)

theorem foldl_range_getD {data : List UInt8} {len : ℕ} (h : len ≤ data.length) (a : UInt8) :
    ((List.range len).drop 3).foldl (fun r i => r ^^^ data.getD i 0) a =
      ((data.take len).drop 3).foldl (· ^^^ ·) a := by
  have hmap : ((List.range len).drop 3).map (fun i => data.getD i 0) = (data.take len).drop 3 := by
    rw [List.map_drop]
    congr 1
    refine List.ext_getElem (by simp [h]) fun i hi hi' => ?_
    rw [List.length_map,List.length_range] at hi
    rw [List.getElem_map,List.getElem_range,List.getElem_take,List.getD_eq_getElem]
  rw [← hmap,List.foldl_map]

theorem toU16_declared {data : List UInt8} (h : 7 ≤ declaredLength data) :
    toU16 ((data.getD 2 0).toNat+256*(data.getD 3 0).toNat-3) = declaredLength data-3 := by
  have hlow := (data.getD 2 0).toNat_lt
  have hhigh := (data.getD 3 0).toNat_lt
  unfold toU16
  unfold declaredLength at h ⊢
  omega

theorem gpsCheckParityBinary_iff {data : List UInt8} (h : 7 ≤ declaredLength data)
    (hlen : declaredLength data ≤ data.length) :
    gpsCheckParityBinary data = true ↔
      binarySum data (declaredLength data-3) = data.getD (declaredLength data-3) 0 := by
  simp only [gpsCheckParityBinary,toU16_declared h,decide_eq_true_eq]
  rw [foldl_range_getD (by omega)]
  rfl

def binaryFrame (below : ℕ → UInt8) (str : List UInt8) : List UInt8 :=
  (gpsCmdSend below str .binary).take (declaredLength str)

theorem binaryFrame_eq (below : ℕ → UInt8) {str : List UInt8} (h : 7 ≤ declaredLength str)
    (hlen : declaredLength str ≤ str.length) :
    binaryFrame below str = str.take (declaredLength str-3)++
      [binarySum str (declaredLength str-3),13,10] := by
  have hsent : gpsCmdSend below str .binary =
      ((str.set (declaredLength str-3) (binarySum str (declaredLength str-3))).set
        (declaredLength str-3+1) 13).set (declaredLength str-3+2) 10 := by
    simp only [gpsCmdSend,toU16_declared h]
    rw [foldl_range_getD (by omega)]
    rfl
  rw [binaryFrame,hsent]
  generalize binarySum str (declaredLength str-3) = sum
  obtain ⟨len,hsum⟩ := Nat.exists_eq_add_of_le' (by omega : 3 ≤ declaredLength str)
  rw [hsum] at hlen ⊢
  rw [Nat.add_sub_cancel]
  refine List.ext_getElem (by simp; omega) fun i hi hi' => ?_
  rw [List.length_take] at hi
  have hlength : (str.take len).length = len := by
    rw [List.length_take]
    omega
  have hcases : i < len ∨ i = len ∨ i = len+1 ∨ i = len+2 := by omega
  rw [List.getElem_take]
  rcases hcases with hlt | rfl | rfl | rfl
  · rw [List.getElem_set_ne (by omega),List.getElem_set_ne (by omega),List.getElem_set_ne (by omega),
      List.getElem_append_left (by rw [List.length_take]; omega),List.getElem_take]
  all_goals
    rw [List.getElem_append_right (by omega)]
    simp [hlength]

/-- The check of a sent message, as it is and with one byte changed between the length field and
the checksum. -/
structure BinaryChecked (below : ℕ → UInt8) (str : List UInt8) : Prop where
  accepted : gpsCheckParityBinary (binaryFrame below str) = true
  changed : ∀ i, 4 ≤ i → i < declaredLength str-3 → ∀ b, b ≠ (binaryFrame below str).getD i 0 →
    gpsCheckParityBinary ((binaryFrame below str).set i b) = false

theorem binary_checked (below : ℕ → UInt8) {str : List UInt8} (h : 7 ≤ declaredLength str)
    (hlen : declaredLength str ≤ str.length) : BinaryChecked below str := by
  have hbody : (str.take (declaredLength str-3)).length = declaredLength str-3 := by
    rw [List.length_take]
    omega
  have hhead : ∀ (body : List UInt8) (sum : UInt8), body.length = declaredLength str-3 →
      body.getD 2 0 = str.getD 2 0 → body.getD 3 0 = str.getD 3 0 →
      (gpsCheckParityBinary (body++[sum,13,10]) = true ↔
        (body.drop 3).foldl (· ^^^ ·) (str.getD 2 0) = sum) := by
    intro body sum hlength h2 h3
    have hget : ∀ k < declaredLength str-3, (body++[sum,13,10]).getD k 0 = body.getD k 0 :=
      fun k hk => List.getD_append _ _ _ _ (by omega)
    have hdeclared : declaredLength (body++[sum,13,10]) = declaredLength str := by
      rw [declaredLength,hget 2 (by omega),hget 3 (by omega),h2,h3]
      rfl
    have hsum : (body++[sum,13,10]).getD (declaredLength str-3) 0 = sum := by
      rw [List.getD_append_right _ _ _ _ (by omega),hlength,Nat.sub_self]
      rfl
    rw [gpsCheckParityBinary_iff (by omega) (by
      rw [List.length_append,hdeclared,hlength]
      simp only [List.length_cons,List.length_nil]
      omega),hdeclared,binarySum,hsum,List.take_left' hlength,hget 2 (by omega),h2]
  have hget : ∀ k < declaredLength str-3,
      (str.take (declaredLength str-3)).getD k 0 = str.getD k 0 := by
    intro k hk
    rw [List.getD_eq_getElem _ _ (by omega),List.getD_eq_getElem _ _ (by omega),List.getElem_take]
  have hframe := binaryFrame_eq below h hlen
  constructor
  · rw [hframe,hhead _ _ hbody (hget 2 (by omega)) (hget 3 (by omega))]
    rfl
  · intro i hi hlt b hb
    rw [hframe,List.getD_append _ _ _ _ (by omega)] at hb
    have hkeep : ∀ k < 4, ((str.take (declaredLength str-3)).set i b).getD k 0 =
        (str.take (declaredLength str-3)).getD k 0 := by
      intro k hk
      rw [List.getD_eq_getElem?_getD,List.getD_eq_getElem?_getD,List.getElem?_set_ne (by omega)]
    rw [hframe,List.set_append_left _ _ (by omega),← Bool.not_eq_true,
      hhead _ _ (by rw [List.length_set]; exact hbody) ?_ ?_]
    · obtain ⟨k,rfl⟩ := Nat.exists_eq_add_of_le' (by omega : 3 ≤ i)
      rw [List.drop_set,if_neg (by omega),Nat.add_sub_cancel]
      rw [List.getD_eq_getElem _ _ (by omega)] at hb
      have hk : k < ((str.take (declaredLength str-3)).drop 3).length := by
        rw [List.length_drop]
        omega
      have hne := foldl_set_ne xor_left_injective xor_right_injective hk (y := b)
        (by rw [List.getElem_drop]; simpa only [Nat.add_comm 3] using hb) (str.getD 2 0)
      exact hne
    · rw [hkeep 2 (by omega),hget 2 (by omega)]
    · rw [hkeep 3 (by omega),hget 3 (by omega)]

/-- Both formats: what is sent passes the check, and no change of one byte does. -/
theorem command_checksums (below : ℕ → UInt8) :
    (∀ str rest, 2 ≤ str.length → (∀ c ∈ str, CommandChar c) → TextChecked below str rest) ∧
      ∀ str, 7 ≤ declaredLength str → declaredLength str ≤ str.length → BinaryChecked below str :=
  ⟨fun _ rest htwo hstr => text_checked below htwo hstr rest,
    fun _ h hlen => binary_checked below h hlen⟩

/-- A text command, and a binary one of 14 bytes. -/
theorem command_checksums_commands :
    TextChecked (fun _ => 0) (lit "$PGKC030,1,1") [] ∧
      BinaryChecked (fun _ => 0)
        [0xaa,0xf0,0x0e,0,0x95,0,0,0,0xc2,1,0,0x57,0x0d,0x0a] := by
  obtain ⟨htext,hbinary⟩ := command_checksums fun _ => 0
  have hchars : ∀ c ∈ lit "$PGKC030,1,1", CommandChar c := by
    unfold CommandChar
    decide +kernel
  exact ⟨htext _ [] (by decide) hchars,hbinary _ (by decide) (by decide)⟩

example : gpsCmdSend (fun _ => 0) (lit "$PGKC030,1,1") .nmea = lit "$PGKC030,1,1*2C\r\n" := by decide

end CommandChecksum
end A9GTracker
