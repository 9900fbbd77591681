import Mathlib.Data.List.Basic
import A9GTracker.CommandChecksum
import A9GTracker.SentenceFields

/-! What `minmea_check` accepts, and which damage to a sentence it finds. -/
namespace A9GTracker
namespace SentenceCheck

open CString Minmea AckCheck SingleError CommandChecksum

/-! ### Accepted sentences -/

def Printable (c : UInt8) : Prop := isprint c = true ∧ c ≠ 42

def LineEnd (eol : List UInt8) : Prop := eol = [] ∨ eol = lit "\n" ∨ eol = lit "\r\n"

/-- The two digits behind the star give the checksum, in capital or small letters. -/
structure SumDigits (body : List UInt8) (upper lower : UInt8) : Prop where
  upper_hex : hex2int upper ≠ -1
  lower_hex : hex2int lower ≠ -1
  sum : ((checksum body).toNat : ℤ) = hex2int upper*16+hex2int lower

/-- A dollar sign, printable characters, a checksum or none, and a line end. -/
inductive Framed (strict : Bool) : List UInt8 → Prop
  | checked {body eol : List UInt8} {upper lower : UInt8} (hbody : ∀ c ∈ body, Printable c)
      (hsum : SumDigits body upper lower) (heol : LineEnd eol) :
      Framed strict (36::(body++42::upper::lower::eol))
  | unchecked {body eol : List UInt8} (hstrict : strict = false)
      (hbody : ∀ c ∈ body, Printable c) (heol : LineEnd eol) : Framed strict (36::(body++eol))

theorem lineEnd_iff (eol : List UInt8) :
    (decide (eol = []) || decide (eol = lit "\n") || decide (eol = lit "\r\n")) = true ↔
      LineEnd eol := by
  simp [LineEnd,or_assoc]

theorem inChecksum_iff {c : UInt8} : (decide (c ≠ 42) && isprint c) = true ↔ Printable c := by
  simp [Printable,and_comm]

theorem body_split {body rest : List UInt8} (hbody : ∀ c ∈ body, Printable c)
    (hrest : ∀ c ∈ rest.head?, ¬ Printable c) :
    (body++rest).takeWhile (fun c => decide (c ≠ 42) && isprint c) = body ∧
      (body++rest).dropWhile (fun c => decide (c ≠ 42) && isprint c) = rest := by
  have hpos : ∀ c ∈ body, (decide (c ≠ 42) && isprint c) = true :=
    fun c hc => inChecksum_iff.2 (hbody c hc)
  rw [List.takeWhile_append_of_pos hpos,List.dropWhile_append_of_pos hpos]
  cases rest with
  | nil => simp
  | cons c rest =>
    have hc : ¬ (decide (c ≠ 42) && isprint c) = true :=
      fun h => hrest c rfl (inChecksum_iff.1 h)
    simp only [List.takeWhile_cons,List.dropWhile_cons,hc,Bool.false_eq_true,if_false,
      List.append_nil,and_self]

theorem star_stops (t : List UInt8) : ∀ c ∈ (42::t).head?, ¬ Printable c := by
  intro c hc
  obtain rfl : 42 = c := by simpa using hc
  exact fun h => h.2 rfl

theorem checked_iff {body tail : List UInt8} (hbody : ∀ c ∈ body, Printable c)
    (upper lower : UInt8) (strict : Bool) :
    minmeaCheck (36::(body++42::upper::lower::tail)) strict = true ↔
      (36::(body++42::upper::lower::tail)).length ≤ 83 ∧ SumDigits body upper lower ∧
        LineEnd tail := by
  obtain ⟨htake,hdrop⟩ := body_split hbody (star_stops (upper::lower::tail))
  rw [minmeaCheck]
  by_cases hlength : (36::(body++42::upper::lower::tail)).length ≤ 83
  · rw [if_neg (by omega),and_iff_right hlength]
    simp only [ne_eq,not_true_eq_false,if_false,hdrop,htake]
    by_cases hdigits : hex2int upper = -1 ∨ hex2int lower = -1
    · simp only [hdigits,if_true,Bool.false_eq_true,false_iff]
      rintro ⟨hsum,-⟩
      exact hdigits.elim hsum.upper_hex hsum.lower_hex
    · rw [if_neg hdigits]
      push Not at hdigits
      by_cases hsum : ((checksum body).toNat : ℤ) = hex2int upper*16+hex2int lower
      · have hall : SumDigits body upper lower := ⟨hdigits.1,hdigits.2,hsum⟩
        rw [checksum] at hsum
        simp [hsum,hall,← lineEnd_iff]
      · have hnot : ¬ SumDigits body upper lower := fun h => hsum h.sum
        rw [checksum] at hsum
        simp [hsum,hnot]
  · rw [if_pos (by omega)]
    simp only [Bool.false_eq_true,false_iff]
    exact fun h => hlength h.1

theorem starred_short {body t : List UInt8} (hbody : ∀ c ∈ body, Printable c) (ht : t.length < 2)
    (strict : Bool) : minmeaCheck (36::(body++42::t)) strict = false := by
  obtain ⟨-,hdrop⟩ := body_split hbody (star_stops t)
  rw [minmeaCheck]
  by_cases hlength : (36::(body++42::t)).length > 83
  · rw [if_pos hlength]
  · rw [if_neg hlength]
    simp only [ne_eq,not_true_eq_false,if_false,hdrop]
    match t with
    | [] => rfl
    | [_] => rfl
    | _::_::_ =>
      simp only [List.length_cons] at ht
      omega

theorem unchecked_iff {body tail : List UInt8} (hbody : ∀ c ∈ body, Printable c)
    (htail : ∀ c ∈ tail.head?, ¬ Printable c) (hstar : tail.head? ≠ some 42) (strict : Bool) :
    minmeaCheck (36::(body++tail)) strict = true ↔
      (36::(body++tail)).length ≤ 83 ∧ strict = false ∧ LineEnd tail := by
  obtain ⟨htake,hdrop⟩ := body_split hbody htail
  rw [minmeaCheck]
  by_cases hlength : (36::(body++tail)).length ≤ 83
  · rw [if_neg (by omega),and_iff_right hlength]
    simp only [ne_eq,not_true_eq_false,if_false,hdrop]
    split
    · exact absurd rfl hstar
    · exact absurd rfl hstar
    · cases strict
      · simp [← lineEnd_iff]
      · simp
  · rw [if_pos (by omega)]
    simp only [Bool.false_eq_true,false_iff]
    exact fun h => hlength h.1

theorem lineEnd_head {eol : List UInt8} (h : LineEnd eol) :
    (∀ c ∈ eol.head?, ¬ Printable c) ∧ eol.head? ≠ some 42 := by
  rcases h with rfl | rfl | rfl
  · simp
  · refine ⟨fun c hc => ?_,by decide⟩
    obtain rfl : 10 = c := by simpa [lit] using hc
    exact fun h => absurd h.1 (by decide)
  · refine ⟨fun c hc => ?_,by decide⟩
    obtain rfl : 13 = c := by simpa [lit] using hc
    exact fun h => absurd h.1 (by decide)

/-- Exactly the framed sentences of at most 83 characters are accepted. -/
theorem minmeaCheck_iff (sentence : List UInt8) (strict : Bool) :
    minmeaCheck sentence strict = true ↔ sentence.length ≤ 83 ∧ Framed strict sentence := by
  constructor
  · intro h
    cases sentence with
    | nil => simp [minmeaCheck] at h
    | cons dollar rest =>
      obtain rfl : dollar = 36 := by
        by_contra hno
        simp [minmeaCheck,hno] at h
      let inChecksum := fun c : UInt8 => decide (c ≠ 42) && isprint c
      have hbody : ∀ c ∈ rest.takeWhile inChecksum, Printable c :=
        fun c hc => inChecksum_iff.1 (List.mem_takeWhile_imp (p := inChecksum) hc)
      have hsplit : rest.takeWhile inChecksum++rest.dropWhile inChecksum = rest :=
        List.takeWhile_append_dropWhile
      have htail : ∀ c ∈ (rest.dropWhile inChecksum).head?, ¬ Printable c := by
        intro c hc hp
        have hnot := List.head?_dropWhile_not inChecksum rest
        rw [Option.mem_def.1 hc] at hnot
        exact absurd (inChecksum_iff.2 hp) (by simpa [inChecksum] using hnot)
      generalize rest.takeWhile inChecksum = body at hbody hsplit
      generalize rest.dropWhile inChecksum = tail at hsplit htail
      subst hsplit
      by_cases hstar : tail.head? = some 42
      · obtain ⟨t,rfl⟩ := List.head?_eq_some_iff.1 hstar
        match t with
        | [] => exact absurd h (by rw [starred_short hbody (by decide)]; decide)
        | [_] => exact absurd h (by rw [starred_short hbody (by simp)]; decide)
        | upper::lower::eol =>
          obtain ⟨hlength,hsum,heol⟩ := (checked_iff hbody upper lower strict).1 h
          exact ⟨hlength,.checked hbody hsum heol⟩
      · obtain ⟨hlength,hstrict,heol⟩ := (unchecked_iff hbody htail hstar strict).1 h
        exact ⟨hlength,.unchecked hstrict hbody heol⟩
  · rintro ⟨hlength,hframed⟩
    cases hframed with
    | checked hbody hsum heol => exact (checked_iff hbody _ _ strict).2 ⟨hlength,hsum,heol⟩
    | unchecked hstrict hbody heol =>
      obtain ⟨hhead,hstar⟩ := lineEnd_head heol
      exact (unchecked_iff hbody hhead hstar strict).2 ⟨hlength,hstrict,heol⟩

/-! ### Damage -/

/-- One character of a sentence with a checksum is replaced: in its body, or a digit of the
checksum by one of another value. -/
inductive Damaged : List UInt8 → List UInt8 → Prop
  | body {body eol : List UInt8} {upper lower : UInt8} (hbody : ∀ c ∈ body, Printable c) {i : ℕ}
      (hi : i < body.length) {c : UInt8} (hzero : c ≠ 0) (hstar : c ≠ 42) (hne : c ≠ body[i]) :
      Damaged (36::(body++42::upper::lower::eol)) (36::(body.set i c++42::upper::lower::eol))
  | upper {body eol : List UInt8} {upper lower c : UInt8} (hbody : ∀ c ∈ body, Printable c)
      (hne : hex2int c ≠ hex2int upper) :
      Damaged (36::(body++42::upper::lower::eol)) (36::(body++42::c::lower::eol))
  | lower {body eol : List UInt8} {upper lower c : UInt8} (hbody : ∀ c ∈ body, Printable c)
      (hne : hex2int c ≠ hex2int lower) :
      Damaged (36::(body++42::upper::lower::eol)) (36::(body++42::upper::c::eol))

theorem hex2int_range (c : UInt8) : hex2int c = -1 ∨ 0 ≤ hex2int c ∧ hex2int c ≤ 15 := by
  simp only [hex2int,UInt8.le_iff_toNat_le]
  split_ifs with hdigit hcapital hsmall
  · have h48 : 48 ≤ c.toNat := hdigit.1
    have h57 : c.toNat ≤ 57 := hdigit.2
    omega
  · have h65 : 65 ≤ c.toNat := hcapital.1
    have h70 : c.toNat ≤ 70 := hcapital.2
    omega
  · have h97 : 97 ≤ c.toNat := hsmall.1
    have h102 : c.toNat ≤ 102 := hsmall.2
    omega
  · exact Or.inl rfl

theorem SumDigits.unique {body : List UInt8} {upper lower upper' lower' : UInt8}
    (h : SumDigits body upper lower) (h' : SumDigits body upper' lower') :
    hex2int upper' = hex2int upper ∧ hex2int lower' = hex2int lower := by
  have hu := (hex2int_range upper).resolve_left h.upper_hex
  have hl := (hex2int_range lower).resolve_left h.lower_hex
  have hu' := (hex2int_range upper').resolve_left h'.upper_hex
  have hl' := (hex2int_range lower').resolve_left h'.lower_hex
  have hsum := h.sum
  have hsum' := h'.sum
  omega

/-- A body with another character has another checksum, or it ends in front of the character. -/
theorem body_damage {body eol : List UInt8} {upper lower : UInt8} (hbody : ∀ c ∈ body, Printable c)
    (hsum : SumDigits body upper lower) {i : ℕ} (hi : i < body.length) {c : UInt8} (hstar : c ≠ 42)
    (hne : c ≠ body[i]) (strict : Bool) :
    minmeaCheck (36::(body.set i c++42::upper::lower::eol)) strict = false := by
  rw [← Bool.not_eq_true]
  intro haccept
  by_cases hprint : isprint c = true
  · have hset : ∀ x ∈ body.set i c, Printable x := by
      intro x hx
      rcases List.mem_or_eq_of_mem_set hx with hx | rfl
      · exact hbody x hx
      · exact ⟨hprint,hstar⟩
    obtain ⟨-,hsum',-⟩ := (checked_iff hset upper lower strict).1 haccept
    have hchecksum : checksum (body.set i c) = checksum body := by
      have heq := hsum.sum
      have heq' := hsum'.sum
      rw [← UInt8.toNat_inj]
      omega
    exact foldl_set_ne xor_left_injective xor_right_injective hi hne 0 hchecksum
  · have hparts : body.set i c++42::upper::lower::eol =
        body.take i++(c::(body.drop (i+1)++42::upper::lower::eol)) := by
      rw [List.set_eq_take_append_cons_drop,if_pos hi,List.append_assoc,List.cons_append]
    rw [hparts] at haccept
    obtain ⟨-,-,heol⟩ := (unchecked_iff (fun x hx => hbody x (List.mem_of_mem_take hx)) (by
      intro x hx
      obtain rfl : c = x := by simpa using hx
      exact fun hp => hprint hp.1) (by simpa using hstar) strict).1 haccept
    -- a line end holds no star
    have hmem : (42 : UInt8) ∈ c::(body.drop (i+1)++42::upper::lower::eol) := by simp
    rcases heol with hnil | hlf | hcrlf
    · simp at hnil
    · rw [hlf] at hmem
      exact absurd hmem (by decide)
    · rw [hcrlf] at hmem
      exact absurd hmem (by decide)

theorem damage_rejected {sentence damaged : List UInt8} (haccept : minmeaCheck sentence true = true)
    (h : Damaged sentence damaged) (strict : Bool) : minmeaCheck damaged strict = false := by
  cases h with
  | body hbody hi _ hstar hne =>
    exact body_damage hbody ((checked_iff hbody _ _ true).1 haccept).2.1 hi hstar hne strict
  | upper hbody hne =>
    have hsum := ((checked_iff hbody _ _ true).1 haccept).2.1
    rw [← Bool.not_eq_true,checked_iff hbody]
    exact fun hno => hne (hsum.unique hno.2.1).1
  | lower hbody hne =>
    have hsum := ((checked_iff hbody _ _ true).1 haccept).2.1
    rw [← Bool.not_eq_true,checked_iff hbody]
    exact fun hno => hne (hsum.unique hno.2.1).2

/-- The check accepts exactly the framed sentences of at most 83 characters, and no sentence with
a checksum passes with one character replaced. -/
theorem minmeaCheck_exact :
    (∀ sentence strict, minmeaCheck sentence strict = true ↔
      sentence.length ≤ 83 ∧ Framed strict sentence) ∧
    ∀ sentence damaged strict, minmeaCheck sentence true = true → Damaged sentence damaged →
      minmeaCheck damaged strict = false :=
  ⟨minmeaCheck_iff,fun _ _ strict haccept h => damage_rejected haccept h strict⟩

/-- A sentence with its checksum, and with another letter. -/
theorem minmeaCheck_exact_letter :
    minmeaCheck (lit "$GP*17\r\n") true = true ∧ minmeaCheck (lit "$GQ*17\r\n") false = false := by
  have haccept : minmeaCheck (lit "$GP*17\r\n") true = true := by decide +kernel
  have hprintable : ∀ c ∈ lit "GP", Printable c := by
    unfold Printable
    decide +kernel
  have hdamaged : Damaged (36::(lit "GP"++42::49::55::lit "\r\n"))
      (36::((lit "GP").set 1 81++42::49::55::lit "\r\n")) :=
    .body hprintable (by decide) (by decide) (by decide) (by decide)
  exact ⟨haccept,minmeaCheck_exact.2 _ _ false haccept hdamaged⟩

end SentenceCheck
end A9GTracker
