import Mathlib.Data.List.Basic
import Mathlib.Tactic.Common
import A9GTracker.Tracker
import A9GTracker.Utils

/-! The SMS command of `app/src/sms_service.c`. -/
namespace A9GTracker
namespace Sms

open CString Utils Tracker

/-- `SMS_Encode_Type_t`; an event can carry any other number as well. -/
inductive SmsEncodeType
  | ascii | unicode | other
  deriving DecidableEq

structure SmsMessage where
  phoneNumber : List UInt8
  message : List UInt8
  deriving DecidableEq

/-- The decoder of the two-byte encoding with `room` bytes left in `cmd`. A message is far
shorter than the range of its 16-bit index. -/
def unicodeCmd : List UInt8 → ℕ → List UInt8
  | high::low::contentStr, room+1 =>
    if high = 0 then low::unicodeCmd contentStr room else unicodeCmd contentStr (room+1)
  | _, _ => []

def cmdText : SmsEncodeType → List UInt8 → Option (List UInt8)
  | .ascii, contentStr => some (cstring (contentStr.take 175))
  | .unicode, contentStr => some (cstring (unicodeCmd contentStr 175))
  | .other, _ => none

/-- What `trim_whitespace` leaves in the buffer: the end is cut there, but the leading blanks
are only skipped by the pointer it returns. -/
def trimInPlace (str : List UInt8) : List UInt8 := str.takeWhile isspace++trimWhitespace str

/-- The loop over the header, with the number collected so far; `none` when an unexpected
character makes the callback return. -/
def phoneNumberLoop : List UInt8 → List UInt8 → Bool → Option (List UInt8)
  | [], phoneNumber, _ => some phoneNumber
  | c::headerStr, phoneNumber, insideQuotes =>
    if ¬ phoneNumber.length < 21 then some phoneNumber
    else if ¬ insideQuotes ∧ c = 34 then phoneNumberLoop headerStr phoneNumber true
    else if insideQuotes ∧ c = 34 then some phoneNumber
    else if insideQuotes then
      if isdigit c ∨ (c = 43 ∧ phoneNumber = []) then
        phoneNumberLoop headerStr (phoneNumber++[c]) true
      else none
    else phoneNumberLoop headerStr phoneNumber false

/-- `GetGoogleMapsLink`; `print6f` is the `%.6f` of `snprintf`. -/
def getGoogleMapsLink (print6f : FloatVal → List UInt8) (data : GpsTrackerData) :
    Option (List UInt8) :=
  let latitude := gpsGetLastLatitude data
  let longitude := gpsGetLastLongitude data
  if latitude = .num 0 ∧ longitude = .num 0 then none
  else
    some ((lit "https://maps.google.com/?q="++print6f latitude++lit ","++
      print6f longitude).take 175)

def sendLocationSms (print6f : FloatVal → List UInt8) (data : GpsTrackerData)
    (phoneNumber : List UInt8) : SmsMessage :=
  match getGoogleMapsLink print6f data with
  | some msg => ⟨phoneNumber,msg⟩
  | none => ⟨phoneNumber,lit "Location not available"⟩

def smsReceivedCallback (print6f : FloatVal → List UInt8) (data : GpsTrackerData)
    (encodeType : SmsEncodeType) (headerStr contentStr : List UInt8) : List SmsMessage :=
  match cmdText encodeType contentStr with
  | none => []
  | some cmd =>
    match phoneNumberLoop (cstring headerStr) [] false with
    | none => []
    | some phoneNumber =>
      if phoneNumber = [] then []
      else if strCaseCmp (trimInPlace cmd) (lit "get location") = 0 then
        [sendLocationSms print6f data phoneNumber]
      else []

@[simp] theorem sendLocationSms_phoneNumber (print6f : FloatVal → List UInt8)
    (data : GpsTrackerData) (phoneNumber : List UInt8) :
    (sendLocationSms print6f data phoneNumber).phoneNumber = phoneNumber := by
  unfold sendLocationSms
  cases getGoogleMapsLink print6f data <;> rfl

/-! ### The number in the header -/

theorem phoneNumberLoop_outside {pre : List UInt8} (h : 34 ∉ pre) (headerStr : List UInt8) :
    phoneNumberLoop (pre++headerStr) [] false = phoneNumberLoop headerStr [] false := by
  induction pre with
  | nil => rfl
  | cons c pre ih =>
    simp only [List.mem_cons,not_or] at h
    rw [List.cons_append,phoneNumberLoop,if_neg (by simp),if_neg (by simp [Ne.symm h.1]),
      if_neg (by simp),if_neg (by simp),ih h.2]

theorem phoneNumberLoop_quote (headerStr : List UInt8) :
    phoneNumberLoop (34::headerStr) [] false = phoneNumberLoop headerStr [] true := by
  rw [phoneNumberLoop,if_neg (by simp),if_pos (by simp)]

theorem phoneNumberLoop_digits {digits : List UInt8} (h : ∀ c ∈ digits, isdigit c = true)
    {phoneNumber : List UInt8} (hroom : phoneNumber.length ≤ 21) (headerStr : List UInt8) :
    phoneNumberLoop (digits++headerStr) phoneNumber true =
      if phoneNumber.length+digits.length ≤ 21 then
        phoneNumberLoop headerStr (phoneNumber++digits) true
      else some ((phoneNumber++digits).take 21) := by
  induction digits generalizing phoneNumber with
  | nil => simp [hroom]
  | cons c digits ih =>
    have hdigit := h c (by simp)
    have hquote : c ≠ 34 := by
      rintro rfl
      exact absurd hdigit (by decide)
    rw [List.cons_append,phoneNumberLoop]
    by_cases hfull : phoneNumber.length < 21
    · rw [if_neg (by simp [hfull]),if_neg (by simp),if_neg (by simp [hquote]),if_pos rfl,
        if_pos (.inl hdigit),ih (fun d hd => h d (by simp [hd])) (by simp; omega)]
      simp only [List.length_append,List.length_cons,List.length_nil,List.append_assoc,
        List.cons_append,List.nil_append]
      congr 2
      omega
    · have hlen : phoneNumber.length = 21 := by omega
      rw [if_pos hfull,if_neg (by simp [hlen]),List.take_left' hlen]

/-- The longest beginning that can be a number. -/
def numberRun : List UInt8 → List UInt8
  | [] => []
  | c::tail => if isdigit c ∨ c = 43 then c::tail.takeWhile isdigit else []

theorem numberRun_begins (tail : List UInt8) : numberRun tail <+: tail := by
  cases tail with
  | nil => exact List.prefix_refl _
  | cons c tail =>
    rw [numberRun]
    split_ifs
    · exact List.cons_prefix_cons.mpr ⟨rfl,List.takeWhile_prefix _⟩
    · exact List.nil_prefix

/-- What becomes of a number that is not longer than the buffer. -/
def endOfRun (run : List UInt8) : List UInt8 → Option (List UInt8)
  | [] => some run
  | c::_ => if run.length = 21 ∨ c = 34 then some run else none

theorem phoneNumberLoop_stop {phoneNumber : List UInt8} (hne : phoneNumber ≠ [])
    (hroom : phoneNumber.length ≤ 21) {after : List UInt8}
    (h : ∀ c ∈ after.head?, isdigit c = false) :
    phoneNumberLoop after phoneNumber true = endOfRun phoneNumber after := by
  cases after with
  | nil => rfl
  | cons c after =>
    have hdigit := h c rfl
    rw [phoneNumberLoop,endOfRun]
    by_cases hfull : phoneNumber.length = 21
    · rw [if_pos (by simp [hfull]),if_pos (.inl hfull)]
    · rw [if_neg (by omega),if_neg (by simp)]
      by_cases hquote : c = 34
      · rw [if_pos (by simp [hquote]),if_pos (.inr hquote)]
      · rw [if_neg (by simp [hquote]),if_pos rfl,if_neg (by simp [hdigit,hne]),
          if_neg (by simp [hfull,hquote])]

theorem phoneNumberLoop_run {tail after : List UInt8} (h : tail = numberRun tail++after) :
    phoneNumberLoop tail [] true =
      if 21 < (numberRun tail).length then some ((numberRun tail).take 21)
      else endOfRun (numberRun tail) after := by
  cases tail with
  | nil =>
    obtain ⟨-,rfl⟩ := List.append_eq_nil_iff.mp h.symm
    rfl
  | cons c tail =>
    by_cases hc : isdigit c ∨ c = 43
    · have hrun : numberRun (c::tail) = c::tail.takeWhile isdigit := if_pos hc
      have hafter : after = tail.dropWhile isdigit := by
        rw [hrun,List.cons_append,List.cons.injEq] at h
        have hsplit := List.takeWhile_append_dropWhile (p := isdigit) (l := tail)
        exact List.append_cancel_left (h.2.symm.trans hsplit.symm)
      have hquote : c ≠ 34 := by
        rintro rfl
        exact absurd hc (by decide)
      have hfirst : phoneNumberLoop (c::tail) [] true = phoneNumberLoop tail [c] true := by
        rw [phoneNumberLoop,if_neg (by simp),if_neg (by simp),if_neg (by simp [hquote]),if_pos rfl,
          if_pos (by simpa using hc)]
        rfl
      have hdigits : ∀ d ∈ tail.takeWhile isdigit, isdigit d = true := fun d hd =>
        List.mem_takeWhile_imp hd
      have hsplit : tail = tail.takeWhile isdigit++after := by
        rw [hafter,List.takeWhile_append_dropWhile]
      rw [hfirst,hrun]
      conv_lhs => rw [hsplit,phoneNumberLoop_digits hdigits (by simp)]
      simp only [List.length_cons,List.length_nil,List.cons_append,List.nil_append]
      by_cases hfit : 0+1+(tail.takeWhile isdigit).length ≤ 21
      · rw [if_pos hfit,if_neg (by omega)]
        refine phoneNumberLoop_stop (by simp) (by rw [List.length_cons]; omega) ?_
        intro d hd
        rw [hafter] at hd
        have hnot := List.head?_dropWhile_not isdigit tail
        rw [Option.mem_def.mp hd] at hnot
        exact hnot
      · rw [if_neg hfit,if_pos (by omega)]
    · have hrun : numberRun (c::tail) = [] := if_neg hc
      rw [hrun] at h ⊢
      obtain rfl : c::tail = after := by simpa using h
      have hnone : ¬ (isdigit c = true ∨ c = 43 ∧ ([] : List UInt8) = []) := by simpa using hc
      by_cases hquote : c = 34
      · simp [phoneNumberLoop,endOfRun,hquote]
      · rw [phoneNumberLoop,if_neg (by simp),if_neg (by simp),if_neg (by simp [hquote]),if_pos rfl,
          if_neg hnone]
        simp [endOfRun,hquote]

end Sms
end A9GTracker
