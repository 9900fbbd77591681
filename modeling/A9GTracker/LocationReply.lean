import A9GTracker.Sms

/-! The reply to a request for the position: when it is a link, and what the link holds. -/
namespace A9GTracker
namespace LocationReply

open CString Minmea GpsParse Gps Tracker Sms

def linkFront : List UInt8 := lit "https://maps.google.com/?q="

def IsLink (msg : List UInt8) : Prop := linkFront <+: msg

def notAvailable : List UInt8 := lit "Location not available"

theorem not_isLink_notAvailable : ¬ IsLink notAvailable := by
  intro h
  have hlen := h.length_le
  simp [linkFront,notAvailable,lit] at hlen

def reply (print6f : FloatVal → List UInt8) (data : GpsTrackerData) (phoneNumber : List UInt8) :
    List UInt8 :=
  (sendLocationSms print6f data phoneNumber).message

def Unknown (gpsInfo : GpsInfo) : Prop :=
  gpsInfo.rmc.latitude.scale = 0 ∨ gpsInfo.rmc.longitude.scale = 0

/-- An unknown position is answered with the text, a link goes out with two numbers only. -/
def ReplyLaw (gpsInfo : GpsInfo) (data : GpsTrackerData) (msg : List UInt8) : Prop :=
  (Unknown gpsInfo → msg = notAvailable) ∧
  (IsLink msg → ∃ p q, data.latitude = .num p ∧ data.longitude = .num q)

/-! ### The conversion -/

theorem minmeaTocoord_eq_nan {f : MinmeaFloat} :
    minmeaTocoord f = some .nan ↔ f.scale = 0 := by
  unfold minmeaTocoord
  split_ifs with h <;> simp [h]

theorem exists_num_of_known {f : MinmeaFloat} (h : f.scale ≠ 0) {v : FloatVal}
    (hv : minmeaTocoord f = some v) : ∃ q, v = .num q := by
  cases v with
  | nan => exact absurd (minmeaTocoord_eq_nan.1 hv) h
  | num q => exact ⟨q,rfl⟩

/-! ### The reply -/

section reply
variable (print6f : FloatVal → List UInt8) (data : GpsTrackerData) (phoneNumber : List UInt8)

/-- The text is sent for two zeros, a link for everything else. -/
theorem message_cases :
    (data.latitude = .num 0 ∧ data.longitude = .num 0 ∧
      (sendLocationSms print6f data phoneNumber).message = notAvailable) ∨
    (¬ (data.latitude = .num 0 ∧ data.longitude = .num 0) ∧
      IsLink (sendLocationSms print6f data phoneNumber).message) := by
  by_cases hzero : data.latitude = .num 0 ∧ data.longitude = .num 0
  · refine Or.inl ⟨hzero.1,hzero.2,?_⟩
    simp [sendLocationSms,getGoogleMapsLink,gpsGetLastLatitude,gpsGetLastLongitude,hzero,
      notAvailable]
  · refine Or.inr ⟨hzero,?_⟩
    have hlink : (sendLocationSms print6f data phoneNumber).message =
        (linkFront++(print6f data.latitude++lit ","++print6f data.longitude)).take 175 := by
      simp only [sendLocationSms,getGoogleMapsLink,gpsGetLastLatitude,gpsGetLastLongitude,
        if_neg hzero,linkFront,List.append_assoc]
    have hroom : linkFront.length ≤ 175 := by decide
    rw [hlink,List.take_append,List.take_of_length_le hroom]
    exact List.prefix_append _ _

/-- A coordinate that is no number is not compared equal to zero: the reply is a link. -/
theorem isLink_of_nan (h : data.latitude = .nan ∨ data.longitude = .nan) :
    IsLink (sendLocationSms print6f data phoneNumber).message := by
  rcases message_cases print6f data phoneNumber with ⟨hlat,hlon,-⟩ | ⟨-,hlink⟩
  · simp [hlat,hlon] at h
  · exact hlink

end reply

theorem isLink_of_unknown {gpsInfo : GpsInfo} (h : Unknown gpsInfo) {gpsUere : FloatVal} {now : ℤ}
    {data : GpsTrackerData} (hdata : Processed gpsInfo gpsUere now data)
    (print6f : FloatVal → List UInt8) (phoneNumber : List UInt8) :
    IsLink (reply print6f data phoneNumber) := by
  apply isLink_of_nan
  refine h.imp (fun hlat => ?_) (fun hlon => ?_)
  · exact Option.some.inj (hdata.latitude.symm.trans (minmeaTocoord_eq_nan.2 hlat))
  · exact Option.some.inj (hdata.longitude.symm.trans (minmeaTocoord_eq_nan.2 hlon))

/-- The law holds for exactly the states in which both coordinates are known: where one is
unknown, the reply is always a link with what is no number in it. -/
theorem replyLaw_iff_known (print6f : FloatVal → List UInt8) {gpsInfo : GpsInfo}
    {gpsUere : FloatVal} {now : ℤ} {data : GpsTrackerData}
    (h : gpsProcess gpsInfo gpsUere now = some data) (phoneNumber : List UInt8) :
    ReplyLaw gpsInfo data (reply print6f data phoneNumber) ↔
      gpsInfo.rmc.latitude.scale ≠ 0 ∧ gpsInfo.rmc.longitude.scale ≠ 0 := by
  have hdata := gpsProcess_eq_some.1 h
  rw [← not_or]
  constructor
  · intro hlaw hunknown
    have hlink := isLink_of_unknown hunknown hdata print6f phoneNumber
    rw [hlaw.1 hunknown] at hlink
    exact not_isLink_notAvailable hlink
  · intro hknown
    refine ⟨fun hunknown => absurd hunknown hknown,fun _ => ?_⟩
    rw [not_or] at hknown
    obtain ⟨p,hp⟩ := exists_num_of_known hknown.1 hdata.latitude
    obtain ⟨q,hq⟩ := exists_num_of_known hknown.2 hdata.longitude
    exact ⟨p,q,hp,hq⟩

/-- A frame with both coordinates, in 37 degrees and 51.65 minutes South, 145 degrees and 7.36
minutes East. -/
def fixInfo : GpsInfo :=
  { zeroInfo with
    rmc := { zeroInfo.rmc with latitude := ⟨-375165,100⟩, longitude := ⟨1450736,100⟩ } }

def fixData : GpsTrackerData :=
  ⟨0,.num (-(37+51.65/60)),.num (145+7.36/60),.nan,.nan,.nan,.nan⟩

theorem replyLaw_iff_known_fix :
    ReplyLaw fixInfo fixData (reply (fun _ => lit "1.5") fixData (lit "+48600100200")) ↔
      fixInfo.rmc.latitude.scale ≠ 0 ∧ fixInfo.rmc.longitude.scale ≠ 0 :=
  @replyLaw_iff_known _ _ (.num 5) 0 _ (by decide +kernel) _

/-- Before the first fix a link goes out. -/
theorem replyLaw_fails_before_first_fix :
    ¬ ∀ (print6f : FloatVal → List UInt8) (gpsInfo : GpsInfo) (gpsUere : FloatVal) (now : ℤ)
      (data : GpsTrackerData) (phoneNumber : List UInt8),
      gpsProcess gpsInfo gpsUere now = some data →
      ReplyLaw gpsInfo data (reply print6f data phoneNumber) := by
  intro h
  have hunknown : Unknown zeroInfo := Or.inl rfl
  have hnan : minmeaTocoord zeroInfo.rmc.latitude = some .nan ∧
      minmeaTocoord zeroInfo.rmc.longitude = some .nan := by
    decide
  obtain ⟨data,hdata,-⟩ := exists_gpsProcess (.num 5) 0 hnan.1 hnan.2
  have hlink := isLink_of_unknown hunknown (gpsProcess_eq_some.1 hdata) (fun _ => lit "nan")
    (lit "+48600100200")
  rw [(h _ _ _ _ _ _ hdata).1 hunknown] at hlink
  exact not_isLink_notAvailable hlink

end LocationReply
end A9GTracker
