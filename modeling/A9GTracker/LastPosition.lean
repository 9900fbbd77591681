import Mathlib.Data.List.Basic
import Mathlib.Tactic.Common
import A9GTracker.FrameSequence
import A9GTracker.QueueWedge
import A9GTracker.RejectedSentences
import A9GTracker.Tracker

/-! When the position of the tracker is the one of the last valid fix. `gps_Process` copies
the live RMC frame whatever it holds, so the last sentence of an event that stores a
coordinate has to be a fix. -/
namespace A9GTracker
namespace LastPosition

open CString RingBuffer Minmea GpsParse Gps Search FrameExtraction FrameSequence
open RejectedSentences Tracker
open SentenceSplitting (passed gpsParse_eq_foldl)

/-! ### Sentences and the RMC frame -/

def rmcEffect (rmc : Rmc) (text : List UInt8) : Rmc :=
  if minmeaSentenceId text false = .rmc then (minmeaParseRmc rmc text).1 else rmc

/-- The latitude is the fourth conversion of an RMC sentence; what is stored is not undone. -/
def StoresCoordinate (text : List UInt8) : Prop :=
  minmeaSentenceId text false = .rmc ∧ 4 ≤ (minmeaScan text rmcParser.format).1.length

instance (text : List UInt8) : Decidable (StoresCoordinate text) := instDecidableAnd

def position (rmc : Rmc) : Option (FloatVal × FloatVal) := do
  let latitude ← minmeaTocoord rmc.latitude
  let longitude ← minmeaTocoord rmc.longitude
  return (latitude,longitude)

theorem position_eq_some {rmc : Rmc} {fix : FloatVal × FloatVal} :
    position rmc = some fix ↔
      minmeaTocoord rmc.latitude = some fix.1 ∧ minmeaTocoord rmc.longitude = some fix.2 := by
  obtain ⟨latitude,longitude⟩ := fix
  simp [position,Option.bind_eq_some_iff]

/-- The position of an RMC sentence that is accepted, flagged valid and has coordinates. -/
def validFix (text : List UInt8) : Option (FloatVal × FloatVal) :=
  let r := minmeaParseRmc zeroInfo.rmc text
  if minmeaSentenceId text false = .rmc ∧ r.2 = true ∧ r.1.valid = true ∧
      r.1.latitude.scale ≠ 0 ∧ r.1.longitude.scale ≠ 0 then
    position r.1
  else none

def lastFix (texts : List (List UInt8)) : FloatVal × FloatVal :=
  texts.foldl (fun fix text => (validFix text).getD fix) (.num 0,.num 0)

def Known (rmc : Rmc) : Prop := rmc.latitude.scale ≠ 0 ∧ rmc.longitude.scale ≠ 0

instance (rmc : Rmc) : Decidable (Known rmc) := instDecidableAnd

theorem parseOneNmea_rmc (st : ParseState) (nmea : List UInt8) (flag : ℕ) :
    (parseOneNmea st nmea flag).1.info.rmc = rmcEffect st.info.rmc nmea := by
  have hinfo : (restartCounts st flag).info = st.info := by
    unfold restartCounts
    split_ifs <;> rfl
  simp only [parseOneNmea,rmcEffect]
  cases hid : minmeaSentenceId nmea false with
  | gsa | gsv =>
    simp only [parseSelected,hid]
    split_ifs <;> simp_all
  | _ => simp [parseSelected,hid,hinfo]

theorem gpsParse_rmc (st : ParseState) (nmeas : List UInt8) :
    (gpsParse st nmeas).1.info.rmc = (passed nmeas).foldl rmcEffect st.info.rmc := by
  rw [gpsParse_eq_foldl]
  show ((passed nmeas).foldl _ st).info.rmc = _
  generalize passed nmeas = texts
  induction texts generalizing st with
  | nil => rfl
  | cons text texts ih => rw [List.foldl_cons,List.foldl_cons,ih,parseOneNmea_rmc]

theorem parseFrames_rmc (st : ParseState) (blocks : List (List UInt8)) :
    (parseFrames st blocks).info.rmc = (frameTexts blocks).foldl rmcEffect st.info.rmc := by
  induction blocks generalizing st with
  | nil => rfl
  | cons block blocks ih =>
    rw [frameTexts,List.flatMap_cons,List.foldl_append,← gpsParse_rmc]
    exact ih _

/-- The RMC frame after a call is the work of the texts the call has passed on. -/
theorem gpsUpdate_rmc {st st' : GpsState} (h : QueueInv st) {fuel : ℕ} {data : List UInt8}
    {mallocOk : Bool} (hu : gpsUpdate fuel st data mallocOk = some st') :
    st'.parse.info.rmc = (eventTexts st data).foldl rmcEffect st.parse.info.rmc := by
  rw [gpsUpdate_parse h hu,eventTexts]
  split_ifs
  · rfl
  · exact parseFrames_rmc _ _

/-! ### Which texts change the coordinates -/

theorem storeAll_short {values : List ScanValue} (h : values.length < 4) (rmc : Rmc) :
    (storeAll rmcParser.targets values rmc).latitude = rmc.latitude ∧
      (storeAll rmcParser.targets values rmc).longitude = rmc.longitude := by
  rcases values with _ | ⟨v₀,_ | ⟨v₁,_ | ⟨v₂,_ | ⟨v₃,values⟩⟩⟩⟩
  · exact ⟨rfl,rfl⟩
  · cases v₀ <;> exact ⟨rfl,rfl⟩
  · cases v₁ <;> exact ⟨rfl,rfl⟩
  · cases v₁ <;> exact ⟨rfl,rfl⟩
  · simp only [List.length_cons] at h
    omega

/-- An RMC scan that does not get to the latitude stores the time at most. -/
theorem rmcEffect_of_not_stores {text : List UInt8} (h : ¬ StoresCoordinate text) (rmc : Rmc) :
    (rmcEffect rmc text).latitude = rmc.latitude ∧
      (rmcEffect rmc text).longitude = rmc.longitude := by
  unfold rmcEffect
  by_cases hid : minmeaSentenceId text false = .rmc
  · rw [if_pos hid]
    have hlen : (minmeaScan text rmcParser.format).1.length < 4 := by
      by_contra hge
      exact h ⟨hid,by omega⟩
    have hincomplete : (minmeaScan text rmcParser.format).2 = false := by
      by_contra hc
      have hkinds := scanLoop_kinds (Bool.not_eq_false _ ▸ hc)
      have hl := hkinds.length_eq
      have hformat : (rmcParser.format.toList.filter (· ≠ ';')).length = 12 := by decide
      rw [hformat] at hl
      exact absurd hlen (by simp only [minmeaScan]; omega)
    simp only [minmeaParseRmc,SentenceParser.parse,hincomplete]
    exact storeAll_short hlen rmc
  · rw [if_neg hid]
    exact ⟨rfl,rfl⟩

theorem foldl_not_stores {texts : List (List UInt8)} (h : ∀ t ∈ texts, ¬ StoresCoordinate t)
    (rmc : Rmc) : (texts.foldl rmcEffect rmc).latitude = rmc.latitude ∧
      (texts.foldl rmcEffect rmc).longitude = rmc.longitude := by
  induction texts generalizing rmc with
  | nil => exact ⟨rfl,rfl⟩
  | cons text texts ih =>
    obtain ⟨hlat,hlon⟩ := rmcEffect_of_not_stores (h text (by simp)) rmc
    obtain ⟨hlat',hlon'⟩ := ih (fun t ht => h t (by simp [ht])) (rmcEffect rmc text)
    exact ⟨hlat'.trans hlat,hlon'.trans hlon⟩

theorem rmcEffect_of_fix {text : List UInt8} {fix : FloatVal × FloatVal}
    (h : validFix text = some fix) (rmc : Rmc) :
    position (rmcEffect rmc text) = some fix ∧ Known (rmcEffect rmc text) := by
  simp only [validFix] at h
  split_ifs at h with hcond
  obtain ⟨hid,hacc,-,hlat,hlon⟩ := hcond
  have hsame := rmc_accepted hacc rmc
  rw [rmcEffect,if_pos hid,hsame]
  exact ⟨h,hlat,hlon⟩

theorem storesCoordinate_of_fix {text : List UInt8} {fix : FloatVal × FloatVal}
    (h : validFix text = some fix) : StoresCoordinate text := by
  by_contra hno
  have hid : minmeaSentenceId text false = .rmc := by
    simp only [validFix] at h
    split_ifs at h with hcond
    exact hcond.1
  have hkeep := (rmcEffect_of_not_stores hno zeroInfo.rmc).1
  have hknown := (rmcEffect_of_fix h zeroInfo.rmc).2.1
  rw [hkeep] at hknown
  exact hknown rfl

theorem lastFix_append (texts texts' : List (List UInt8)) :
    lastFix (texts++texts') =
      texts'.foldl (fun fix text => (validFix text).getD fix) (lastFix texts) :=
  List.foldl_append

theorem foldl_no_fix {texts : List (List UInt8)} (h : ∀ t ∈ texts, ¬ StoresCoordinate t)
    (fix : FloatVal × FloatVal) :
    texts.foldl (fun fix text => (validFix text).getD fix) fix = fix := by
  induction texts generalizing fix with
  | nil => rfl
  | cons text texts ih =>
    have hnone : validFix text = none := by
      cases hf : validFix text with
      | none => rfl
      | some f => exact absurd (storesCoordinate_of_fix hf) (h text (by simp))
    rw [List.foldl_cons,hnone]
    exact ih (fun t ht => h t (by simp [ht])) _

/-! ### Runs -/

/-- Runs of events that return, each meeting the condition, with all texts parsed so far. -/
inductive TrackerRun (log : LogSetting) (P : TrackerState → List (List UInt8) → Prop) :
    List (List UInt8) → TrackerState → Prop
  | boot : TrackerRun log P [] (trackerBoot log)
  | uart {texts : List (List UInt8)} {st st' : TrackerState} {fuel : ℕ} {data : List UInt8}
      {mallocOk : Bool} {gpsUere : FloatVal} {now : ℤ} :
      TrackerRun log P texts st → P st (eventTexts st.gps data) →
      gpsUartReceived fuel st data mallocOk gpsUere now = some st' →
      TrackerRun log P (texts++eventTexts st.gps data) st'
  | pending {texts : List (List UInt8)} {st : TrackerState} (p : Bool) :
      TrackerRun log P texts st →
      TrackerRun log P texts { st with gps := { st.gps with cmdPending := p } }

/-- The last text of the event that stores a coordinate is a valid fix, or no text does and
the coordinates are known already. -/
def EndsInFix (st : TrackerState) (texts : List (List UInt8)) : Prop :=
  (∃ before text behind, texts = before++text::behind ∧ validFix text ≠ none ∧
    ∀ t ∈ behind, ¬ StoresCoordinate t) ∨
  ((∀ t ∈ texts, ¬ StoresCoordinate t) ∧ Known st.gps.parse.info.rmc)

/-- The data are the last fix, and so is the frame unless it is empty. -/
structure ShowsLastFix (texts : List (List UInt8)) (st : TrackerState) : Prop where
  inv : QueueInv st.gps
  data_eq : (st.data.latitude,st.data.longitude) = lastFix texts
  frame_eq : Known st.gps.parse.info.rmc → position st.gps.parse.info.rmc = some (lastFix texts)

theorem event_rmc {texts texts' : List (List UInt8)} {st : TrackerState}
    (h : ShowsLastFix texts st) (hfix : EndsInFix st texts') :
    position (texts'.foldl rmcEffect st.gps.parse.info.rmc) = some (lastFix (texts++texts')) := by
  rcases hfix with ⟨before,text,behind,rfl,hfix,hbehind⟩ | ⟨hnone,hknown⟩
  · obtain ⟨fix,hfix⟩ := Option.ne_none_iff_exists'.mp hfix
    rw [lastFix_append]
    simp only [List.foldl_append,List.foldl_cons,hfix,Option.getD_some]
    obtain ⟨hlat,hlon⟩ := foldl_not_stores hbehind
      (rmcEffect (before.foldl rmcEffect st.gps.parse.info.rmc) text)
    rw [foldl_no_fix hbehind,position,hlat,hlon]
    exact (rmcEffect_of_fix hfix _).1
  · obtain ⟨hlat,hlon⟩ := foldl_not_stores hnone st.gps.parse.info.rmc
    rw [lastFix_append,foldl_no_fix hnone,position,hlat,hlon]
    exact h.frame_eq hknown

theorem uart_showsLastFix {texts : List (List UInt8)} {st st' : TrackerState} {fuel : ℕ}
    {data : List UInt8} {mallocOk : Bool} {gpsUere : FloatVal} {now : ℤ}
    (h : ShowsLastFix texts st) (hfix : EndsInFix st (eventTexts st.gps data))
    (hu : gpsUartReceived fuel st data mallocOk gpsUere now = some st') :
    ShowsLastFix (texts++eventTexts st.gps data) st' := by
  obtain ⟨hgps,hdata⟩ := gpsUartReceived_eq_some.1 hu
  have hrmc := event_rmc h hfix
  rw [← gpsUpdate_rmc h.inv hgps] at hrmc
  obtain ⟨hlat,hlon⟩ := position_eq_some.1 hrmc
  refine ⟨gpsUpdate_queueInv h.inv hgps,Prod.ext ?_ ?_,fun _ => hrmc⟩
  · exact Option.some.inj (hdata.latitude.symm.trans hlat)
  · exact Option.some.inj (hdata.longitude.symm.trans hlon)

theorem boot_showsLastFix (log : LogSetting) : ShowsLastFix [] (trackerBoot log) where
  inv := gpsBoot_queueInv log
  data_eq := rfl
  frame_eq h := absurd rfl h.1

/-- In a run whose events all end in a fix or leave a known one alone, the position is the
one of the last valid fix. -/
theorem position_is_lastFix {log : LogSetting} {texts : List (List UInt8)} {st : TrackerState}
    (h : TrackerRun log EndsInFix texts st) :
    (gpsGetLastLatitude st.data,gpsGetLastLongitude st.data) = lastFix texts := by
  have hinv : ShowsLastFix texts st := by
    induction h with
    | boot => exact boot_showsLastFix log
    | uart _ hfix hu ih => exact uart_showsLastFix ih hfix hu
    | pending p _ ih => exact ⟨⟨ih.inv.wellFormed,ih.inv.maxSize_eq⟩,ih.data_eq,ih.frame_eq⟩
  exact hinv.data_eq

/-- A fix in a frame of its own. -/
def fixChunk : List UInt8 :=
  lit "$GPRMC,081836,A,3751.65,S,14507.36,E,000.0,360.0,130998,011.3,E*62\r\n$GPVTG\r\n"

def lostChunk : List UInt8 :=
  lit "$GPRMC,081836,A,3751.65,S,14507.36,E,000.0,360.0,130998,011.3,E*62\r\n"++
    lit "$GPRMC,081837,V,,,,,,,130998,,*3E\r\n$GPVTG\r\n"

/-- An event between two frames takes in any chunk that closes its frames, unless the
conversion of the position traps. -/
theorem exists_event {st : TrackerState} (hidle : QueueWedge.Idle st.gps) {data : List UInt8}
    (hfit : (queue st.gps).length+data.length ≤ 2047)
    (hclosed : EveryVtgClosed (queue st.gps++data)) {fix : FloatVal × FloatVal}
    (hfix : position ((frameTexts (frames (queue st.gps++data))).foldl rmcEffect
      st.gps.parse.info.rmc) = some fix) :
    ∃ fuel st', gpsUartReceived fuel st data true (.num 5) 0 = some st' ∧
      QueueWedge.Idle st'.gps ∧ queue st'.gps = QueueWedge.rest (queue st.gps++data) ∧
      eventTexts st.gps data = frameTexts (frames (queue st.gps++data)) ∧
      st'.gps.parse.info.rmc = (frameTexts (frames (queue st.gps++data))).foldl rmcEffect
        st.gps.parse.info.rmc ∧ (st'.data.latitude,st'.data.longitude) = fix := by
  have hqueue := QueueWedge.queueAfter_fits hfit
  have htexts : eventTexts st.gps data = frameTexts (frames (queue st.gps++data)) := by
    rw [eventTexts,hidle.idle,hqueue]
    rfl
  obtain ⟨fuel,gps,hu⟩ := (gpsUpdate_returns hidle.inv hidle.idle data true).2 (by rwa [hqueue])
  have hrmc := gpsUpdate_rmc hidle.inv hu
  rw [htexts] at hrmc
  obtain ⟨hidle',-,hrest⟩ := QueueWedge.gpsUpdate_extracted hidle hu
  rw [QueueWedge.wait,hqueue] at hrest
  rw [← hrmc] at hfix
  obtain ⟨hlat,hlon⟩ := position_eq_some.1 hfix
  obtain ⟨processed,hprocessed,hlat',hlon'⟩ := exists_gpsProcess (.num 5) 0 hlat hlon
  exact ⟨fuel,⟨gps,processed⟩,gpsUartReceived_eq_some.2 ⟨hu,gpsProcess_eq_some.1 hprocessed⟩,
    hidle',hrest,htexts,hrmc,Prod.ext hlat' hlon'⟩

theorem closed_of_ends {data : List UInt8} (hend : Occurs crlf data (data.length-2)) :
    EveryVtgClosed data := by
  intro i hi
  have hl : i+3 ≤ data.length := hi.add_length_le (by decide)
  exact ⟨data.length-2,by omega,hend⟩

/-- An RMC sentence that breaks off behind its time, in a frame of its own. -/
def quietChunk : List UInt8 := lit "$GPRMC,081837\r\n$GPVTG\r\n"

def fixPosition : FloatVal × FloatVal := (.num (-(37+51.65/60)),.num (145+7.36/60))

theorem chunks_parsed :
    frameTexts (frames fixChunk) =
      [lit "$GPRMC,081836,A,3751.65,S,14507.36,E,000.0,360.0,130998,011.3,E*62\r\n",
        lit "$GPVTG\r\n"] ∧
    frameTexts (frames quietChunk) = [lit "$GPRMC,081837\r\n",lit "$GPVTG\r\n"] ∧
    QueueWedge.rest fixChunk = [] ∧
    position ((frameTexts (frames fixChunk)).foldl rmcEffect zeroInfo.rmc) = some fixPosition ∧
    position ((frameTexts (frames quietChunk)).foldl rmcEffect
      ((frameTexts (frames fixChunk)).foldl rmcEffect zeroInfo.rmc)) = some fixPosition ∧
    Known ((frameTexts (frames fixChunk)).foldl rmcEffect zeroInfo.rmc) := by
  have hbytes : fixChunk = _ := lit_ofList _
  have hbytes' : quietChunk = _ := lit_ofList _
  rw [hbytes,hbytes']
  decide +kernel

/-- The fix stays over an event without one. -/
theorem position_is_lastFix_fixChunk : ∃ st : TrackerState,
    TrackerRun ⟨false,.null⟩ EndsInFix
      (frameTexts (frames fixChunk)++frameTexts (frames quietChunk)) st ∧
    (gpsGetLastLatitude st.data,gpsGetLastLongitude st.data) =
      lastFix (frameTexts (frames fixChunk)++frameTexts (frames quietChunk)) ∧
    (gpsGetLastLatitude st.data,gpsGetLastLongitude st.data) = fixPosition := by
  have hempty : queue (trackerBoot ⟨false,.null⟩).gps = [] := gpsBoot_queue ⟨false,.null⟩
  have hrmc0 : (trackerBoot ⟨false,.null⟩).gps.parse.info.rmc = zeroInfo.rmc := rfl
  obtain ⟨hfixTexts,hquietTexts,hrest,hpos,hpos',hknown⟩ := chunks_parsed
  obtain ⟨hlen,hend⟩ : fixChunk.length ≤ 2047 ∧ Occurs crlf fixChunk (fixChunk.length-2) := by
    have hbytes : fixChunk = _ := lit_ofList _
    rw [hbytes]
    decide +kernel
  obtain ⟨fuel,st,hu,hidle,hqueue,htexts,hrmc,-⟩ := @exists_event
    (trackerBoot ⟨false,.null⟩) (QueueWedge.gpsBoot_idle ⟨false,.null⟩) fixChunk (by rw [hempty]; simpa using hlen)
    (by rw [hempty]; exact closed_of_ends hend) _ (by rw [hempty,hrmc0]; exact hpos)
  rw [hempty,List.nil_append] at hqueue htexts hrmc
  rw [hrest] at hqueue
  rw [hrmc0] at hrmc
  obtain ⟨fuel',st',hu',-,-,htexts',-,hdata⟩ := @exists_event st hidle quietChunk
    (by rw [hqueue]; decide)
    (by rw [hqueue]; exact closed_of_ends (by decide)) _ (by rw [hqueue,hrmc]; exact hpos')
  rw [hqueue,List.nil_append] at htexts'
  have hfirst : TrackerRun ⟨false,.null⟩ EndsInFix (frameTexts (frames fixChunk)) st := by
    rw [← htexts]
    refine .uart .boot (.inl ?_) hu
    rw [htexts,hfixTexts]
    exact ⟨[],_,_,rfl,by decide +kernel,by decide +kernel⟩
  have hrun : TrackerRun ⟨false,.null⟩ EndsInFix
      (frameTexts (frames fixChunk)++frameTexts (frames quietChunk)) st' := by
    rw [← htexts']
    refine .uart hfirst (.inr ⟨?_,by rw [hrmc]; exact hknown⟩) hu'
    rw [htexts',hquietTexts]
    decide +kernel
  exact ⟨st',hrun,position_is_lastFix hrun,hdata⟩

/-- The sentence behind the fix takes the position away. -/
theorem fix_overwritten :
    ¬ ∀ (log : LogSetting) (texts : List (List UInt8)) (st : TrackerState),
      TrackerRun log (fun _ _ => True) texts st →
      (gpsGetLastLatitude st.data,gpsGetLastLongitude st.data) = lastFix texts := by
  intro h
  have hempty : queue (trackerBoot ⟨false,.null⟩).gps = [] := gpsBoot_queue ⟨false,.null⟩
  have hrmc0 : (trackerBoot ⟨false,.null⟩).gps.parse.info.rmc = zeroInfo.rmc := rfl
  obtain ⟨hlen,hend,hpos,hfix⟩ : lostChunk.length ≤ 2047 ∧
      Occurs crlf lostChunk (lostChunk.length-2) ∧
      position ((frameTexts (frames lostChunk)).foldl rmcEffect zeroInfo.rmc) =
        some (.nan,.nan) ∧
      lastFix (frameTexts (frames lostChunk)) = fixPosition := by
    have hbytes : lostChunk = _++_ := congrArg₂ _ (lit_ofList _) (lit_ofList _)
    rw [hbytes]
    decide +kernel
  obtain ⟨fuel,st,hu,-,-,htexts,-,hdata⟩ := @exists_event
    (trackerBoot ⟨false,.null⟩) (QueueWedge.gpsBoot_idle ⟨false,.null⟩) lostChunk (by rw [hempty]; simpa using hlen)
    (by rw [hempty]; exact closed_of_ends hend) _ (by rw [hempty,hrmc0]; exact hpos)
  rw [hempty,List.nil_append] at htexts
  have hlast := h _ _ _ (.uart .boot trivial hu)
  rw [List.nil_append,htexts,hfix] at hlast
  exact absurd (hdata.symm.trans hlast) (by decide +kernel)

end LastPosition
end A9GTracker
