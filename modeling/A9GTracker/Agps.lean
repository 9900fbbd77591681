import Mathlib.Data.List.Basic
import Mathlib.Tactic.Common
import A9GTracker.GpsCommand
import A9GTracker.HttpTransfer
import A9GTracker.Retry

/-! The upload of a GPD file by `GPS_AGPS` of `libs/gps/src/gps.c`. The file goes out in packs
of 512 bytes; the test for the end lets one pack more through than the file has. -/
namespace A9GTracker
namespace Agps

open CString GpsCommand HttpTransfer Retry

/-! ### The code -/

/-- The 512 bytes of a pack, and where in the buffer they begin. -/
structure Pack where
  offset : ℕ
  bytes : List UInt8
  deriving DecidableEq

abbrev Transmission := ℕ × Option Pack

inductive AgpsCall
  | setBinaryMode
  | sendGpdPack (p : Transmission)
  | setNmeaMode
  | setRtcTime
  | setLocationTime

/-- What the calls answer. `httpGet` is the response that `Http_Get` leaves in the buffer, or
`none` for an error; `sendGpdPack t` answers the transmission that `t` others precede. -/
structure AgpsAnswers where
  malloc : Bool
  httpGet : Option (List UInt8)
  setBinaryMode : Bool
  sendGpdPack : ℕ → Bool
  setNmeaMode : Bool

/-- The buffer of 5120 bytes behind `Http_Get`, and the memory behind it. -/
def agpsBuffer (response beyond : List UInt8) : List UInt8 :=
  response++List.replicate (5120-response.length) 0++beyond

def bodyOffset (buffer : List UInt8) : Option ℕ :=
  match strstr (cstring buffer) (lit "200 OK") with
  | none => none
  | some indexResult =>
    (strstr (cstring (buffer.drop indexResult)) (lit "\r\n\r\n")).map fun indexBody =>
      indexResult+indexBody+4

def padGpd (buffer : List UInt8) (gpdData gpdLen : ℕ) : List UInt8 × ℕ :=
  if gpdLen % 512 ≠ 0 then
    (write buffer (gpdData+gpdLen) (List.replicate (512-gpdLen % 512) 0),
      toU16 (gpdLen+(512-gpdLen % 512)))
  else (buffer,gpdLen)

structure UploadState where
  i : ℕ
  sendFailTimes : ℕ
  sent : List Transmission

def uploadBody (sendGpdPack : ℕ → Bool) (buffer : List UInt8) (gpdData gpdLen : ℕ)
    (st : UploadState) : Loop.Step UploadState (RetryResult Transmission) :=
  if st.i*512 > gpdLen then
    let sent := st.sent++[(0xffff,none)]
    if ¬ sendGpdPack st.sent.length then
      if st.sendFailTimes+1 > 3 then .done ⟨false,sent⟩
      else .next ⟨st.i,st.sendFailTimes+1,sent⟩
    else .done ⟨true,sent⟩
  else
    let offset := gpdData+st.i*512
    let sent := st.sent++[(st.i,some ⟨offset,(buffer.drop offset).take 512⟩)]
    if ¬ sendGpdPack st.sent.length then
      if st.sendFailTimes+1 > 3 then .done ⟨false,sent⟩
      else .next ⟨st.i,st.sendFailTimes+1,sent⟩
    else .next ⟨st.i+1,0,sent⟩

/-- `GPS_AGPS`: its result and the commands it gives, or `none` when the fuel of its loop is
used up. -/
def gpsAgps (fuel : ℕ) (answers : AgpsAnswers) (beyond : List UInt8) (downloadGpd : Bool) :
    Option (Bool × List AgpsCall) :=
  if ¬ downloadGpd then some (true,[.setRtcTime,.setLocationTime])
  else if ¬ answers.malloc then some (false,[])
  else
    match answers.httpGet with
    | none => some (false,[])
    | some response =>
      let buffer := agpsBuffer response beyond
      match bodyOffset buffer with
      | none => some (false,[])
      | some gpdData =>
        let padded := padGpd buffer gpdData (toU16 ((response.length : ℤ)-gpdData))
        if ¬ answers.setBinaryMode then some (false,[.setBinaryMode])
        else
          (Loop.run (uploadBody answers.sendGpdPack padded.1 gpdData padded.2) fuel
            ⟨0,0,[]⟩).map fun r =>
            let calls := .setBinaryMode::r.sent.map .sendGpdPack++[.setNmeaMode]
            if r.ok && answers.setNmeaMode then (true,calls++[.setRtcTime,.setLocationTime])
            else (false,calls)

/-! ### The loop -/

def item (buffer : List UInt8) (gpdData gpdLen i : ℕ) : Transmission :=
  if i*512 > gpdLen then (0xffff,none)
  else (i,some ⟨gpdData+i*512,(buffer.drop (gpdData+i*512)).take 512⟩)

def UploadState.toRetry (st : UploadState) : RetryState Transmission :=
  ⟨st.i,st.sendFailTimes,st.sent⟩

/-- The loop tries one transmission after another, the end marker as the last. -/
theorem retryBody_toRetry (sendGpdPack : ℕ → Bool) (buffer : List UInt8) (gpdData gpdLen : ℕ)
    (st : UploadState) :
    retryBody (item buffer gpdData gpdLen) (gpdLen / 512+1) 3 sendGpdPack st.toRetry =
      (uploadBody sendGpdPack buffer gpdData gpdLen st).map UploadState.toRetry id := by
  rw [retryBody,uploadBody,UploadState.toRetry]
  by_cases hend : st.i*512 > gpdLen
  · have hlast : gpdLen / 512+1 ≤ st.i := by omega
    simp only [item,if_pos hend,if_pos hlast]
    cases sendGpdPack st.sent.length <;> split_ifs <;> rfl
  · have hlast : ¬ gpdLen / 512+1 ≤ st.i := by omega
    simp only [item,if_neg hend,if_neg hlast]
    cases sendGpdPack st.sent.length <;> split_ifs <;> rfl

theorem run_uploadBody (sendGpdPack : ℕ → Bool) (buffer : List UInt8) (gpdData gpdLen : ℕ) :
    ∃ fuel r, Loop.run (uploadBody sendGpdPack buffer gpdData gpdLen) fuel ⟨0,0,[]⟩ = some r ∧
      Outcome (item buffer gpdData gpdLen) (gpdLen / 512+1) 3 sendGpdPack r := by
  obtain ⟨fuel,r,hrun,hr⟩ :=
    run_retryBody (item buffer gpdData gpdLen) (gpdLen / 512+1) 3 sendGpdPack
  have hmap := Loop.run_map (retryBody_toRetry sendGpdPack buffer gpdData gpdLen) fuel ⟨0,0,[]⟩
  rw [Option.map_id] at hmap
  exact ⟨fuel,r,hmap.symm.trans hrun,hr⟩

theorem item_distinct (buffer : List UInt8) (gpdData gpdLen : ℕ) {n : ℕ}
    (hn : n ≤ gpdLen / 512+2) : Distinct (item buffer gpdData gpdLen) 0 n := by
  intro i hi j hj hij
  simp only [Nat.zero_add,item] at hij
  split_ifs at hij
  · omega
  · simp at hij
  · simp at hij
  · exact (Prod.mk.inj hij).1

/-! ### The file in packs -/

def packs (n : ℕ) : ℕ := (n+511) / 512

/-- The file, filled up with zeros to whole packs. -/
def padded (body : List UInt8) : List UInt8 :=
  body++List.replicate (512*packs body.length-body.length) 0

theorem le_packs (n : ℕ) : n ≤ 512*packs n := by
  rw [packs]
  omega

@[simp] theorem length_padded (body : List UInt8) :
    (padded body).length = 512*packs body.length := by
  rw [padded,List.length_append,List.length_replicate]
  exact Nat.add_sub_cancel' (le_packs _)

def pack (header body : List UInt8) (i : ℕ) : Transmission :=
  (i,some ⟨header.length+i*512,((padded body).drop (i*512)).take 512⟩)

def expected (header body : List UInt8) : List Transmission :=
  (List.range (packs body.length)).map (pack header body)++[(0xffff,none)]

def behindFile (header body beyond : List UInt8) : List UInt8 :=
  (agpsBuffer (header++body) beyond).drop (header.length+512*packs body.length)

theorem padGpd_agpsBuffer (header beyond : List UInt8) {body : List UInt8}
    (hlength : body.length ≤ 5120) :
    padGpd (agpsBuffer (header++body) beyond) header.length body.length =
      (header++padded body++behindFile header body beyond,512*packs body.length) := by
  have hle := le_packs body.length
  rw [padGpd]
  split_ifs with hmod
  · have hpad : 512-body.length % 512 = 512*packs body.length-body.length := by
      rw [packs]
      omega
    have hend : header.length+512*packs body.length =
        header.length+body.length+(512*packs body.length-body.length) := by omega
    refine Prod.ext ?_ ?_
    · rw [behindFile,hend,hpad,write,List.length_replicate,← List.length_append,agpsBuffer,
        List.append_assoc _ _ beyond,List.take_left,padded,← List.append_assoc header]
    · have hle : packs body.length ≤ 10 := by
        rw [packs]
        omega
      rw [toU16,packs]
      rw [packs] at hle
      omega
  · have hlength : 512*packs body.length = body.length := by
      rw [packs]
      omega
    refine Prod.ext ?_ hlength.symm
    rw [behindFile,agpsBuffer,padded,hlength,Nat.sub_self,List.replicate_zero,List.append_nil,
      List.append_assoc _ _ beyond,← List.length_append,List.drop_left]

theorem item_eq_pack (header body rest : List UInt8) {i : ℕ} (hi : i < packs body.length) :
    item (header++padded body++rest) header.length (512*packs body.length) i =
      pack header body i := by
  have hnot : ¬ i*512 > 512*packs body.length := by omega
  have hdrop : i*512 ≤ (padded body).length := by
    rw [length_padded]
    omega
  have htake : 512 ≤ ((padded body).drop (i*512)).length := by
    rw [List.length_drop,length_padded]
    omega
  rw [item,if_neg hnot,pack,List.append_assoc,List.drop_length_add_append,
    List.drop_append_of_le_length hdrop,List.take_append_of_le_length htake]

theorem item_packs (header body rest : List UInt8) :
    item (header++padded body++rest) header.length (512*packs body.length) (packs body.length) ≠
      (0xffff,none) := by
  have hnot : ¬ packs body.length*512 > 512*packs body.length := by omega
  rw [item,if_neg hnot]
  intro heq
  cases (Prod.mk.inj heq).2

/-! ### The upload -/

def AgpsCall.transmission : AgpsCall → Option Transmission
  | .sendGpdPack p => some p
  | _ => none

def transmissions (calls : List AgpsCall) : List Transmission :=
  calls.filterMap AgpsCall.transmission

/-- The commands of a download in which the loop has sent `sent`. -/
def uploadCalls (sent : List Transmission) (after : List AgpsCall) : List AgpsCall :=
  .setBinaryMode::sent.map .sendGpdPack++.setNmeaMode::after

theorem transmissions_uploadCalls (sent : List Transmission) {after : List AgpsCall}
    (hafter : transmissions after = []) : transmissions (uploadCalls sent after) = sent := by
  have hsent : (sent.map AgpsCall.sendGpdPack).filterMap AgpsCall.transmission = sent := by
    rw [List.filterMap_map]
    exact List.filterMap_some
  rw [transmissions,uploadCalls,List.filterMap_append,
    List.filterMap_cons_none (a := AgpsCall.setBinaryMode) rfl,hsent,
    List.filterMap_cons_none (a := AgpsCall.setNmeaMode) rfl]
  exact (congrArg (sent++·) hafter).trans (List.append_nil _)

/-- The commands of a whole download upload the file `body`: the transmissions without their
repetitions are the packs in order and the end marker, or their beginning where an attempt has
been refused once too often. -/
structure Uploads (answers : AgpsAnswers) (header body : List UInt8) (calls : List AgpsCall) :
    Prop where
  order : (transmissions calls).dedup <+: expected header body
  whole : answers.setBinaryMode = true →
    (∀ t, RefusedAt 3 answers.sendGpdPack t → (transmissions calls).length < t+4) →
    (transmissions calls).dedup = expected header body
  inside : ∀ i p, (i,some p) ∈ transmissions calls → p.offset+512 ≤ 5120
  tries : ∀ p, (transmissions calls).count p ≤ 4
  nmea : answers.setBinaryMode = true →
    ∃ before after, calls = before++.setNmeaMode::after ∧ transmissions after = []

/-- The upload is over before the last pack of the file is taken: the chip does not switch to
binary mode, or refuses a pack of the file four times in a row. The packs tried until then lie
in the buffer. -/
def StopsInFile (answers : AgpsAnswers) (header body : List UInt8) : Prop :=
  answers.setBinaryMode = false ∨ ∃ t, RefusedAt 3 answers.sendGpdPack t ∧
    taken answers.sendGpdPack t < packs body.length ∧
    header.length+(taken answers.sendGpdPack t+1)*512 ≤ 5120

def Sent (answers : AgpsAnswers) (header body rest : List UInt8) (r : RetryResult Transmission) :
    Prop :=
  Outcome (item (header++padded body++rest) header.length (512*packs body.length))
    (packs body.length+1) 3 answers.sendGpdPack r

theorem gpsAgps_download {answers : AgpsAnswers} {header body beyond : List UInt8}
    (hmalloc : answers.malloc = true) (hget : answers.httpGet = some (header++body))
    (hlength : (header++body).length ≤ 5120)
    (hbody : bodyOffset (agpsBuffer (header++body) beyond) = some header.length) :
    ∃ fuel r, gpsAgps fuel answers beyond true = some r ∧
      (answers.setBinaryMode = false → r = (false,[.setBinaryMode])) ∧
      (answers.setBinaryMode = true → ∃ sent after,
        r.2 = uploadCalls sent.sent after ∧ transmissions after = [] ∧
          (r.1 = true → sent.ok = true) ∧
          Sent answers header body (behindFile header body beyond) sent) := by
  rw [List.length_append] at hlength
  have hpad := padGpd_agpsBuffer header beyond (by omega : body.length ≤ 5120)
  have hlen : toU16 (((header++body).length : ℤ)-header.length) = body.length := by
    rw [toU16,List.length_append]
    omega
  obtain ⟨fuel,sent,hrun,hsent⟩ := run_uploadBody answers.sendGpdPack
    (header++padded body++behindFile header body beyond) header.length (512*packs body.length)
  rw [Nat.mul_div_cancel_left _ (by decide)] at hsent
  by_cases hmode : answers.setBinaryMode = true
  · refine ⟨fuel,if sent.ok && answers.setNmeaMode then
      (true,uploadCalls sent.sent [.setRtcTime,.setLocationTime]) else
      (false,uploadCalls sent.sent []),?_,fun h => ?_,fun _ => ⟨sent,?_⟩⟩
    · simp only [gpsAgps,hmalloc,hget,hbody,hlen,hpad,hmode,hrun,not_true_eq_false,if_false,
        Option.map_some,uploadCalls]
      split_ifs <;> simp
    · rw [hmode] at h
      cases h
    · split_ifs with hok
      · exact ⟨_,rfl,rfl,fun _ => (Bool.and_eq_true_iff.1 hok).1,hsent⟩
      · exact ⟨_,rfl,rfl,False.elim,hsent⟩
  · refine ⟨0,(false,[.setBinaryMode]),?_,fun _ => rfl,fun h => absurd h hmode⟩
    simp [gpsAgps,hmalloc,hget,hbody,hmode]

section
variable {answers : AgpsAnswers} {header body rest : List UInt8} {r : RetryResult Transmission}

theorem Sent.eq_attempts (h : Sent answers header body rest r) :
    ∃ n, r.sent.dedup = (List.range n).map
        (item (header++padded body++rest) header.length (512*packs body.length)) ∧
      (∀ p, r.sent.count p ≤ 4) ∧
      (∀ p, p ∈ r.sent ↔ ∃ i < n,
        item (header++padded body++rest) header.length (512*packs body.length) i = p) ∧
      n ≤ packs body.length+2 ∧
      (r.ok = true → n = packs body.length+2 ∧
        taken answers.sendGpdPack r.sent.length = packs body.length+2) ∧
      (r.ok = false → ∃ t, t+4 = r.sent.length ∧ RefusedAt 3 answers.sendGpdPack t ∧
        taken answers.sendGpdPack t+1 = n) := by
  obtain ⟨tries,hsent,htries,hle,hok,hrefused⟩ := h.tries
  have hdistinct := item_distinct (header++padded body++rest) header.length (512*packs body.length)
    (hle.trans_eq (by rw [Nat.mul_div_cancel_left _ (by decide)]))
  have hpos : ∀ n ∈ tries, 1 ≤ n := fun n hn => (htries n hn).1
  refine ⟨tries.length,?_,fun p => ?_,fun p => ?_,hle,hok,hrefused⟩
  · rw [hsent,dedup_attempts hpos hdistinct]
    simp only [Nat.zero_add]
  · rw [hsent]
    exact count_attempts_le htries hdistinct p
  · rw [hsent,mem_attempts hpos]
    simp only [Nat.zero_add]

/-- Up to the last pack of the file the transmissions are the expected ones. -/
theorem items_prefix (header body rest : List UInt8) {n : ℕ} (hn : n ≤ packs body.length) :
    (List.range n).map (item (header++padded body++rest) header.length (512*packs body.length)) <+:
      expected header body := by
  have hmap : (List.range n).map
      (item (header++padded body++rest) header.length (512*packs body.length)) =
      (List.range n).map (pack header body) := by
    refine List.map_congr_left fun i hi => ?_
    have hlt := List.mem_range.1 hi
    exact item_eq_pack header body rest (by omega)
  obtain ⟨m,hm⟩ := Nat.exists_eq_add_of_le hn
  rw [hmap,expected,hm,List.range_add,List.map_append,List.append_assoc]
  exact List.prefix_append _ _

theorem not_items_prefix (header body rest : List UInt8) {n : ℕ} (hn : packs body.length < n) :
    ¬ (List.range n).map (item (header++padded body++rest) header.length
      (512*packs body.length)) <+: expected header body := by
  intro hprefix
  have hget := hprefix.getElem (i := packs body.length) (by simpa using hn)
  refine item_packs header body rest ?_
  rw [List.getElem_map,List.getElem_range] at hget
  rw [hget]
  simp [expected]

/-- An upload that stops within the file is one of the beginning of the file. -/
theorem Sent.uploads (h : Sent answers header body rest r)
    (hmode : answers.setBinaryMode = true) (hstops : StopsInFile answers header body)
    {after : List AgpsCall} (hafter : transmissions after = []) :
    Uploads answers header body (uploadCalls r.sent after) := by
  obtain ⟨n,hdedup,hcount,hmem,-,hok,hrefused⟩ := h.eq_attempts
  rcases hstops with hfalse | ⟨t,ht,htaken,hinside⟩
  · rw [hmode] at hfalse
    cases hfalse
  have hend := h.refused t ht
  have hfail : r.ok = false := by
    rw [Bool.eq_false_iff]
    intro htrue
    have hmono := taken_mono answers.sendGpdPack hend
    rw [(hok htrue).2,taken_refused ht 4 le_rfl] at hmono
    omega
  obtain ⟨s,hs,hsrefused,hsn⟩ := hrefused hfail
  have hmono := taken_mono answers.sendGpdPack (by omega : s ≤ t)
  have hn : n ≤ packs body.length := by omega
  have htrans := transmissions_uploadCalls r.sent hafter
  refine ⟨?_,fun _ hgoing => ?_,fun i p hp => ?_,fun p => ?_,fun _ =>
    ⟨.setBinaryMode::r.sent.map .sendGpdPack,after,rfl,hafter⟩⟩
  · rw [htrans,hdedup]
    exact items_prefix header body rest hn
  · have hlt := hgoing s hsrefused
    rw [htrans] at hlt
    omega
  · rw [htrans,hmem] at hp
    obtain ⟨j,hj,heq⟩ := hp
    rw [item_eq_pack header body rest (by omega),pack] at heq
    obtain ⟨-,heq⟩ := Prod.mk.inj heq
    cases heq
    simp only
    omega
  · rw [htrans]
    exact hcount p

theorem Sent.stopsInFile (h : Sent answers header body rest r) {after : List AgpsCall}
    (hafter : transmissions after = [])
    (huploads : Uploads answers header body (uploadCalls r.sent after)) :
    StopsInFile answers header body := by
  obtain ⟨n,hdedup,-,hmem,-,hok,hrefused⟩ := h.eq_attempts
  have htrans := transmissions_uploadCalls r.sent hafter
  have horder := huploads.order
  rw [htrans,hdedup] at horder
  have hn : n ≤ packs body.length := by
    by_contra hnot
    exact not_items_prefix header body rest (not_le.1 hnot) horder
  have hfail : r.ok = false := by
    rw [Bool.eq_false_iff]
    intro htrue
    have hall := (hok htrue).1
    omega
  obtain ⟨t,-,ht,htn⟩ := hrefused hfail
  refine Or.inr ⟨t,ht,by omega,?_⟩
  have hlast := item_eq_pack header body rest (i := taken answers.sendGpdPack t) (by omega)
  have hsent := (hmem _).2 ⟨taken answers.sendGpdPack t,by omega,hlast⟩
  rw [← htrans] at hsent
  have hinside := huploads.inside _ _ hsent
  simp only at hinside
  omega

theorem Sent.dedup_ne (h : Sent answers header body rest r) {after : List AgpsCall}
    (hafter : transmissions after = []) :
    (transmissions (uploadCalls r.sent after)).dedup ≠ expected header body := by
  obtain ⟨n,hdedup,-⟩ := h.eq_attempts
  rw [transmissions_uploadCalls r.sent hafter,hdedup]
  intro heq
  have hlength := congrArg List.length heq
  rw [expected,List.length_map,List.length_range,List.length_append,List.length_map,
    List.length_range,List.length_singleton] at hlength
  refine not_items_prefix header body rest (n := n) (by omega) ?_
  rw [heq]

theorem uploads_setBinaryMode (hmode : answers.setBinaryMode = false) :
    Uploads answers header body [.setBinaryMode] where
  order := List.nil_prefix
  whole := fun h => by rw [hmode] at h; cases h
  inside := fun _ _ hp => by cases hp
  tries := fun _ => Nat.zero_le _
  nmea := fun h => by rw [hmode] at h; cases h

end

/-- Whatever the calls answer, the loop ends. The commands upload the file just when the chip
stays out of binary mode or refuses a pack of it four times in a row, and the packs tried until
then lie in the buffer; the transmissions never come to the packs of the file and the end
marker alone, since a pack behind the file goes out in front of the marker. -/
theorem gpsAgps_uploads_iff (answers : AgpsAnswers) (header body beyond : List UInt8)
    (hmalloc : answers.malloc = true) (hget : answers.httpGet = some (header++body))
    (hlength : (header++body).length ≤ 5120)
    (hbody : bodyOffset (agpsBuffer (header++body) beyond) = some header.length) :
    ∃ fuel r, gpsAgps fuel answers beyond true = some r ∧
      (Uploads answers header body r.2 ↔ StopsInFile answers header body) ∧
      (transmissions r.2).dedup ≠ expected header body := by
  obtain ⟨fuel,r,hrun,hoff,hon⟩ := gpsAgps_download hmalloc hget hlength hbody
  refine ⟨fuel,r,hrun,?_⟩
  by_cases hmode : answers.setBinaryMode = true
  · obtain ⟨sent,after,hr,hafter,-,hsent⟩ := hon hmode
    rw [hr]
    refine ⟨⟨hsent.stopsInFile hafter,fun h => hsent.uploads hmode h hafter⟩,?_⟩
    exact hsent.dedup_ne hafter
  · rw [Bool.not_eq_true] at hmode
    obtain rfl := hoff hmode
    refine ⟨⟨fun _ => Or.inl hmode,fun _ => uploads_setBinaryMode hmode⟩,?_⟩
    have hnone : transmissions [.setBinaryMode] = [] := rfl
    rw [hnone,List.dedup_nil,expected]
    simp

def threePacks (sendGpdPack : ℕ → Bool) : AgpsAnswers :=
  ⟨true,some (lit "HTTP/1.1 200 OK\r\n\r\n"++List.replicate 1100 65),true,sendGpdPack,true⟩

/-- A chip that takes two packs, the second at the second try, and no third one; and a chip that
takes everything. -/
theorem gpsAgps_uploads_three_packs :
    (∃ fuel r, gpsAgps fuel (threePacks fun t => t = 0 || t = 2) [] true = some r ∧
      Uploads (threePacks fun t => t = 0 || t = 2) (lit "HTTP/1.1 200 OK\r\n\r\n")
        (List.replicate 1100 65) r.2) ∧
    ∃ fuel r, gpsAgps fuel (threePacks fun _ => true) [] true = some r ∧
      ¬ Uploads (threePacks fun _ => true) (lit "HTTP/1.1 200 OK\r\n\r\n")
        (List.replicate 1100 65) r.2 := by
  have hbody : bodyOffset (agpsBuffer (lit "HTTP/1.1 200 OK\r\n\r\n"++List.replicate 1100 65) []) =
      some (lit "HTTP/1.1 200 OK\r\n\r\n").length := by decide +kernel
  have hlength : (lit "HTTP/1.1 200 OK\r\n\r\n"++List.replicate 1100 (65 : UInt8)).length ≤ 5120 := by
    rw [List.length_append,List.length_replicate]
    decide
  obtain ⟨fuel,r,hrun,hiff,-⟩ := gpsAgps_uploads_iff (threePacks fun t => t = 0 || t = 2)
    (lit "HTTP/1.1 200 OK\r\n\r\n") (List.replicate 1100 65) [] rfl rfl hlength hbody
  obtain ⟨fuel',r',hrun',hiff',-⟩ := gpsAgps_uploads_iff (threePacks fun _ => true)
    (lit "HTTP/1.1 200 OK\r\n\r\n") (List.replicate 1100 65) [] rfl rfl hlength hbody
  have hpacks : packs (List.replicate 1100 (65 : UInt8)).length = 3 := by
    rw [List.length_replicate]
    decide
  have htaken : taken (threePacks fun t => t = 0 || t = 2).sendGpdPack 3 = 2 := by decide
  refine ⟨⟨fuel,r,hrun,hiff.2 (Or.inr ⟨3,?_,by rw [htaken,hpacks]; decide,
    by rw [htaken]; decide⟩)⟩,fuel',r',hrun',fun h => ?_⟩
  · intro k hk
    simp only [threePacks]
    have hne : 3+k ≠ 0 ∧ 3+k ≠ 2 := by omega
    simp [hne]
  · rcases hiff'.1 h with hmode | ⟨t,ht,-⟩
    · cases hmode
    · have hrefused := ht 0 (by decide)
      cases hrefused

/-- A file of one byte that the chip takes at once: behind its only pack a second one goes
out. -/
theorem gpsAgps_sends_pack_behind_file :
    ∃ r, gpsAgps 3 ⟨true,some (lit "HTTP/1.1 200 OK\r\n\r\n"++lit "A"),true,fun _ => true,true⟩
        [] true = some r ∧ r.1 = true ∧
      (transmissions r.2).map Prod.fst = [0,1,0xffff] ∧
      ¬ Uploads ⟨true,some (lit "HTTP/1.1 200 OK\r\n\r\n"++lit "A"),true,fun _ => true,true⟩
        (lit "HTTP/1.1 200 OK\r\n\r\n") (lit "A") r.2 := by
  have hrun : (gpsAgps 3 ⟨true,some (lit "HTTP/1.1 200 OK\r\n\r\n"++lit "A"),true,
      fun _ => true,true⟩ [] true).map (fun r => (r.1,(transmissions r.2).map Prod.fst)) =
      some (true,[0,1,0xffff]) := by decide +kernel
  rw [Option.map_eq_some_iff] at hrun
  obtain ⟨r,hr,heq⟩ := hrun
  obtain ⟨hok,hsent⟩ := Prod.mk.inj heq
  refine ⟨r,hr,hok,hsent,fun h => ?_⟩
  have hone : 1 ∈ (transmissions r.2).map Prod.fst := by
    rw [hsent]
    decide
  obtain ⟨p,hp,hfst⟩ := List.mem_map.1 hone
  have hmem := h.order.subset (List.mem_dedup.2 hp)
  have hall : ∀ q ∈ expected (lit "HTTP/1.1 200 OK\r\n\r\n") (lit "A"), q.1 ≠ 1 := by
    decide +kernel
  exact hall p hmem hfst

end Agps
end A9GTracker
