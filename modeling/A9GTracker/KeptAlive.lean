import A9GTracker.Http
import A9GTracker.HttpPeer

/-! `Http_Post` over plain HTTP with a peer that keeps the connection open behind its
response. -/
namespace A9GTracker
namespace KeptAlive

open CString ConfigLoad HttpTransfer HttpLoops HttpPeer Http

/-- `network` answers a plain call as `http_send_receive` does with this peer and a
`retBuffer` of `size` bytes at `mem`. -/
def AnswersPlain (network : HttpCall → ℤ) (mem : List UInt8) (size : ℤ) (p : Peer) : Prop :=
  ∀ call, call.secure = false → ∃ fuel r,
    httpSendReceive peerSockets call.hostName call.port call.buffer mem size fuel p = some r ∧
    network call = r.ret

section timeout
variable {hostName port sendBuffer mem response : List UInt8} {size : ℤ} {p : Peer}

/-- Behind a response that does not fill the buffer the loop waits for more, and reports the
timeout. -/
theorem recv_timeout (hpos : 0 < size) (hsize : size ≤ mem.length)
    (hin : p.incoming = .finite response .timeout) (hshort : (response.length : ℤ) < size)
    {fuel : ℕ} {r : RecvResult Peer}
    (hr : Loop.run (recvBody peerSockets size) fuel ⟨0,mem,p⟩ = some r) : r.ret = -1 := by
  obtain ⟨r',taken,hr',hended⟩ := recv_finite hpos hsize hin
  obtain rfl := Loop.run_unique hr hr'
  rcases hended.ret with ⟨-,⟨-,hfull⟩ | ⟨-,hclose⟩⟩ | ⟨hret,-⟩
  · have hle := hended.begins.length_le
    omega
  · simp at hclose
  · exact hret

theorem exchange_timeout (hpos : 0 < size) (hsize : size ≤ mem.length)
    (hin : p.incoming = .finite response .timeout) (hshort : (response.length : ℤ) < size)
    {fuel : ℕ} {r : TransferResult Peer}
    (hr : exchange sendBuffer mem size fuel p = some r) : r.ret = -1 := by
  obtain ⟨sent,hsent,hr⟩ := Option.bind_eq_some_iff.1 hr
  split_ifs at hr
  · obtain ⟨received,hrun,rfl⟩ := Option.map_eq_some_iff.1 hr
    exact recv_timeout hpos hsize ((incoming_of_send hsent).trans hin) hshort hrun
  · exact Option.some.inj hr ▸ rfl

theorem httpSendReceive_timeout (hsize : size ≤ mem.length)
    (hin : p.incoming = .finite response .timeout) (hshort : (response.length : ℤ) < size)
    {fuel : ℕ} {r : TransferResult Peer}
    (hr : httpSendReceive peerSockets hostName port sendBuffer mem size fuel p = some r) :
    r.ret = -1 := by
  by_cases hconnects : Connects port sendBuffer size p
  · rw [httpSendReceive_of_connects hconnects] at hr
    exact exchange_timeout hconnects.size hsize hin hshort hr
  · have hnot : ∃ r, Refused mem r ∧ ∀ fuel,
        httpSendReceive peerSockets hostName port sendBuffer mem size fuel p = some r :=
      httpSendReceive_of_not_connects hconnects
    obtain ⟨r',hrefused,hr'⟩ := hnot
    obtain rfl := Option.some.inj (hr.symm.trans (hr' fuel))
    exact hrefused.ret

end timeout

theorem httpPost_timeout {network : HttpCall → ℤ} {mem response : List UInt8} {size : ℤ}
    {p : Peer} (hsize : size ≤ mem.length) (hin : p.incoming = .finite response .timeout)
    (hshort : (response.length : ℤ) < size) (hnetwork : AnswersPlain network mem size p)
    (malloc : ℕ → Option (ℕ → UInt8)) (hostName port path data : List UInt8) (dataLen : UInt16) :
    (httpPost network malloc false hostName port path data dataLen).1 = -1 := by
  have hcall : ∀ call : HttpCall, call.secure = false → network call = -1 := by
    intro call hplain
    obtain ⟨fuel,r,hr,hret⟩ := hnetwork call hplain
    rw [hret]
    exact httpSendReceive_timeout hsize hin hshort hr
  simp only [httpPost]
  split_ifs
  · rfl
  · rfl
  · split
    · rfl
    · exact hcall _ rfl

def Reports (ret : ℤ) (response : List UInt8) : Prop := ret = response.length

theorem not_reports_of_neg {ret : ℤ} (h : ret < 0) (response : List UInt8) :
    ¬ Reports ret response := by
  rw [Reports]
  omega

/-- No response that leaves room in the buffer is ever reported while the connection stays
open. -/
theorem httpPost_keptAlive {network : HttpCall → ℤ} {mem response : List UInt8} {size : ℤ}
    {p : Peer} (hsize : size ≤ mem.length) (hin : p.incoming = .finite response .timeout)
    (hshort : (response.length : ℤ) < size) (hnetwork : AnswersPlain network mem size p)
    (malloc : ℕ → Option (ℕ → UInt8)) (hostName port path data : List UInt8) (dataLen : UInt16) :
    (httpPost network malloc false hostName port path data dataLen).1 = -1 ∧
      ¬ Reports (httpPost network malloc false hostName port path data dataLen).1 response := by
  have hret := httpPost_timeout hsize hin hshort hnetwork malloc hostName port path data dataLen
  exact ⟨hret,not_reports_of_neg (by omega) response⟩

/-! ### The network of a peer -/

def plainNetwork (mem : List UInt8) (size : ℤ) (p : Peer) (fuel : ℕ) (call : HttpCall) : ℤ :=
  ((httpSendReceive peerSockets call.hostName call.port call.buffer mem size
    (call.buffer.length+fuel) p).map TransferResult.ret).getD 0

theorem answersPlain_plainNetwork {mem response : List UInt8} {ending : Ending} {size : ℤ}
    {p : Peer} {fuel : ℕ} (hsize : size ≤ mem.length) (hin : p.incoming = .finite response ending)
    (hfuel : response.length < fuel) : AnswersPlain (plainNetwork mem size p fuel) mem size p := by
  intro call _
  have hreturns : ∃ r, httpSendReceive peerSockets call.hostName call.port call.buffer mem size
      (call.buffer.length+fuel) p = some r := by
    by_cases hconnects : Connects call.port call.buffer size p
    · rw [httpSendReceive_of_connects hconnects]
      rcases exchange_cases call.buffer mem size p with ⟨r,-,-,-,hr⟩ | ⟨q,hq,hr⟩
      · exact ⟨r,hr _ (by omega)⟩
      · obtain ⟨received,taken,hrun,-⟩ := recv_finite hconnects.size hsize (hq.trans hin)
        rw [hr _ (by omega),Loop.run_mono (by omega) hrun]
        exact ⟨_,rfl⟩
    · obtain ⟨r,-,hr⟩ := httpSendReceive_of_not_connects hconnects
      exact ⟨r,hr _⟩
  obtain ⟨r,hr⟩ := hreturns
  refine ⟨_,r,hr,?_⟩
  rw [plainNetwork,hr]
  rfl

/-- Every request of a plain call is sent. -/
def TakesRequests (mem : List UInt8) (size : ℤ) (p : Peer) : Prop :=
  ∀ call : HttpCall, call.buffer ≠ [] → ¬ invalidPort call.port → ∀ fuel r,
    httpSendReceive peerSockets call.hostName call.port call.buffer mem size fuel p = some r →
      r.wire = call.buffer

/-- A peer that answers with two bytes and waits. -/
def patient : Peer where
  address := some (lit "10.0.0.1")
  descriptor := 1
  connected := 0
  accepts _ := 1000
  cuts _ := 1
  sends := 0
  recvs := 0
  incoming := .finite (lit "OK") .timeout

def patientMem : List UInt8 := List.replicate 256 0

theorem length_patientMem : (256 : ℤ) ≤ patientMem.length := by
  rw [patientMem,List.length_replicate]
  exact le_rfl

theorem answersPlain_patient :
    AnswersPlain (plainNetwork patientMem 256 patient 3) patientMem 256 patient :=
  answersPlain_plainNetwork length_patientMem rfl (by decide)

theorem takesRequests_patient : TakesRequests patientMem 256 patient := by
  intro call hne hport fuel r hr
  have hconnects : Connects call.port call.buffer 256 patient :=
    ⟨hne,by decide,by simp [patient],by decide,hport,by decide⟩
  rw [httpSendReceive_of_connects hconnects] at hr
  obtain ⟨sent,hsent,hr⟩ := Option.bind_eq_some_iff.1 hr
  have hok := send_ok (p := patient) (fun _ => by simp [patient]) hsent
  obtain ⟨sent',hsent',hwire⟩ := send_spec peerSockets_lawful call.buffer patient
  obtain rfl := Loop.run_unique hsent hsent'
  rw [if_neg (by simp [hok])] at hr
  obtain ⟨received,-,rfl⟩ := Option.map_eq_some_iff.1 hr
  exact hwire.1 hok

theorem httpPost_keptAlive_patient :
    (httpPost (plainNetwork patientMem 256 patient 3) (fun _ => some fun _ => 0) false (lit "h")
      (lit "80") (lit "/") (lit "a") 1).1 = -1 ∧
    ¬ Reports (httpPost (plainNetwork patientMem 256 patient 3) (fun _ => some fun _ => 0) false
      (lit "h") (lit "80") (lit "/") (lit "a") 1).1 (lit "OK") :=
  httpPost_keptAlive length_patientMem rfl (by decide) answersPlain_patient _ _ _ _ _ _

/-- The response is received and -1 is returned. -/
theorem kept_alive_response_not_reported :
    ¬ ∀ (network : HttpCall → ℤ) (mem response : List UInt8) (size : ℤ) (p : Peer),
      size ≤ mem.length → p.incoming = .finite response .timeout →
      (response.length : ℤ) < size → AnswersPlain network mem size p →
      TakesRequests mem size p →
      ∀ (malloc : ℕ → Option (ℕ → UInt8)) (hostName port path data : List UInt8)
        (dataLen : UInt16), (∀ n, malloc n ≠ none) → ¬ invalidPort port →
        data.length = dataLen.toNat →
        Reports (httpPost network malloc false hostName port path data dataLen).1 response := by
  intro h
  have hreports := h _ patientMem (lit "OK") 256 patient length_patientMem rfl (by decide)
    answersPlain_patient takesRequests_patient (fun _ => some fun _ => 0) (lit "h") (lit "80")
    (lit "/") (lit "a") 1 (by simp) (by decide) rfl
  refine not_reports_of_neg ?_ (lit "OK") hreports
  rw [httpPost_timeout length_patientMem rfl (by decide) answersPlain_patient]
  decide

end KeptAlive
end A9GTracker
