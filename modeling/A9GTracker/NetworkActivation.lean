import A9GTracker.Exclusion
import A9GTracker.Network
import A9GTracker.Runs

/-! PDP activation requests over runs of the network machine: when two requests can
overlap, and what a refused request leaves behind. -/
namespace A9GTracker
namespace NetworkActivation

open CString Network Runs Exclusion

/-! ### What one call of `NetworkAttachActivate` does -/

/-- The call finds the modem detached and starts to attach. -/
def CallAttaches (a : ModemAnswers) (st : NetState) : Prop :=
  isGsmRegistered st = true ∧ a.attachRet = true ∧ a.attachStatus = 0

/-- The call finds the modem attached and inactive, no activation running, and requests one. -/
def CallActivates (a : ModemAnswers) (st : NetState) : Prop :=
  isGsmRegistered st = true ∧ a.attachRet = true ∧ a.attachStatus ≠ 0 ∧
    st.networkStatus ≠ .activating ∧ a.activeRet = true ∧ a.activeStatus = 0

theorem attachActivate_attaches {a : ModemAnswers} {st : NetState} (cfg : ApnSettings)
    (h : CallAttaches a st) :
    (networkAttachActivate cfg a st).1 =
      { gsmActiveOff st with
        networkStatus := .attaching
        trace := st.trace++[.startAttach a.startAttachRet] } := by
  obtain ⟨hreg,hret,hst⟩ := h
  simp [networkAttachActivate,hreg,hret,hst,updateStatusWith,NetState.emit,gsmActiveOff]

def dueContext (cfg : ApnSettings) (st : NetState) : PdpContext :=
  if st.apnWorkaroundPending then st.dummyContext else (setApnContext cfg st).realContext

theorem attachActivate_due {a : ModemAnswers} {st : NetState} (cfg : ApnSettings)
    (h : CallActivates a st) :
    ∃ real, (networkAttachActivate cfg a st).1 =
      { gsmActiveOff st with
        networkStatus := .activating
        realContext := real
        apnWorkaroundPending := !st.apnWorkaroundPending
        trace := st.trace++[.startActive (dueContext cfg st) a.startActiveRet] } := by
  obtain ⟨hreg,hret,hst,hnot,hact,hast⟩ := h
  cases hp : st.apnWorkaroundPending with
  | false =>
    refine ⟨(setApnContext cfg st).realContext,?_⟩
    simp [networkAttachActivate,hreg,hret,hst,hnot,hact,hast,hp,updateStatusWith,NetState.emit,
      gsmActiveOff,setApnContext,dueContext]
  | true =>
    refine ⟨st.realContext,?_⟩
    simp [networkAttachActivate,hreg,hret,hst,hnot,hact,hast,hp,updateStatusWith,NetState.emit,
      gsmActiveOff,dueContext]

theorem attachActivate_activates {a : ModemAnswers} {st : NetState} (cfg : ApnSettings)
    (h : CallActivates a st) :
    ∃ real context pending, (networkAttachActivate cfg a st).1 =
      { gsmActiveOff st with
        networkStatus := .activating
        realContext := real
        apnWorkaroundPending := pending
        trace := st.trace++[.startActive context a.startActiveRet] } := by
  obtain ⟨real,heq⟩ := attachActivate_due cfg h
  exact ⟨real,_,_,heq⟩

theorem attachActivate_idle {a : ModemAnswers} {st : NetState} (cfg : ApnSettings)
    (hatt : ¬ CallAttaches a st) (hact : ¬ CallActivates a st) :
    (networkAttachActivate cfg a st).1 = st := by
  simp only [CallAttaches,not_and] at hatt
  simp only [CallActivates,not_and] at hact
  unfold networkAttachActivate
  split_ifs with h₁ h₂ h₃ h₄ h₅ h₆ <;> simp_all

theorem attachActivate_cases (cfg : ApnSettings) (a : ModemAnswers) (st : NetState) :
    CallAttaches a st ∨ CallActivates a st ∨
      (¬ CallActivates a st ∧ (networkAttachActivate cfg a st).1 = st) := by
  by_cases hatt : CallAttaches a st
  · exact Or.inl hatt
  · by_cases hact : CallActivates a st
    · exact Or.inr (Or.inl hact)
    · exact Or.inr (Or.inr ⟨hact,attachActivate_idle cfg hatt hact⟩)

theorem attachActivate_of_activating {a : ModemAnswers} {st : NetState} (cfg : ApnSettings)
    (hst : st.networkStatus = .activating) (hatt : ¬ CallAttaches a st) :
    (networkAttachActivate cfg a st).1 = st :=
  attachActivate_idle cfg hatt fun h => h.2.2.2.1 hst

/-- A call that does anything clears the flag `GSM_ACTIVE` and makes one request. -/
theorem attachActivate_outcome (cfg : ApnSettings) (a : ModemAnswers) (st : NetState) :
    (networkAttachActivate cfg a st).1 = st ∨
    ∃ status real pending b, b ≠ .startDeactive ∧ (networkAttachActivate cfg a st).1 =
      { gsmActiveOff st with
        networkStatus := status
        realContext := real
        apnWorkaroundPending := pending
        trace := st.trace++[b] } := by
  rcases attachActivate_cases cfg a st with hatt | hact | ⟨-,hidle⟩
  · right
    exact ⟨_,_,_,_,by simp,attachActivate_attaches cfg hatt⟩
  · right
    obtain ⟨real,context,pending,heq⟩ := attachActivate_activates cfg hact
    exact ⟨_,real,pending,_,by simp,heq⟩
  · exact Or.inl hidle

/-! ### What no call touches -/

structure SameRecords (st st' : NetState) : Prop where
  trackerloopTick : st'.trackerloopTick = st.trackerloopTick
  cellInfo : st'.cellInfo = st.cellInfo
  cellInfoCount : st'.cellInfoCount = st.cellInfoCount
  cellInfoStr : st'.cellInfoStr = st.cellInfoStr

theorem SameRecords.refl (st : NetState) : SameRecords st st := ⟨rfl,rfl,rfl,rfl⟩

theorem attachActivate_sameRecords (cfg : ApnSettings) (a : ModemAnswers) (st : NetState) :
    SameRecords st (networkAttachActivate cfg a st).1 := by
  rcases attachActivate_outcome cfg a st with hidle | ⟨status,real,pending,b,-,heq⟩
  · rw [hidle]
    exact .refl st
  · rw [heq]
    exact ⟨rfl,rfl,rfl,rfl⟩

theorem attachActivate_isGsmRegistered (cfg : ApnSettings) (a : ModemAnswers) (st : NetState) :
    isGsmRegistered (networkAttachActivate cfg a st).1 = isGsmRegistered st := by
  rcases attachActivate_outcome cfg a st with hidle | ⟨status,real,pending,b,-,heq⟩
  · rw [hidle]
  · rw [heq]
    exact isGsmRegistered_gsmActiveOff st

theorem networkUpdateStatus_sameRecords (cfg : ApnSettings) (a : ModemAnswers)
    (status : NetworkStatus) (st : NetState) :
    SameRecords st (networkUpdateStatus cfg a status st) := by
  have hcall : ∀ st', SameRecords st st' → SameRecords st
      { (networkAttachActivate cfg a st').1 with networkStatus := status } := by
    intro st' h
    have hsame := attachActivate_sameRecords cfg a st'
    exact ⟨hsame.trackerloopTick.trans h.trackerloopTick,hsame.cellInfo.trans h.cellInfo,
      hsame.cellInfoCount.trans h.cellInfoCount,hsame.cellInfoStr.trans h.cellInfoStr⟩
  cases status with
  | registered => exact hcall (gsmRegisteredOn st) ⟨rfl,rfl,rfl,rfl⟩
  | attached | deactived => exact hcall (gsmActiveOff st) ⟨rfl,rfl,rfl,rfl⟩
  | _ => exact ⟨rfl,rfl,rfl,rfl⟩

theorem monitorConnection_sameRecords (cfg : ApnSettings) (a : ModemAnswers) (now : ℕ)
    (st : NetState) : SameRecords st (monitorConnection cfg a now st) := by
  unfold monitorConnection
  split_ifs
  · exact ⟨rfl,rfl,rfl,rfl⟩
  · exact .refl st
  · exact attachActivate_sameRecords cfg a st
  · exact .refl st

theorem monitorConnection_isGsmRegistered (cfg : ApnSettings) (a : ModemAnswers) (now : ℕ)
    (st : NetState) : isGsmRegistered (monitorConnection cfg a now st) = isGsmRegistered st := by
  unfold monitorConnection
  split_ifs
  · rfl
  · rfl
  · exact attachActivate_isGsmRegistered cfg a st
  · rfl

/-- The second half of the monitor asks for the cells and may empty the string. -/
theorem requestCellInfo_eq (cellRet : Bool) (st : NetState) :
    requestCellInfo cellRet st =
      { st with
        cellInfoStr := if isGsmRegistered st = true ∧ cellRet = true then st.cellInfoStr else []
        trace := st.trace++if isGsmRegistered st then [.cellInfoRequest cellRet] else [] } := by
  unfold requestCellInfo
  cases hreg : isGsmRegistered st <;> cases cellRet <;> simp [NetState.emit]

theorem requestCellInfo_systemStatus (cellRet : Bool) (st : NetState) :
    (requestCellInfo cellRet st).systemStatus = st.systemStatus := by
  rw [requestCellInfo_eq]

/-! ### Steps that touch neither the requests nor the guard -/

def IsRequest : NetAction → Prop
  | .startActive _ _ => True
  | _ => False

def IsGranted : NetAction → Prop
  | .startActive _ ret => ret = true
  | _ => False

def IsCallback : NetAction → Prop
  | .callback _ => True
  | _ => False

abbrev InFlight (st : NetState) : Prop := Outstanding IsGranted IsCallback st.trace
abbrev NoOverlappingRequests (st : NetState) : Prop :=
  NoOverlap IsGranted IsRequest IsCallback st.trace

theorem isRequest_of_isGranted (b : NetAction) (h : IsGranted b) : IsRequest b := by
  cases b <;> simp_all [IsGranted,IsRequest]

/-- The step adds no request and no callback to the trace and keeps the status. -/
structure Quiet (st st' : NetState) : Prop where
  networkStatus : st'.networkStatus = st.networkStatus
  trace : ∃ q, st'.trace = st.trace++q ∧ ∀ b ∈ q, ¬ IsRequest b ∧ ¬ IsCallback b

theorem Quiet.of_trace_eq {st st' : NetState} (hs : st'.networkStatus = st.networkStatus)
    (ht : st'.trace = st.trace) : Quiet st st' :=
  ⟨hs,[],by simp [ht],by simp⟩

theorem Quiet.inFlight {st st' : NetState} (h : Quiet st st') : InFlight st' ↔ InFlight st := by
  obtain ⟨-,q,htr,hq⟩ := h
  rw [InFlight,htr]
  exact outstanding_append_of_quiet isRequest_of_isGranted hq

theorem Quiet.noOverlappingRequests {st st' : NetState} (h : Quiet st st') :
    NoOverlappingRequests st' ↔ NoOverlappingRequests st := by
  obtain ⟨-,q,htr,hq⟩ := h
  rw [NoOverlappingRequests,htr]
  exact noOverlap_append_of_quiet hq

theorem eventHandler_quiet (st : NetState) (e : ApiEvent) : Quiet st (eventHandler st e) := by
  cases e with
  | networkCellInfo loc number =>
    refine Quiet.of_trace_eq ?_ ?_ <;>
      (simp only [eventHandler,networkCellInfoCallback]; split_ifs <;> rfl)
  | _ => exact Quiet.of_trace_eq rfl rfl

theorem Quiet.trans {st₁ st₂ st₃ : NetState} (h : Quiet st₁ st₂) (h' : Quiet st₂ st₃) :
    Quiet st₁ st₃ := by
  obtain ⟨hs,q,htr,hq⟩ := h
  obtain ⟨hs',q',htr',hq'⟩ := h'
  refine ⟨hs'.trans hs,q++q',by rw [htr',htr,List.append_assoc],fun b hb => ?_⟩
  rcases List.mem_append.1 hb with hb | hb
  · exact hq b hb
  · exact hq' b hb

theorem emit_quiet (st : NetState) {b : NetAction} (hb : ¬ IsRequest b ∧ ¬ IsCallback b) :
    Quiet st (st.emit b) :=
  ⟨rfl,[b],rfl,by simpa using hb⟩

theorem requestCellInfo_quiet (cellRet : Bool) (st : NetState) :
    Quiet st (requestCellInfo cellRet st) := by
  rw [requestCellInfo_eq]
  refine ⟨rfl,_,rfl,fun b hb => ?_⟩
  split_ifs at hb
  · obtain rfl := List.mem_singleton.1 hb
    simp [IsRequest,IsCallback]
  · cases hb

/-- Whether a monitor tick gets as far as `NetworkAttachActivate`. -/
def monitorActivates (st : NetState) : Bool := 0 < st.trackerloopTick && !isGsmActive st

theorem monitorConnection_of_activates (cfg : ApnSettings) (a : ModemAnswers) (now : ℕ)
    {st : NetState} (h : monitorActivates st = true) :
    monitorConnection cfg a now st = (networkAttachActivate cfg a st).1 := by
  simp_all [monitorActivates,monitorConnection]

theorem monitorConnection_quiet (cfg : ApnSettings) (a : ModemAnswers) (now : ℕ)
    {st : NetState} (h : monitorActivates st = false) :
    Quiet st (monitorConnection cfg a now st) := by
  unfold monitorConnection
  split_ifs with htick hact
  · exact emit_quiet st (by simp [IsRequest,IsCallback])
  · exact Quiet.of_trace_eq rfl rfl
  · simp_all [monitorActivates]
  · exact Quiet.of_trace_eq rfl rfl

/-! ### The three kinds of events -/

/-- The answers of the call that a monitor tick or `net activate` makes, if it makes one. -/
def attachCall (st : NetState) : NetEvent → Option ModemAnswers
  | .monitor _ a _ _ => if monitorActivates st then some a else none
  | .netActivate _ a => some a
  | _ => none

/-- The state in which a status callback calls `NetworkAttachActivate`, if it does. -/
def nestedCall (st : NetState) : NetworkStatus → Option NetState
  | .registered => some (gsmRegisteredOn st)
  | .attached => some (gsmActiveOff st)
  | .deactived => some (gsmActiveOff st)
  | _ => none

def NetEvent.IsStatusCallback : NetEvent → Prop
  | .statusCallback _ _ _ => True
  | _ => False

theorem netStep_attachCall {st : NetState} {e : NetEvent} {a : ModemAnswers}
    (h : a ∈ attachCall st e) :
    ∃ cfg, Quiet (networkAttachActivate cfg a st).1 (netStep st e) ∧
      (netStep st e).systemStatus = (networkAttachActivate cfg a st).1.systemStatus := by
  cases e with
  | monitor cfg a' now cellRet =>
    simp only [attachCall,Option.mem_def,Option.ite_none_right_eq_some,Option.some.injEq] at h
    obtain ⟨hmon,rfl⟩ := h
    refine ⟨cfg,?_⟩
    rw [← monitorConnection_of_activates cfg a' now hmon]
    exact ⟨requestCellInfo_quiet cellRet _,requestCellInfo_systemStatus cellRet _⟩
  | netActivate cfg a' =>
    obtain rfl : a' = a := by simpa [attachCall] using h
    exact ⟨cfg,Quiet.of_trace_eq rfl rfl,rfl⟩
  | statusCallback cfg a' status => simp [attachCall] at h
  | api e => simp [attachCall] at h
  | trackerLoop now => simp [attachCall] at h

theorem netStep_quiet {st : NetState} {e : NetEvent} (hcb : ¬ NetEvent.IsStatusCallback e)
    (h : attachCall st e = none) : Quiet st (netStep st e) := by
  cases e with
  | monitor cfg a now cellRet =>
    have hmon : monitorActivates st = false := by simpa [attachCall] using h
    exact (monitorConnection_quiet cfg a now hmon).trans (requestCellInfo_quiet cellRet _)
  | netActivate cfg a => simp [attachCall] at h
  | statusCallback cfg a status => exact absurd trivial hcb
  | api e => exact eventHandler_quiet st e
  | trackerLoop now => exact Quiet.of_trace_eq rfl rfl

/-- An event is a callback, a call of `NetworkAttachActivate`, or quiet. -/
theorem netStep_cases (st : NetState) (e : NetEvent) :
    (∃ cfg a status, e = .statusCallback cfg a status) ∨ (∃ a, a ∈ attachCall st e) ∨
      Quiet st (netStep st e) := by
  by_cases hcb : NetEvent.IsStatusCallback e
  · cases e with
    | statusCallback cfg a status => exact Or.inl ⟨cfg,a,status,rfl⟩
    | _ => exact absurd hcb (by simp [NetEvent.IsStatusCallback])
  · cases h : attachCall st e with
    | some a => exact Or.inr (Or.inl ⟨a,rfl⟩)
    | none => exact Or.inr (Or.inr (netStep_quiet hcb h))

/-- A callback that calls `NetworkAttachActivate` overwrites the status that the call left. -/
theorem networkUpdateStatus_nested {st st' : NetState} {status : NetworkStatus}
    (cfg : ApnSettings) (a : ModemAnswers) (h : st' ∈ nestedCall st status) :
    networkUpdateStatus cfg a status st =
      { (networkAttachActivate cfg a st').1 with networkStatus := status } := by
  cases status <;> simp_all [nestedCall,networkUpdateStatus,updateStatusWith]

theorem networkUpdateStatus_trace {st : NetState} {status : NetworkStatus}
    (cfg : ApnSettings) (a : ModemAnswers) (h : nestedCall st status = none) :
    (networkUpdateStatus cfg a status st).trace = st.trace := by
  cases status <;>
    simp_all [nestedCall,networkUpdateStatus,updateStatusWith,gsmActiveOn,gsmActiveOff,
      gsmRegisteredOff]

/-! ### Requests that overlap -/

/-- No two requests overlap, and while one is in flight the status says activating. -/
structure Guarded (st : NetState) : Prop where
  noOverlap : NoOverlappingRequests st
  activating : InFlight st → st.networkStatus = .activating

/-- A callback must not have its nested call start an activation that is accepted, since
the status is overwritten after it; any other call must not find the modem detached while
a request is in flight. -/
def KeepsGuard (st : NetState) : NetEvent → Prop
  | .statusCallback _ a status =>
    ∀ st' ∈ nestedCall st status, ¬ (CallActivates a st' ∧ a.startActiveRet = true)
  | e => ∀ a ∈ attachCall st e, InFlight st → ¬ CallAttaches a st

theorem networkInit_guarded : Guarded networkInit :=
  ⟨noOverlap_nil,fun h => absurd h not_outstanding_nil⟩

theorem attachActivate_noOverlap {st : NetState} (cfg : ApnSettings) (a : ModemAnswers)
    (h : Guarded st) : NoOverlappingRequests (networkAttachActivate cfg a st).1 := by
  rcases attachActivate_cases cfg a st with hatt | hact | ⟨hnot,hidle⟩
  · rw [attachActivate_attaches cfg hatt,NoOverlappingRequests,noOverlap_concat]
    exact ⟨h.noOverlap,by simp [IsRequest]⟩
  · obtain ⟨real,context,pending,heq⟩ := attachActivate_activates cfg hact
    rw [heq,NoOverlappingRequests,noOverlap_concat]
    exact ⟨h.noOverlap,fun _ hfl => hact.2.2.2.1 (h.activating hfl)⟩
  · rw [hidle]
    exact h.noOverlap

theorem attachActivate_activating {st : NetState} (cfg : ApnSettings) {a : ModemAnswers}
    (h : Guarded st) (hatt : InFlight st → ¬ CallAttaches a st)
    (hfl : InFlight (networkAttachActivate cfg a st).1) :
    (networkAttachActivate cfg a st).1.networkStatus = .activating := by
  rcases attachActivate_cases cfg a st with hatt' | hact | ⟨hnot,hidle⟩
  · rw [attachActivate_attaches cfg hatt',InFlight,outstanding_concat] at hfl
    rcases hfl with hgrant | ⟨hfl,-⟩
    · simp [IsGranted] at hgrant
    · exact absurd hatt' (hatt hfl)
  · obtain ⟨real,context,pending,heq⟩ := attachActivate_activates cfg hact
    rw [heq]
  · rw [hidle] at hfl ⊢
    exact h.activating hfl

theorem callback_guarded {st : NetState} (h : NoOverlappingRequests st) (status : NetworkStatus) :
    NoOverlappingRequests (st.emit (.callback status)) ∧
      ¬ InFlight (st.emit (.callback status)) := by
  constructor
  · exact noOverlap_concat.2 ⟨h,by simp [IsRequest]⟩
  · intro hfl
    rcases outstanding_concat.1 hfl with hgrant | ⟨-,hack⟩
    · simp [IsGranted] at hgrant
    · exact hack trivial

theorem nestedCall_trace {st st' : NetState} {status : NetworkStatus}
    (h : st' ∈ nestedCall st status) : st'.trace = st.trace := by
  cases status <;> simp [nestedCall] at h <;> subst h <;> rfl

/-- In a guarded state the next step makes no overlapping request, whatever it is. -/
theorem netStep_noOverlap {st : NetState} (h : Guarded st) (e : NetEvent) :
    NoOverlappingRequests (netStep st e) := by
  rcases netStep_cases st e with ⟨cfg,a,status,rfl⟩ | ⟨a,hcall⟩ | hquiet
  · obtain ⟨hno,hfl⟩ := callback_guarded h.noOverlap status
    cases hn : nestedCall (st.emit (.callback status)) status with
    | none =>
      rw [NoOverlappingRequests,netStep,networkUpdateStatus_trace cfg a hn]
      exact hno
    | some st' =>
      have htr := nestedCall_trace hn
      rw [netStep,networkUpdateStatus_nested cfg a hn]
      refine attachActivate_noOverlap cfg a ⟨?_,fun hfl' => absurd ?_ hfl⟩
      · rwa [NoOverlappingRequests,htr]
      · rwa [InFlight,htr] at hfl'
  · obtain ⟨cfg,hq,-⟩ := netStep_attachCall hcall
    exact hq.noOverlappingRequests.2 (attachActivate_noOverlap cfg a h)
  · exact hquiet.noOverlappingRequests.2 h.noOverlap

theorem keepsGuard_attachCall {st : NetState} {e : NetEvent} {a : ModemAnswers}
    (hcall : a ∈ attachCall st e) :
    KeepsGuard st e ↔ (InFlight st → ¬ CallAttaches a st) := by
  have hall : (∀ b ∈ attachCall st e, InFlight st → ¬ CallAttaches b st) ↔
      (InFlight st → ¬ CallAttaches a st) := by
    rw [Option.mem_def] at hcall
    simp [hcall]
  cases e with
  | statusCallback => simp [attachCall] at hcall
  | _ => exact hall

/-- The nested call of a callback starts from a trace without a request in flight, so after
it a request is in flight exactly when the call made one that was accepted. -/
theorem nestedCall_inFlight {st' : NetState} (cfg : ApnSettings) (a : ModemAnswers)
    (h : ¬ InFlight st') :
    InFlight (networkAttachActivate cfg a st').1 ↔
      CallActivates a st' ∧ a.startActiveRet = true := by
  rcases attachActivate_cases cfg a st' with hatt | hact | ⟨hnot,hidle⟩
  · have hnot : ¬ CallActivates a st' := fun hact => hact.2.2.1 hatt.2.2
    rw [attachActivate_attaches cfg hatt,InFlight,outstanding_concat]
    simp [h,hnot,IsGranted]
  · obtain ⟨real,context,pending,heq⟩ := attachActivate_activates cfg hact
    rw [heq,InFlight,outstanding_concat]
    simp [h,hact,IsGranted]
  · rw [hidle]
    simp [h,hnot]

theorem nestedCall_emit (st : NetState) (b : NetAction) (status : NetworkStatus) :
    nestedCall (st.emit b) status = (nestedCall st status).map (·.emit b) := by
  cases status <;> rfl

/-- After a callback a request is in flight exactly when its nested call made one that was
accepted. -/
theorem callback_inFlight {st : NetState} (h : NoOverlappingRequests st) (cfg : ApnSettings)
    (a : ModemAnswers) (status : NetworkStatus) :
    InFlight (netStep st (.statusCallback cfg a status)) ↔
      ∃ st' ∈ nestedCall st status, CallActivates a st' ∧ a.startActiveRet = true := by
  have hfl := (callback_guarded h status).2
  have hemit := nestedCall_emit st (.callback status) status
  cases hn : nestedCall st status with
  | none =>
    rw [hn,Option.map_none] at hemit
    rw [netStep,InFlight,networkUpdateStatus_trace cfg a hemit]
    simpa using hfl
  | some st' =>
    rw [hn,Option.map_some] at hemit
    have hfl' : ¬ InFlight (st'.emit (.callback status)) := by
      rwa [InFlight,nestedCall_trace hemit]
    rw [netStep,networkUpdateStatus_nested cfg a hemit]
    simpa using! nestedCall_inFlight cfg a hfl'

/-- A step that keeps the guard leads from a guarded state to a guarded state. -/
theorem netStep_guarded {st : NetState} {e : NetEvent} (h : Guarded st) (hk : KeepsGuard st e) :
    Guarded (netStep st e) := by
  refine ⟨netStep_noOverlap h e,fun hfl => ?_⟩
  rcases netStep_cases st e with ⟨cfg,a,status,rfl⟩ | ⟨a,hcall⟩ | hquiet
  · obtain ⟨st',hn,hact⟩ := (callback_inFlight h.noOverlap cfg a status).1 hfl
    exact absurd hact (hk st' hn)
  · obtain ⟨cfg,hq,-⟩ := netStep_attachCall hcall
    rw [hq.networkStatus]
    exact attachActivate_activating cfg h ((keepsGuard_attachCall hcall).1 hk) (hq.inFlight.1 hfl)
  · rw [hquiet.networkStatus]
    exact h.activating (hquiet.inFlight.1 hfl)

def acceptingModem : ModemAnswers := ⟨true,1,true,true,0,true⟩

def silentModem : ModemAnswers := ⟨false,0,false,false,0,false⟩

def activateNow : NetEvent := .netActivate ⟨[],[],[]⟩ acceptingModem

theorem activateNow_overlaps {st : NetState} (hreg : isGsmRegistered st = true)
    (hst : st.networkStatus ≠ .activating) (hfl : InFlight st) :
    ¬ NoOverlappingRequests (netStep st activateNow) := by
  have hact : CallActivates acceptingModem st := ⟨hreg,rfl,by decide,hst,rfl,rfl⟩
  obtain ⟨real,context,pending,heq⟩ := attachActivate_activates ⟨[],[],[]⟩ hact
  rw [activateNow,netStep,heq,NoOverlappingRequests,noOverlap_concat]
  exact fun h => h.2 trivial hfl

/-- A step that breaks the guard leaves the next `net activate` free to overlap. -/
theorem overlaps_of_not_keepsGuard {st : NetState} {e : NetEvent} (h : Guarded st)
    (hk : ¬ KeepsGuard st e) : ¬ NoOverlappingRequests (netStep (netStep st e) activateNow) := by
  cases hcall : attachCall st e with
  | some a =>
    obtain ⟨hfl,hatt⟩ := Classical.not_imp.1 ((keepsGuard_attachCall hcall).not.1 hk)
    rw [not_not] at hatt
    obtain ⟨cfg,hq,hsys⟩ := netStep_attachCall hcall
    refine activateNow_overlaps ?_ ?_ (hq.inFlight.2 ?_)
    · rw [isGsmRegistered,hsys]
      exact (attachActivate_isGsmRegistered cfg _ _).trans hatt.1
    · rw [hq.networkStatus,attachActivate_attaches cfg hatt]
      simp
    · rw [attachActivate_attaches cfg hatt,InFlight,outstanding_concat]
      exact Or.inr ⟨hfl,by simp [IsCallback]⟩
  | none =>
    cases e with
    | statusCallback cfg a status =>
      simp only [KeepsGuard,not_forall,not_not] at hk
      obtain ⟨st',hn,hact⟩ := hk
      have hstep : netStep st (.statusCallback cfg a status) =
          { (networkAttachActivate cfg a (st'.emit (.callback status))).1 with
            networkStatus := status } :=
        networkUpdateStatus_nested cfg a (by rw [nestedCall_emit,hn]; rfl)
      refine activateNow_overlaps ?_ ?_ ((callback_inFlight h.noOverlap cfg a status).2
        ⟨st',hn,hact⟩)
      · rw [hstep]
        exact (attachActivate_isGsmRegistered cfg _ _).trans hact.1.1
      · rw [hstep]
        rintro rfl
        simp [nestedCall] at hn
    | _ => simp [KeepsGuard,hcall] at hk

/-- In a run that keeps the guard at every step no two requests overlap, and a further event
keeps it exactly when nothing that can follow makes them overlap. -/
theorem noOverlappingRequests_run (es : List NetEvent)
    (hes : EverySteps KeepsGuard netStep networkInit es) :
    NoOverlappingRequests (run netStep networkInit es) ∧
      ∀ e, KeepsGuard (run netStep networkInit es) e ↔
        ∀ e', NoOverlappingRequests (run netStep networkInit (es++[e,e'])) := by
  have hinv : Guarded (run netStep networkInit es) :=
    run_invariant Guarded (fun s e hs hk => netStep_guarded hs hk) networkInit_guarded hes
  refine ⟨hinv.noOverlap,fun e => ?_⟩
  simp only [run_append,run_cons,run_nil]
  constructor
  · intro hk e'
    exact netStep_noOverlap (netStep_guarded hinv hk) e'
  · intro hall
    by_contra hk
    exact overlaps_of_not_keepsGuard hinv hk (hall activateNow)

theorem noOverlappingRequests_run_monitor :
    NoOverlappingRequests (run netStep networkInit
      [.statusCallback ⟨[],[],[]⟩ silentModem .registered,.trackerLoop 1,
        .monitor ⟨[],[],[]⟩ acceptingModem 2 true]) := by
  refine (noOverlappingRequests_run [.statusCallback ⟨[],[],[]⟩ silentModem .registered,
    .trackerLoop 1,.monitor ⟨[],[],[]⟩ acceptingModem 2 true] ⟨?_,?_,?_,trivial⟩).1
  · rintro st' - ⟨⟨-,hret,-⟩,-⟩
    simp [silentModem] at hret
  · simp [KeepsGuard,attachCall]
  · rintro a ha - ⟨-,-,hst⟩
    obtain ⟨-,rfl⟩ : _ ∧ acceptingModem = a := by simpa [attachCall] using ha
    simp [acceptingModem] at hst

/-- The callback that reports the registration requests an activation and then overwrites
the status, so `net activate` requests another one. -/
theorem registered_callback_overlaps :
    ¬ NoOverlappingRequests (run netStep networkInit
      [.statusCallback ⟨[],[],[]⟩ acceptingModem .registered,activateNow]) := by
  intro h
  obtain ⟨c,hc,-⟩ := h [.callback .registered] (.startActive ⟨[],[],[]⟩ true) []
    (.startActive ⟨lit "dummy_apn",[],[]⟩ true) [] (by decide) rfl trivial
  simp at hc

/-! ### After a refused request -/

def Emits (st : NetState) (e : NetEvent) (b : NetAction) : Prop :=
  ∃ new, (netStep st e).trace = st.trace++new ∧ b ∈ new

theorem not_emits_of_trace {st : NetState} {e : NetEvent} {q : List NetAction}
    (h : (netStep st e).trace = st.trace++q) {b : NetAction} (hb : b ∉ q) : ¬ Emits st e b := by
  rintro ⟨new,htr,hnew⟩
  obtain rfl : new = q := List.append_cancel_left (htr.symm.trans h)
  exact hb hnew

theorem not_emits_of_quiet {st : NetState} {e : NetEvent} (h : Quiet st (netStep st e))
    {b : NetAction} (hb : IsRequest b) : ¬ Emits st e b := by
  obtain ⟨-,q,htr,hq⟩ := h
  exact not_emits_of_trace htr fun hmem => (hq b hmem).1 hb

def FindsDetached (st : NetState) (e : NetEvent) : Prop := ∃ a ∈ attachCall st e, CallAttaches a st

/-- The event calls `NetworkAttachActivate` with the modem registered, attached and inactive. -/
def FindsInactive (st : NetState) (e : NetEvent) : Prop :=
  ∃ a ∈ attachCall st e, isGsmRegistered st = true ∧ a.attachRet = true ∧ a.attachStatus ≠ 0 ∧
    a.activeRet = true ∧ a.activeStatus = 0

/-- While the status says activating, an event that is neither a callback nor finds the
modem detached is quiet. -/
theorem netStep_quiet_of_activating {st : NetState} {e : NetEvent}
    (hst : st.networkStatus = .activating) (hcb : ¬ NetEvent.IsStatusCallback e)
    (hatt : ¬ FindsDetached st e) : Quiet st (netStep st e) := by
  rcases netStep_cases st e with ⟨cfg,a,status,rfl⟩ | ⟨a,hcall⟩ | hquiet
  · exact absurd trivial hcb
  · obtain ⟨cfg,hq,-⟩ := netStep_attachCall hcall
    rwa [attachActivate_of_activating cfg hst fun h => hatt ⟨a,hcall,h⟩] at hq
  · exact hquiet

/-- A refused request leaves the status at activating. -/
theorem netStep_refused {st : NetState} {e : NetEvent} {a : ModemAnswers}
    {context : PdpContext} (hcall : a ∈ attachCall st e)
    (href : Emits st e (.startActive context false)) :
    (netStep st e).networkStatus = .activating := by
  obtain ⟨cfg,hq,-⟩ := netStep_attachCall hcall
  rw [hq.networkStatus]
  rcases attachActivate_cases cfg a st with hatt | hact | ⟨-,hidle⟩
  · obtain ⟨-,q,htr,hnew⟩ := hq
    rw [attachActivate_attaches cfg hatt,List.append_assoc] at htr
    refine absurd href (not_emits_of_trace htr fun hmem => ?_)
    rcases List.mem_append.1 hmem with hmem | hmem
    · simp at hmem
    · exact (hnew _ hmem).1 trivial
  · obtain ⟨real,context,pending,heq⟩ := attachActivate_activates cfg hact
    rw [heq]
  · rw [hidle] at hq
    exact absurd href (not_emits_of_quiet hq trivial)

/-- The situation of a retry: a call of `NetworkAttachActivate` had its request refused,
no callback came since and no call found the modem detached, and now a call finds the modem
registered, attached and inactive. -/
structure RetryDue (st : NetState) (e : NetEvent) (mid : List NetEvent) (e' : NetEvent) :
    Prop where
  refused : (∃ a, a ∈ attachCall st e) ∧ ∃ context, Emits st e (.startActive context false)
  between : EverySteps (fun s m => ¬ NetEvent.IsStatusCallback m ∧ ¬ FindsDetached s m) netStep
    (netStep st e) mid
  ready : FindsInactive (run netStep (netStep st e) mid) e'

/-- The retry is never made. -/
theorem refused_request_blocks {st : NetState} {e : NetEvent} {mid : List NetEvent}
    {e' : NetEvent} (h : RetryDue st e mid e') :
    ∀ b, IsRequest b → ¬ Emits (run netStep (netStep st e) mid) e' b := by
  obtain ⟨⟨⟨a,hcall⟩,context,href⟩,hmid,a',hcall',hready⟩ := h
  have hst : (run netStep (netStep st e) mid).networkStatus = .activating :=
    run_invariant (fun s => s.networkStatus = .activating)
      (fun s m hs hm => (netStep_quiet_of_activating hs hm.1 hm.2).networkStatus.trans hs)
      (netStep_refused hcall href) hmid
  intro b hb
  refine not_emits_of_quiet (netStep_quiet_of_activating hst ?_ ?_) hb
  · rintro hcb
    cases e' <;> simp_all [NetEvent.IsStatusCallback,attachCall]
  · rintro ⟨a'',hcall'',hatt⟩
    obtain rfl := Option.mem_unique hcall' hcall''
    exact hready.2.2.1 hatt.2.2

def registeredState : NetState :=
  run netStep networkInit [.statusCallback ⟨[],[],[]⟩ silentModem .registered]

def refusingModem : ModemAnswers := ⟨true,1,true,true,0,false⟩

theorem retryDue_registeredState :
    RetryDue registeredState (.netActivate ⟨[],[],[]⟩ refusingModem) [] activateNow :=
  ⟨⟨⟨refusingModem,rfl⟩,⟨[],[],[]⟩,[.startActive ⟨[],[],[]⟩ false],by decide,by simp⟩,trivial,
    acceptingModem,rfl,by decide⟩

theorem refused_request_blocks_netActivate :
    ¬ Emits (run netStep (netStep registeredState (.netActivate ⟨[],[],[]⟩ refusingModem)) [])
      activateNow (.startActive ⟨[],[],[]⟩ true) :=
  refused_request_blocks retryDue_registeredState _ (by simp [IsRequest])

/-- A second `net activate` right after a refused one makes no request. -/
theorem refused_netActivate_not_retried :
    ¬ ∀ (es : List NetEvent) (e : NetEvent) (mid : List NetEvent) (e' : NetEvent),
      RetryDue (run netStep networkInit es) e mid e' →
      ∃ b, IsRequest b ∧ Emits (run netStep (netStep (run netStep networkInit es) e) mid) e' b := by
  intro h
  obtain ⟨b,-,hb⟩ := h _ _ _ _ retryDue_registeredState
  exact not_emits_of_trace (q := []) (by decide) (by simp) hb

end NetworkActivation
end A9GTracker
