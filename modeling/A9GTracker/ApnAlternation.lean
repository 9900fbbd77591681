import A9GTracker.ConfigCommands
import A9GTracker.NetworkActivation

/-! The workaround for activating the same APN twice, over runs of the tracker with its
console: the contexts that are requested, one after the other. -/
namespace A9GTracker
namespace ApnAlternation

open CString ConfigStore ConfigFile ConfigCommands Network NetworkActivation Runs

/-! ### What has been requested -/

/-- The contexts handed to `Network_StartActive`, oldest first. -/
def activations (trace : List NetAction) : List PdpContext :=
  trace.filterMap fun b => match b with
    | .startActive context _ => some context
    | _ => none

theorem activations_append_of_quiet {p q : List NetAction} (hq : ∀ b ∈ q, ¬ IsRequest b) :
    activations (p++q) = activations p := by
  have hnone : activations q = [] := by
    refine List.filterMap_eq_nil_iff.2 fun b hb => ?_
    cases b with
    | startActive context ret => exact absurd trivial (hq _ hb)
    | _ => rfl
  rw [activations,List.filterMap_append,← activations,← activations,hnone,List.append_nil]

/-- At most one context is requested, and then it is the one whose turn it is. -/
structure TakesTurn (cfg : ApnSettings) (st st' : NetState) : Prop where
  dummyContext : st'.dummyContext = st.dummyContext
  requested : (activations st'.trace = activations st.trace ∧
      st'.apnWorkaroundPending = st.apnWorkaroundPending) ∨
    (activations st'.trace = activations st.trace++[dueContext cfg st] ∧
      st'.apnWorkaroundPending = !st.apnWorkaroundPending)

theorem TakesTurn.of_quiet {cfg : ApnSettings} {st st' : NetState} (h : Quiet st st')
    (hdummy : st'.dummyContext = st.dummyContext)
    (hpending : st'.apnWorkaroundPending = st.apnWorkaroundPending) : TakesTurn cfg st st' := by
  obtain ⟨-,q,htr,hq⟩ := h
  refine ⟨hdummy,Or.inl ⟨?_,hpending⟩⟩
  rw [htr]
  exact activations_append_of_quiet fun b hb => (hq b hb).1

theorem attachActivate_takesTurn (cfg : ApnSettings) (a : ModemAnswers) (st : NetState) :
    TakesTurn cfg st (networkAttachActivate cfg a st).1 := by
  rcases attachActivate_cases cfg a st with hatt | hact | ⟨-,hidle⟩
  · rw [attachActivate_attaches cfg hatt]
    refine ⟨rfl,Or.inl ⟨?_,rfl⟩⟩
    exact activations_append_of_quiet (by simp [IsRequest])
  · obtain ⟨real,heq⟩ := attachActivate_due cfg hact
    rw [heq]
    refine ⟨rfl,Or.inr ⟨?_,rfl⟩⟩
    exact List.filterMap_append
  · rw [hidle]
    exact ⟨rfl,Or.inl ⟨rfl,rfl⟩⟩

theorem networkUpdateStatus_takesTurn (cfg : ApnSettings) (a : ModemAnswers)
    (status : NetworkStatus) (st : NetState) :
    TakesTurn cfg st (networkUpdateStatus cfg a status st) := by
  -- the call starts from a state with another status byte, and the status is overwritten after it
  have hcall : ∀ systemStatus, TakesTurn cfg st
      { (networkAttachActivate cfg a { st with systemStatus := systemStatus }).1 with
        networkStatus := status } := by
    intro systemStatus
    obtain ⟨hdummy,hreq⟩ := attachActivate_takesTurn cfg a { st with systemStatus := systemStatus }
    exact ⟨hdummy,hreq⟩
  cases status with
  | registered | attached | deactived => exact hcall _
  | _ => exact ⟨rfl,Or.inl ⟨rfl,rfl⟩⟩

theorem networkMonitor_takesTurn (cfg : ApnSettings) (a : ModemAnswers) (now : ℕ)
    (cellRet : Bool) (st : NetState) : TakesTurn cfg st (networkMonitor cfg a now cellRet st) := by
  have hconnection : TakesTurn cfg st (monitorConnection cfg a now st) := by
    unfold monitorConnection
    split_ifs
    · exact .of_quiet (emit_quiet st (by simp [IsRequest,IsCallback])) rfl rfl
    · exact ⟨rfl,Or.inl ⟨rfl,rfl⟩⟩
    · exact attachActivate_takesTurn cfg a st
    · exact ⟨rfl,Or.inl ⟨rfl,rfl⟩⟩
  have heq := requestCellInfo_eq cellRet (monitorConnection cfg a now st)
  obtain ⟨-,q,htr,hq⟩ := requestCellInfo_quiet cellRet (monitorConnection cfg a now st)
  refine ⟨(congrArg NetState.dummyContext heq).trans hconnection.dummyContext,?_⟩
  rw [networkMonitor,htr,activations_append_of_quiet fun b hb => (hq b hb).1,heq]
  exact hconnection.requested

theorem eventHandler_takesTurn (cfg : ApnSettings) (st : NetState) (e : ApiEvent) :
    TakesTurn cfg st (eventHandler st e) := by
  cases e with
  | networkCellInfo loc number =>
    refine .of_quiet (eventHandler_quiet st _) ?_ ?_ <;>
      (simp only [eventHandler,networkCellInfoCallback]; split_ifs <;> rfl)
  | _ => exact ⟨rfl,Or.inl ⟨rfl,rfl⟩⟩

/-! ### The tracker with its console -/

structure Tracker (F : Type) where
  device : Device F
  net : NetState

def apnSettings {F : Type} (d : Device F) : ApnSettings :=
  ⟨d.config.apn.text,d.config.apnUser.text,d.config.apnPass.text⟩

/-- What the firmware and the console bring, with the answers of the modem. -/
inductive TrackerEvent
  | statusCallback (a : ModemAnswers) (status : NetworkStatus)
  | monitor (a : ModemAnswers) (now : ℕ) (cellRet : Bool)
  | uart (save : SaveAnswers) (a : ModemAnswers) (data : List UInt8)
  | api (e : ApiEvent)
  | trackerLoop (now : ℕ)

variable {F : Type} [FloatLib F]

def runNetHandler (cfg : ApnSettings) (a : ModemAnswers) (st : NetState) : UartReply → NetState
  | .other .netActivate _ => netStep st (.netActivate cfg a)
  | .other .netDeactivate _ => st.emit .startDeactive
  | _ => st

def trackerStep (t : Tracker F) : TrackerEvent → Tracker F
  | .statusCallback a status =>
    { t with net := netStep t.net (.statusCallback (apnSettings t.device) a status) }
  | .monitor a now cellRet =>
    { t with net := netStep t.net (.monitor (apnSettings t.device) a now cellRet) }
  | .uart save a data =>
    let r := handleUartCommand save data t.device
    ⟨r.1,runNetHandler (apnSettings r.1) a t.net r.2⟩
  | .api e => { t with net := netStep t.net (.api e) }
  | .trackerLoop now => { t with net := netStep t.net (.trackerLoop now) }

/-- A console line that reaches a handler other than `set` leaves the configuration alone. -/
theorem handleUartCommand_other {save : SaveAnswers} {data : List UInt8} {d : Device F}
    {c : UartCmd} {arg : List UInt8} (h : (handleUartCommand save data d).2 = .other c arg) :
    (handleUartCommand save data d).1 = d := by
  unfold handleUartCommand at h ⊢
  cases hdisp : dispatch (cstring data) with
  | none => rfl
  | some r =>
    obtain ⟨c',arg'⟩ := r
    rw [hdisp,runHandler] at h
    rw [runHandler]
    split_ifs at h ⊢
    rfl

theorem trackerStep_takesTurn (t : Tracker F) (e : TrackerEvent) :
    TakesTurn (apnSettings t.device) t.net (trackerStep t e).net := by
  cases e with
  | statusCallback a status =>
    obtain ⟨hdummy,hreq⟩ := networkUpdateStatus_takesTurn (apnSettings t.device) a status
      (t.net.emit (.callback status))
    have hcallback : activations (t.net.emit (.callback status)).trace = activations t.net.trace :=
      activations_append_of_quiet (by simp [IsRequest])
    rw [hcallback] at hreq
    exact ⟨hdummy,hreq⟩
  | monitor a now cellRet => exact networkMonitor_takesTurn _ a now cellRet t.net
  | uart save a data =>
    simp only [trackerStep]
    cases hreply : (handleUartCommand save data t.device).2 with
    | other c arg =>
      rw [handleUartCommand_other hreply]
      cases c with
      | netActivate => exact attachActivate_takesTurn _ a t.net
      | netDeactivate => exact .of_quiet (emit_quiet _ (by simp [IsRequest,IsCallback])) rfl rfl
      | _ => exact ⟨rfl,Or.inl ⟨rfl,rfl⟩⟩
    | _ => exact ⟨rfl,Or.inl ⟨rfl,rfl⟩⟩
  | api e => exact eventHandler_takesTurn _ t.net e
  | trackerLoop now => exact ⟨rfl,Or.inl ⟨rfl,rfl⟩⟩

/-! ### Every run -/

def boot (d : Device F) : Tracker F := ⟨d,networkInit⟩

def requests (t : Tracker F) (e : TrackerEvent) : ℕ :=
  (activations (trackerStep t e).net.trace).length-(activations t.net.trace).length

def storedAtRequests : Tracker F → List TrackerEvent → List ApnSettings
  | _, [] => []
  | t, e::es => List.replicate (requests t e) (apnSettings t.device)++
      storedAtRequests (trackerStep t e) es

def dummyContext : PdpContext := ⟨lit "dummy_apn",[],[]⟩

/-- Configured and dummy contexts in turn, the configured ones with what is stored. -/
def alternate : Bool → List ApnSettings → List PdpContext
  | _, [] => []
  | false, cfg::cfgs => ⟨cfg.apn,cfg.apnUser,cfg.apnPass⟩::alternate true cfgs
  | true, _::cfgs => dummyContext::alternate false cfgs

omit [FloatLib F] in
theorem text_take {n : ℕ} (hn : n ≤ 63) (a : CharArray n) : a.text.take 63 = a.text := by
  have hlen : a.text.length ≤ a.bytes.length := (List.takeWhile_sublist _).length_le
  rw [a.size] at hlen
  exact List.take_of_length_le (hlen.trans hn)

omit [FloatLib F] in
theorem alternate_due {st : NetState} (hdummy : st.dummyContext = dummyContext) (d : Device F)
    (cfgs : List ApnSettings) :
    alternate st.apnWorkaroundPending (apnSettings d::cfgs) =
      dueContext (apnSettings d) st::alternate (!st.apnWorkaroundPending) cfgs := by
  unfold dueContext
  cases st.apnWorkaroundPending with
  | true => rw [if_pos rfl,hdummy]; rfl
  | false =>
    simp [alternate,setApnContext,apnSettings,text_take]

theorem run_activations (t : Tracker F) (es : List TrackerEvent)
    (hdummy : t.net.dummyContext = dummyContext) :
    activations (run trackerStep t es).net.trace =
      activations t.net.trace++alternate t.net.apnWorkaroundPending (storedAtRequests t es) := by
  induction es generalizing t with
  | nil =>
    cases t.net.apnWorkaroundPending <;> exact (List.append_nil _).symm
  | cons e es ih =>
    obtain ⟨hkept,hturn⟩ := trackerStep_takesTurn t e
    rw [run_cons,ih (trackerStep t e) (hkept.trans hdummy),storedAtRequests,requests]
    rcases hturn with ⟨hsame,hpending⟩ | ⟨hnew,hpending⟩
    · rw [hsame,hpending,Nat.sub_self,List.replicate_zero,List.nil_append]
    · rw [hnew,hpending,List.length_append,List.length_singleton,Nat.add_sub_cancel_left,
        List.replicate_one,List.singleton_append,alternate_due hdummy,List.append_assoc,
        List.singleton_append]

/-- In every run the contexts requested are configured and dummy ones in turn, and a configured
one carries what is stored at the moment of its request. -/
theorem startActive_alternates (d : Device F) (es : List TrackerEvent) :
    activations (run trackerStep (boot d) es).net.trace =
      alternate false (storedAtRequests (boot d) es) :=
  run_activations (boot d) es rfl

end ApnAlternation
end A9GTracker
