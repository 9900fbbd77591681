import A9GTracker.NetworkActivation

/-! The flag `GSM_ACTIVE` over runs: what clears it, and which reports of lost service
leave it standing. -/
namespace A9GTracker
namespace GsmActive

open Network NetworkActivation Runs

def ReportsLoss : NetEvent → Prop
  | .statusCallback _ _ status => status ∈ [.offline,.registering,.detached,.deactived,
      .attachFailed,.activateFailed]
  | .api e => e = .noSimcard ∨ e = .simcardDrop ∨ e = .networkRegisterDenied ∨
      e = .networkRegisterNo
  | _ => False

def ClearsActive : NetEvent → Prop
  | .statusCallback _ _ status => status ∈ [.detached,.deactived,.attachFailed]
  | .api e => e = .noSimcard ∨ e = .simcardDrop
  | _ => False

def ReportsActivated : NetEvent → Prop
  | .statusCallback _ _ status => status = .activated
  | _ => False

theorem attachActivate_inactive {a : ModemAnswers} {st : NetState} (cfg : ApnSettings)
    (h : isGsmActive st = false) : isGsmActive (networkAttachActivate cfg a st).1 = false := by
  rcases attachActivate_outcome cfg a st with hidle | ⟨status,real,pending,b,-,heq⟩
  · rw [hidle]
    exact h
  · rw [heq]
    exact isGsmActive_gsmActiveOff st

theorem networkUpdateStatus_inactive {st : NetState} {status : NetworkStatus} (cfg : ApnSettings)
    (a : ModemAnswers) (hst : status ≠ .activated) (h : isGsmActive st = false) :
    isGsmActive (networkUpdateStatus cfg a status st) = false := by
  cases status with
  | registered =>
    exact attachActivate_inactive cfg ((isGsmActive_gsmRegisteredOn st).trans h)
  | registering => exact (isGsmActive_gsmRegisteredOff st).trans h
  | attached | deactived => exact attachActivate_inactive cfg (isGsmActive_gsmActiveOff st)
  | detached | attaching | activating | attachFailed => exact isGsmActive_gsmActiveOff st
  | offline | activateFailed | other _ => exact h
  | activated => exact absurd rfl hst

theorem eventHandler_inactive {st : NetState} (e : ApiEvent) (h : isGsmActive st = false) :
    isGsmActive (eventHandler st e) = false := by
  cases e with
  | noSimcard | simcardDrop => exact isGsmActive_gsmActiveOff st
  | networkRegisterDenied | networkRegisterNo =>
    exact (isGsmActive_gsmRegisteredOff st).trans h
  | networkCellInfo loc number =>
    simp only [eventHandler,networkCellInfoCallback]
    split_ifs <;> exact h
  | systemReady => exact (isFlag_flagOn_of_disjoint _ (by decide)).trans h
  | gpsUartReceived => exact (isFlag_flagOn_of_disjoint _ (by decide)).trans h
  | networkDetached | other _ => exact h

theorem networkMonitor_inactive {st : NetState} (cfg : ApnSettings) (a : ModemAnswers) (now : ℕ)
    (cellRet : Bool) (h : isGsmActive st = false) :
    isGsmActive (networkMonitor cfg a now cellRet st) = false := by
  rw [networkMonitor,isGsmActive,requestCellInfo_systemStatus]
  unfold monitorConnection
  split_ifs with htick hact
  · simp [h] at hact
  · simp [h] at hact
  · exact attachActivate_inactive cfg h
  · exact h

theorem netStep_inactive {st : NetState} {e : NetEvent} (h : isGsmActive st = false)
    (he : ¬ ReportsActivated e) : isGsmActive (netStep st e) = false := by
  cases e with
  | statusCallback cfg a status => exact networkUpdateStatus_inactive cfg a he h
  | monitor cfg a now cellRet => exact networkMonitor_inactive cfg a now cellRet h
  | netActivate cfg a => exact attachActivate_inactive cfg h
  | api e => exact eventHandler_inactive e h
  | trackerLoop now => exact h

theorem netStep_clearsActive {st : NetState} {e : NetEvent} (he : ClearsActive e) :
    isGsmActive (netStep st e) = false := by
  cases e with
  | statusCallback cfg a status =>
    cases status <;> simp [ClearsActive] at he
    · exact isGsmActive_gsmActiveOff _
    · exact attachActivate_inactive cfg (isGsmActive_gsmActiveOff _)
    · exact isGsmActive_gsmActiveOff _
  | api e =>
    rcases he with rfl | rfl
    · exact isGsmActive_gsmActiveOff st
    · exact isGsmActive_gsmActiveOff st
  | _ => exact absurd he (by simp [ClearsActive])

theorem netStep_loss_active {st : NetState} {e : NetEvent} (he : ReportsLoss e)
    (hc : ¬ ClearsActive e) : isGsmActive (netStep st e) = isGsmActive st := by
  cases e with
  | statusCallback cfg a status =>
    cases status <;> simp [ReportsLoss,ClearsActive] at he hc
    · rfl
    · exact isGsmActive_gsmRegisteredOff _
    · rfl
  | api e =>
    rcases he with rfl | rfl | rfl | rfl
    · exact absurd (Or.inl rfl) hc
    · exact absurd (Or.inr rfl) hc
    · exact isGsmActive_gsmRegisteredOff st
    · exact isGsmActive_gsmRegisteredOff st
  | _ => exact absurd he (by simp [ReportsLoss])

/-- After a report of lost service the flag stays clear until the next activated callback,
whatever happens in between, exactly when it was clear before the report or the arm of the
report clears it. -/
theorem isGsmActive_after_loss (es : List NetEvent) (e : NetEvent) (he : ReportsLoss e) :
    (∀ es', (∀ e' ∈ es', ¬ ReportsActivated e') →
        isGsmActive (run netStep networkInit (es++e::es')) = false) ↔
      isGsmActive (run netStep networkInit es) = false ∨ ClearsActive e := by
  simp only [run_append,run_cons]
  set st := run netStep networkInit es with hst
  constructor
  · intro h
    by_cases hc : ClearsActive e
    · exact Or.inr hc
    · have hnow := h [] (by simp)
      rw [run_nil,netStep_loss_active he hc] at hnow
      exact Or.inl hnow
  · intro h es' hes'
    have hstep : isGsmActive (netStep st e) = false := by
      rcases h with h | hc
      · refine netStep_inactive h fun hact => ?_
        cases e <;> simp_all [ReportsActivated,ReportsLoss]
      · exact netStep_clearsActive hc
    exact run_invariant (fun s => isGsmActive s = false) (fun s e' hs he' => netStep_inactive hs he')
      hstep (everySteps_of_forall hes')

theorem isGsmActive_after_loss_detached :
    isGsmActive (run netStep networkInit
      ([.statusCallback ⟨[],[],[]⟩ silentModem .activated]++
        .statusCallback ⟨[],[],[]⟩ silentModem .detached::
          [.statusCallback ⟨[],[],[]⟩ silentModem .registered])) = false :=
  (isGsmActive_after_loss [.statusCallback ⟨[],[],[]⟩ silentModem .activated]
    (.statusCallback ⟨[],[],[]⟩ silentModem .detached) (by simp [ReportsLoss])).2
    (Or.inr (by simp [ClearsActive])) _ (by simp [ReportsActivated])

/-- The flag survives the report that the network is offline. -/
theorem isGsmActive_survives_offline :
    ¬ ∀ (es : List NetEvent) (e : NetEvent), ReportsLoss e → ∀ es',
      (∀ e' ∈ es', ¬ ReportsActivated e') →
        isGsmActive (run netStep networkInit (es++e::es')) = false := by
  intro h
  have hactive := h [.statusCallback ⟨[],[],[]⟩ silentModem .activated]
    (.statusCallback ⟨[],[],[]⟩ silentModem .offline) (by simp [ReportsLoss]) [] (by simp)
  exact absurd hactive (by decide)

end GsmActive
end A9GTracker
