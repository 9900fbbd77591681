import A9GTracker.NetworkActivation

/-! The watchdog of `NetworkMonitor`. It compares two readings of a clock that the network
can set back in between, and takes a clock that was set back for a connection that is stuck. -/
namespace A9GTracker
namespace Watchdog

open Network NetworkActivation Runs

/-! ### The stored reading -/

/-- What `g_trackerloop_tick` is set to in a run, if it is set at all. -/
def lastStored (es : List NetEvent) : Option ℕ :=
  es.foldl (fun stored e => match e with
    | .trackerLoop now => some now
    | _ => stored) none

theorem requestCellInfo_trackerloopTick (cellRet : Bool) (st : NetState) :
    (requestCellInfo cellRet st).trackerloopTick = st.trackerloopTick := by
  rw [requestCellInfo_eq]

theorem netStep_trackerloopTick (st : NetState) (e : NetEvent) :
    (netStep st e).trackerloopTick = match e with
      | .trackerLoop now => now
      | _ => st.trackerloopTick := by
  cases e with
  | statusCallback cfg a status =>
    exact (networkUpdateStatus_sameRecords cfg a status (st.emit (.callback status))).trackerloopTick
  | monitor cfg a now cellRet =>
    exact (requestCellInfo_trackerloopTick cellRet _).trans
      (monitorConnection_sameRecords cfg a now st).trackerloopTick
  | netActivate cfg a => exact (attachActivate_sameRecords cfg a st).trackerloopTick
  | api e =>
    cases e with
    | networkCellInfo loc number =>
      simp only [netStep,eventHandler,networkCellInfoCallback]
      split_ifs <;> rfl
    | _ => rfl
  | trackerLoop now => rfl

theorem run_trackerloopTick (es : List NetEvent) :
    (run netStep networkInit es).trackerloopTick = (lastStored es).getD 0 := by
  induction es using List.reverseRecOn with
  | nil => rfl
  | append_singleton es e ih =>
    rw [run_append,run_cons,run_nil,netStep_trackerloopTick,lastStored,List.foldl_append,
      List.foldl_cons,List.foldl_nil,← lastStored]
    cases e with
    | trackerLoop now => rfl
    | _ => exact ih

/-! ### When the network is deactivated -/

def elapsed (now tick : ℕ) : ℕ := (((now : ℤ)-tick) % 4294967296).toNat

theorem attachActivate_deactives (cfg : ApnSettings) (a : ModemAnswers) (st : NetState) :
    ∃ q, (networkAttachActivate cfg a st).1.trace = st.trace++q ∧ .startDeactive ∉ q := by
  rcases attachActivate_outcome cfg a st with hidle | ⟨status,real,pending,b,hb,heq⟩
  · rw [hidle]
    exact ⟨[],(List.append_nil _).symm,List.not_mem_nil⟩
  · rw [heq]
    exact ⟨[b],rfl,by simpa using hb.symm⟩

theorem requestCellInfo_trace (cellRet : Bool) (st : NetState) :
    ∃ q, (requestCellInfo cellRet st).trace = st.trace++q ∧ .startDeactive ∉ q := by
  rw [requestCellInfo_eq]
  refine ⟨_,rfl,?_⟩
  split_ifs <;> simp

def Fires (st : NetState) (now : ℕ) : Prop :=
  0 < st.trackerloopTick ∧ isGsmActive st = true ∧ 20 < elapsed now st.trackerloopTick

theorem emits_monitor_iff (st : NetState) (cfg : ApnSettings) (a : ModemAnswers) (now : ℕ)
    (cellRet : Bool) : Emits st (.monitor cfg a now cellRet) .startDeactive ↔ Fires st now := by
  obtain ⟨q,hq,hnot⟩ := requestCellInfo_trace cellRet (monitorConnection cfg a now st)
  have htrace : (netStep st (.monitor cfg a now cellRet)).trace =
      (monitorConnection cfg a now st).trace++q := hq
  by_cases hfires : Fires st now
  · refine iff_of_true ⟨.startDeactive::q,?_,by simp⟩ hfires
    have hstuck : 20 < (((now : ℤ)-st.trackerloopTick) % 4294967296).toNat := hfires.2.2
    rw [htrace,monitorConnection,if_pos hfires.1,if_pos hfires.2.1,if_pos hstuck]
    simp [NetState.emit]
  · refine iff_of_false ?_ hfires
    have hmonitor : ∃ r, (monitorConnection cfg a now st).trace = st.trace++r ∧
        .startDeactive ∉ r := by
      unfold monitorConnection
      split_ifs with htick hactive hstuck
      · exact absurd ⟨htick,hactive,hstuck⟩ hfires
      · exact ⟨[],(List.append_nil _).symm,List.not_mem_nil⟩
      · exact attachActivate_deactives cfg a st
      · exact ⟨[],(List.append_nil _).symm,List.not_mem_nil⟩
    obtain ⟨r,hr,hnot'⟩ := hmonitor
    rw [hr,List.append_assoc] at htrace
    exact not_emits_of_trace htrace fun h => (List.mem_append.1 h).elim hnot' hnot

/-! ### Every run -/

def reading : NetEvent → Option ℕ
  | .monitor _ _ now _ => some now
  | .trackerLoop now => some now
  | _ => none

/-- A monitor tick behind these events deactivates the network only if the stored reading is
more than 20 seconds old. -/
def DeactivatesStuck (pre : List NetEvent) (e : NetEvent) : Prop :=
  ∀ cfg a now cellRet, e = .monitor cfg a now cellRet →
    Emits (run netStep networkInit pre) e .startDeactive → ∃ stored ∈ lastStored pre, stored+20 < now

/-- A monitor tick with the network active does not find the clock behind the stored reading,
unless the difference is within 20 seconds of the range of the clock. -/
def ClockKept (pre : List NetEvent) (e : NetEvent) : Prop :=
  ∀ cfg a now cellRet, e = .monitor cfg a now cellRet →
    isGsmActive (run netStep networkInit pre) = true → ∀ stored ∈ lastStored pre,
      0 < stored → now < stored → now+4294967276 ≤ stored

theorem deactivatesStuck_iff {pre : List NetEvent} {e : NetEvent}
    (hpre : ∀ e' ∈ pre, ∀ t ∈ reading e', t < 4294967296)
    (he : ∀ t ∈ reading e, t < 4294967296) : DeactivatesStuck pre e ↔ ClockKept pre e := by
  have hstored : ∀ stored ∈ lastStored pre, stored < 4294967296 := by
    induction pre using List.reverseRecOn with
    | nil =>
      intro stored h
      cases h
    | append_singleton pre e' ih =>
      intro stored h
      rw [lastStored,List.foldl_append,List.foldl_cons,List.foldl_nil,← lastStored] at h
      cases e' with
      | trackerLoop now =>
        obtain rfl : now = stored := Option.some.inj h
        exact hpre (.trackerLoop now) (by simp) now rfl
      | _ => exact ih (fun e'' he'' => hpre e'' (by simp [he''])) stored h
  have hfires : ∀ now, Fires (run netStep networkInit pre) now ↔
      isGsmActive (run netStep networkInit pre) = true ∧
        ∃ stored ∈ lastStored pre, 0 < stored ∧ 20 < elapsed now stored := by
    intro now
    rw [Fires,run_trackerloopTick]
    cases lastStored pre with
    | none => simp
    | some stored => simp [and_left_comm]
  constructor
  · intro h cfg a now cellRet heq hactive stored hmem hpos hback
    have hnow : now < 4294967296 := he now (by rw [heq]; rfl)
    by_contra hfar
    have hlarge : 20 < elapsed now stored := by
      unfold elapsed
      have := hstored stored hmem
      omega
    have hemits : Emits (run netStep networkInit pre) e .startDeactive := by
      rw [heq,emits_monitor_iff,hfires]
      exact ⟨hactive,stored,hmem,hpos,hlarge⟩
    obtain ⟨stored',hmem',hlate⟩ := h cfg a now cellRet heq hemits
    obtain rfl := Option.mem_unique hmem hmem'
    omega
  · intro h cfg a now cellRet heq hemits
    have hnow : now < 4294967296 := he now (by rw [heq]; rfl)
    rw [heq,emits_monitor_iff,hfires] at hemits
    obtain ⟨hactive,stored,hmem,hpos,hlarge⟩ := hemits
    refine ⟨stored,hmem,?_⟩
    have hkept := h cfg a now cellRet heq hactive stored hmem hpos
    have hlt := hstored stored hmem
    unfold elapsed at hlarge
    omega

/-- In a run with readings of 32 bits every tick deactivates a stuck tracker only, exactly
when at no tick with the network active the clock is behind the stored reading. -/
theorem deactivates_only_stuck_iff (es : List NetEvent)
    (hes : ∀ e ∈ es, ∀ t ∈ reading e, t < 4294967296) :
    (∀ pre e post, es = pre++e::post → DeactivatesStuck pre e) ↔
      ∀ pre e post, es = pre++e::post → ClockKept pre e := by
  have hiff : ∀ pre e post, es = pre++e::post → (DeactivatesStuck pre e ↔ ClockKept pre e) := by
    intro pre e post heq
    subst heq
    exact deactivatesStuck_iff (fun e' he' => hes e' (by simp [he'])) (hes e (by simp))
  constructor
  · exact fun h pre e post heq => (hiff pre e post heq).1 (h pre e post heq)
  · exact fun h pre e post heq => (hiff pre e post heq).2 (h pre e post heq)

def activeRun : List NetEvent :=
  [.statusCallback ⟨[],[],[]⟩ silentModem .activated,.trackerLoop 1000]

theorem deactivates_only_stuck_late :
    DeactivatesStuck activeRun (.monitor ⟨[],[],[]⟩ silentModem 1030 true) := by
  refine (deactivates_only_stuck_iff (activeRun++[.monitor ⟨[],[],[]⟩ silentModem 1030 true])
    ?_).2 ?_ activeRun _ [] rfl
  · simp [activeRun,reading]
  · rintro pre e post heq cfg a now cellRet rfl hactive stored hmem hpos hback
    rcases pre with _ | ⟨x,_ | ⟨y,_ | ⟨z,pre⟩⟩⟩
    · simp [activeRun] at heq
    · simp [activeRun] at heq
    · simp only [activeRun,List.cons_append,List.nil_append,List.cons.injEq] at heq
      obtain ⟨rfl,rfl,htick,-⟩ := heq
      obtain ⟨-,-,rfl,-⟩ := NetEvent.monitor.inj htick
      obtain rfl : 1000 = stored := Option.some.inj hmem
      omega
    · simp [activeRun] at heq

/-- A clock that was set back by a second has the network deactivated. -/
theorem clock_set_back_deactivates :
    ¬ ∀ es : List NetEvent, (∀ e ∈ es, ∀ t ∈ reading e, t < 4294967296) →
      ∀ pre e post, es = pre++e::post → DeactivatesStuck pre e := by
  intro h
  have hstuck := h (activeRun++[.monitor ⟨[],[],[]⟩ silentModem 999 true])
    (by simp [activeRun,reading]) activeRun _ [] rfl ⟨[],[],[]⟩ silentModem 999 true rfl
    ((emits_monitor_iff _ _ _ _ _).2 ⟨by decide,by decide,by decide⟩)
  obtain ⟨stored,hmem,hlate⟩ := hstuck
  obtain rfl : 1000 = stored := Option.some.inj hmem
  omega

end Watchdog
end A9GTracker
