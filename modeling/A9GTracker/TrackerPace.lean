import A9GTracker.Watchdog

/-! The loop of `gps_TrackerTask` beside the watchdog of `NetworkMonitor`. Both read one clock of
seconds that is not set back, and `OS_Sleep` ends on time. -/
namespace A9GTracker
namespace TrackerPace

open Network NetworkActivation Runs Watchdog

/-! ### The code -/

def sleepTime (desiredInterval trackerloopTick now : ℕ) : ℕ :=
  let loopDuration := elapsed now trackerloopTick
  let loopDuration := if loopDuration > desiredInterval then desiredInterval else loopDuration
  (desiredInterval-loopDuration)*1000

/-- Where the task is: in front of the loop, behind the statement that stores the clock, in the
branch it has chosen, or in `OS_Sleep`. It has called that at `stop`, and returns at `wake`. -/
inductive Phase
  | setup
  | stored
  | work (desiredInterval : ℕ)
  | sleep (stop wake : ℕ)

/-- `reported` is not in the program: whether the present round has sent a report. -/
structure Paced where
  net : NetState
  clock : ℕ
  phase : Phase
  reported : Bool

/-- The beginning of a round. -/
def Paced.begin (s : Paced) : Paced :=
  ⟨netStep s.net (.trackerLoop s.clock),s.clock,.stored,false⟩

/-- Both flags are on: the round sends a report. -/
def Paced.reports (s : Paced) : Bool :=
  isFlag s.net.systemStatus statusGpsOn && isGsmActive s.net

inductive Event
  | pass (seconds : ℕ)
  | net (e : NetEvent)
  | monitor (cfg : ApnSettings) (a : ModemAnswers) (cellRet : Bool)
  | task

def step (s : Paced) : Event → Option Paced
  | .pass n =>
    match s.phase with
    | .sleep _ wake => if s.clock+n ≤ wake then some { s with clock := s.clock+n } else none
    | _ => some { s with clock := s.clock+n }
  | .net e => if (reading e).isSome then none else some { s with net := netStep s.net e }
  | .monitor cfg a cellRet =>
    some { s with net := netStep s.net (.monitor cfg a s.clock cellRet) }
  | .task =>
    match s.phase with
    | .setup => some s.begin
    | .stored =>
      some { s with phase := .work (if s.reports then 10 else 1), reported := s.reports }
    | .work desiredInterval =>
      let wake := s.clock+sleepTime desiredInterval s.net.trackerloopTick s.clock / 1000
      some { s with phase := .sleep s.clock wake }
    | .sleep _ wake => if s.clock = wake then some s.begin else none

def start (clock : ℕ) : Paced := ⟨networkInit,clock,.setup,false⟩

/-! ### The pace -/

theorem sleepTime_eq (desiredInterval : ℕ) {tick now : ℕ} (hle : tick ≤ now)
    (hnow : now < 4294967296) :
    now+sleepTime desiredInterval tick now / 1000 = max now (tick+desiredInterval) := by
  have helapsed : elapsed now tick = now-tick := by
    rw [elapsed]
    omega
  simp only [sleepTime,helapsed]
  split_ifs <;> omega

/-- The seconds from the beginning of a round to the next: ten with a report. -/
def Paced.interval (s : Paced) : ℕ := if s.reported then 10 else 1

theorem Paced.interval_le (s : Paced) : s.interval ≤ 10 := by
  rw [interval]
  split_ifs <;> decide

/-- A round is never shorter than its interval, and takes longer only for its work. -/
def OnTime (s : Paced) : Prop :=
  match s.phase with
  | .setup => s.net.trackerloopTick = 0
  | .stored => s.net.trackerloopTick ≤ s.clock
  | .work desiredInterval =>
    s.net.trackerloopTick ≤ s.clock ∧ desiredInterval = s.interval
  | .sleep stop wake =>
    s.net.trackerloopTick ≤ stop ∧ stop ≤ s.clock ∧ s.clock ≤ wake ∧
      wake = max stop (s.net.trackerloopTick+s.interval)

theorem onTime_net {s : Paced} (h : OnTime s) {e : NetEvent}
    (he : (netStep s.net e).trackerloopTick = s.net.trackerloopTick) :
    OnTime { s with net := netStep s.net e } := by
  obtain ⟨net,clock,phase,reported⟩ := s
  cases phase <;> simpa only [OnTime,he,Paced.interval] using h

theorem onTime_begin (s : Paced) : OnTime s.begin := le_refl s.clock

theorem onTime_pass {s s' : Paced} {n : ℕ} (h : OnTime s) (hs : step s (.pass n) = some s') :
    OnTime s' := by
  obtain ⟨net,clock,phase,reported⟩ := s
  cases phase with
  | setup =>
    obtain rfl := Option.some.inj hs
    exact h
  | stored =>
    obtain rfl := Option.some.inj hs
    exact h.trans (Nat.le_add_right clock n)
  | work desiredInterval =>
    obtain rfl := Option.some.inj hs
    exact ⟨h.1.trans (Nat.le_add_right clock n),h.2⟩
  | sleep stop wake =>
    simp only [step] at hs
    split_ifs at hs with hwake
    obtain rfl := Option.some.inj hs
    exact ⟨h.1,h.2.1.trans (Nat.le_add_right clock n),hwake,h.2.2.2⟩

theorem onTime_task {s s' : Paced} (h : OnTime s) (hclock : s.clock < 4294967296)
    (hs : step s .task = some s') : OnTime s' := by
  obtain ⟨net,clock,phase,reported⟩ := s
  cases phase with
  | setup =>
    obtain rfl := Option.some.inj hs
    exact onTime_begin _
  | stored =>
    obtain rfl := Option.some.inj hs
    exact ⟨h,rfl⟩
  | work desiredInterval =>
    obtain rfl := Option.some.inj hs
    obtain ⟨hle,hinterval⟩ := h
    have hwake := sleepTime_eq desiredInterval hle hclock
    exact ⟨hle,le_rfl,Nat.le_add_right _ _,hwake.trans (by rw [hinterval]; rfl)⟩
  | sleep stop wake =>
    simp only [step] at hs
    split_ifs at hs
    obtain rfl := Option.some.inj hs
    exact onTime_begin _

theorem step_clock {s s' : Paced} {e : Event} (hs : step s e = some s') : s.clock ≤ s'.clock := by
  obtain ⟨net,clock,phase,reported⟩ := s
  cases e with
  | pass n =>
    have hclock : s'.clock = clock+n := by
      cases phase with
      | sleep stop wake =>
        simp only [step] at hs
        split_ifs at hs
        obtain rfl := Option.some.inj hs
        rfl
      | _ =>
        obtain rfl := Option.some.inj hs
        rfl
    exact (Nat.le_add_right clock n).trans_eq hclock.symm
  | net e =>
    simp only [step] at hs
    split_ifs at hs
    obtain rfl := Option.some.inj hs
    exact le_rfl
  | monitor cfg a cellRet =>
    obtain rfl := Option.some.inj hs
    exact le_rfl
  | task =>
    cases phase with
    | sleep stop wake =>
      simp only [step] at hs
      split_ifs at hs
      obtain rfl := Option.some.inj hs
      exact le_rfl
    | _ =>
      obtain rfl := Option.some.inj hs
      exact le_rfl

/-- The clock does not come round within the run. -/
def InRange (s : Paced) : Prop := s.clock < 4294967296 → OnTime s

theorem step_onTime {s s' : Paced} {e : Event} (h : InRange s) (hs : step s e = some s') :
    InRange s' := by
  intro hclock
  have hbefore := step_clock hs
  have hold := h (by omega)
  cases e with
  | pass n => exact onTime_pass hold hs
  | net e =>
    simp only [step] at hs
    split_ifs at hs with hreading
    obtain rfl := Option.some.inj hs
    refine onTime_net hold ?_
    rw [netStep_trackerloopTick]
    cases e with
    | trackerLoop now => exact absurd rfl hreading
    | _ => rfl
  | monitor cfg a cellRet =>
    obtain rfl := Option.some.inj hs
    exact onTime_net hold (netStep_trackerloopTick _ _)
  | task => exact onTime_task hold (by omega) hs

/-! ### The watchdog -/

def Late (s : Paced) : Prop :=
  match s.phase with
  | .setup => False
  | .stored => s.net.trackerloopTick+20 < s.clock
  | .work _ => s.net.trackerloopTick+20 < s.clock
  | .sleep stop _ => s.net.trackerloopTick+20 < stop

theorem late_iff {s : Paced} (h : OnTime s) (hclock : s.clock < 4294967296) :
    (0 < s.net.trackerloopTick ∧ 20 < elapsed s.clock s.net.trackerloopTick) ↔
      0 < s.net.trackerloopTick ∧ Late s := by
  refine and_congr_right fun hpos => ?_
  obtain ⟨net,clock,phase,reported⟩ := s
  simp only at hpos hclock ⊢
  unfold elapsed
  cases phase with
  | setup =>
    have hzero : net.trackerloopTick = 0 := h
    omega
  | stored =>
    have hle : net.trackerloopTick ≤ clock := h
    simp only [Late]
    omega
  | work desiredInterval =>
    have hle : net.trackerloopTick ≤ clock := h.1
    simp only [Late]
    omega
  | sleep stop wake =>
    obtain ⟨hstop,hclock',hwake,hround⟩ := h
    have hten := Paced.interval_le ⟨net,clock,.sleep stop wake,reported⟩
    simp only at hstop hclock' hwake hround
    simp only [Late]
    omega

theorem begin_tick {s s' : Paced} {stop wake : ℕ} (h : OnTime s)
    (hphase : s.phase = .sleep stop wake) (hs : step s .task = some s') :
    s'.net.trackerloopTick = max stop (s.net.trackerloopTick+s.interval) := by
  simp only [step,hphase] at hs
  simp only [OnTime,hphase] at h
  split_ifs at hs with hwake
  obtain rfl := Option.some.inj hs
  rw [← hwake] at h
  exact h.2.2.2

theorem stored_reported {s s' : Paced} (hphase : s.phase = .stored)
    (hs : step s .task = some s') : s'.reported = s.reports := by
  simp only [step,hphase,Option.some.injEq] at hs
  rw [← hs]

/-- Whatever the network does and whenever the monitor ticks: a round of the tracker reports just
when it finds both flags on; the next one begins exactly when its interval is over, ten seconds
with a report and one without, or at once where its work has taken longer; and the watchdog
deactivates an active network just when the work of the present round has taken more than 20
seconds. -/
theorem watchdog_waits_for_work {clock : ℕ} {s : Paced}
    (h : Reaches step (fun _ => True) (start clock) s) (hclock : s.clock < 4294967296) :
    (∀ s', s.phase = .stored → step s .task = some s' → s'.reported = s.reports) ∧
    (∀ stop wake s', s.phase = .sleep stop wake → step s .task = some s' →
      s'.net.trackerloopTick = max stop (s.net.trackerloopTick+if s.reported then 10 else 1)) ∧
    ∀ cfg a cellRet, Emits s.net (.monitor cfg a s.clock cellRet) .startDeactive ↔
      0 < s.net.trackerloopTick ∧ isGsmActive s.net = true ∧ Late s := by
  have hrange : InRange s :=
    h.invariant (fun _ _ _ hI _ hs => step_onTime hI hs) fun _ => rfl
  have hontime := hrange hclock
  refine ⟨fun s' => stored_reported,fun stop wake s' => begin_tick hontime,fun cfg a cellRet => ?_⟩
  have hlate := late_iff hontime hclock
  rw [emits_monitor_iff,Fires]
  tauto

def reportRound (seconds : ℕ) : List Event :=
  [.net (.statusCallback ⟨[],[],[]⟩ silentModem .activated),.net (.api .gpsUartReceived),.task,
    .task,.pass seconds]

def connected : NetState :=
  netStep (run netStep networkInit
    [.statusCallback ⟨[],[],[]⟩ silentModem .activated,.api .gpsUartReceived]) (.trackerLoop 1000)

theorem watchdog_waits_for_work_report :
    (∃ s s', runAll step (start 1000) (reportRound 3++[.task,.pass 7]) = some s ∧
      step s .task = some s' ∧ s'.net.trackerloopTick = max 1003 (1000+10)) ∧
    ∃ s, runAll step (start 1000) (reportRound 30) = some s ∧
      Emits s.net (.monitor ⟨[],[],[]⟩ silentModem s.clock true) .startDeactive := by
  have htick : connected.trackerloopTick = 1000 := by decide
  have hwork : runAll step (start 1000) (reportRound 3) = some
      ⟨connected,1003,.work 10,true⟩ := rfl
  have hsleep : 1003+sleepTime 10 1000 1003/1000 = 1010 := by decide
  have hshort : runAll step (start 1000) (reportRound 3++[.task,.pass 7]) = some
      ⟨connected,1010,.sleep 1003 1010,true⟩ := by
    rw [runAll_append hwork]
    simp only [runAll,step,htick,hsleep,Option.bind_some]
    rfl
  have hlong : runAll step (start 1000) (reportRound 30) = some
      ⟨connected,1030,.work 10,true⟩ := rfl
  have hstep : step ⟨connected,1010,.sleep 1003 1010,true⟩ .task =
      some (Paced.begin ⟨connected,1010,.sleep 1003 1010,true⟩) := by simp [step]
  refine ⟨⟨_,_,hshort,hstep,?_⟩,_,hlong,?_⟩
  · rw [← htick]
    exact (watchdog_waits_for_work (reaches_of_runAll hshort) (by decide)).2.1 1003 1010 _ rfl hstep
  · exact ((watchdog_waits_for_work (reaches_of_runAll hlong) (by decide)).2.2 _ _ _).2
      ⟨by decide,by decide,by unfold Late; decide⟩

end TrackerPace
end A9GTracker
