import A9GTracker.CommandExchange

/-! The timer of the exchange: whose time-out a command sees. -/
namespace A9GTracker
namespace ExchangeTimer

open Gps Runs CommandExchange

/-! ### The timer -/

/-- `OS_StopCallbackTimer` takes back a callback that waits in the event queue. -/
def StopDrops : Event → Prop
  | .task stopDrops _ => stopDrops = true
  | _ => True

def Off (s : Exchange) : Prop := s.armed = false ∧ s.callbacks = 0

/-- The timer runs, or its callback waits, or it has been called. -/
inductive Clock (s : Exchange) : Prop
  | running (harmed : s.armed = true) (hcallbacks : s.callbacks = 0)
      (hflag : s.isCmdSendTimeOut = false)
  | queued (harmed : s.armed = false) (hcallbacks : s.callbacks = 1)
      (hflag : s.isCmdSendTimeOut = false) (hexpired : s.expired = true)
  | called (harmed : s.armed = false) (hcallbacks : s.callbacks = 0)
      (hexpired : s.expired = true)

/-- Until the timer is started and behind its end there is none. -/
inductive Timed (s : Exchange) : Phase → Prop
  | idle (hoff : Off s) : Timed s .idle
  | create (hoff : Off s) (hflag : s.isCmdSendTimeOut = false) : Timed s .create
  | send (hoff : Off s) (hflag : s.isCmdSendTimeOut = false) : Timed s .send
  | startTimer (hoff : Off s) (hflag : s.isCmdSendTimeOut = false) : Timed s .startTimer
  | wait (h : Clock s) : Timed s .wait
  | delete (h : Clock s) : Timed s .delete
  | forget (h : Clock s) : Timed s .forget
  | testTimeOut (h : Clock s) : Timed s .testTimeOut
  | stopTimer (h : Clock s) : Timed s .stopTimer
  | check (hoff : Off s) : Timed s .check
  | free (hoff : Off s) : Timed s .free

structure SameTimer (s t : Exchange) : Prop where
  armed : t.armed = s.armed
  callbacks : t.callbacks = s.callbacks
  flag : t.isCmdSendTimeOut = s.isCmdSendTimeOut
  expired : t.expired = s.expired

theorem Off.same {s t : Exchange} (h : Off s) (ht : SameTimer s t) : Off t :=
  ⟨ht.armed.trans h.1,ht.callbacks.trans h.2⟩

theorem Clock.same {s t : Exchange} (h : Clock s) (ht : SameTimer s t) : Clock t := by
  cases h with
  | running harmed hcallbacks hflag =>
    exact .running (ht.armed.trans harmed) (ht.callbacks.trans hcallbacks) (ht.flag.trans hflag)
  | queued harmed hcallbacks hflag hexpired =>
    exact .queued (ht.armed.trans harmed) (ht.callbacks.trans hcallbacks) (ht.flag.trans hflag)
      (ht.expired.trans hexpired)
  | called harmed hcallbacks hexpired =>
    exact .called (ht.armed.trans harmed) (ht.callbacks.trans hcallbacks)
      (ht.expired.trans hexpired)

theorem Timed.same {s t : Exchange} {p : Phase} (h : Timed s p) (ht : SameTimer s t) :
    Timed t p := by
  cases h with
  | idle hoff => exact .idle (hoff.same ht)
  | create hoff hflag => exact .create (hoff.same ht) (ht.flag.trans hflag)
  | send hoff hflag => exact .send (hoff.same ht) (ht.flag.trans hflag)
  | startTimer hoff hflag => exact .startTimer (hoff.same ht) (ht.flag.trans hflag)
  | wait h => exact .wait (h.same ht)
  | delete h => exact .delete (h.same ht)
  | forget h => exact .forget (h.same ht)
  | testTimeOut h => exact .testTimeOut (h.same ht)
  | stopTimer h => exact .stopTimer (h.same ht)
  | check hoff => exact .check (hoff.same ht)
  | free hoff => exact .free (hoff.same ht)

/-- With a callback under way the exchange is between the start of the timer and its stop. -/
theorem Timed.clock {s : Exchange} {p : Phase} (h : Timed s p) (hon : ¬ Off s) :
    Clock s ∧ ∀ t, Clock t → Timed t p := by
  cases h with
  | idle hoff | create hoff | send hoff | startTimer hoff | check hoff | free hoff =>
    exact absurd hoff hon
  | wait h => exact ⟨h,fun _ => .wait⟩
  | delete h => exact ⟨h,fun _ => .delete⟩
  | forget h => exact ⟨h,fun _ => .forget⟩
  | testTimeOut h => exact ⟨h,fun _ => .testTimeOut⟩
  | stopTimer h => exact ⟨h,fun _ => .stopTimer⟩

theorem timed_update {s s' : Exchange} (hinv : Inv s) (h : Timed s s.phase) {fuel : ℕ}
    {data : List UInt8} {mallocOk : Bool} (hu : updateStep s fuel data mallocOk = some s') :
    Timed s' s'.phase := by
  obtain ⟨gps,fresh,-,-,hout⟩ := updateStep_cases hinv.queue hu
  cases hout with
  | quiet hs => exact hs ▸ h.same ⟨rfl,rfl,rfl,rfl⟩
  | delivered _ _ _ hs => exact hs ▸ h.same ⟨rfl,rfl,rfl,rfl⟩
  | noMemory _ _ hs => exact hs ▸ h.same ⟨rfl,rfl,rfl,rfl⟩
  | trapped _ _ hs => exact hs ▸ h.same ⟨rfl,rfl,rfl,rfl⟩

theorem timed_task {below : ℕ → UInt8} {s s' : Exchange} (h : Timed s s.phase)
    {beyond : List UInt8} (hs : taskStep below s true beyond = some s') : Timed s' s'.phase := by
  generalize hp : s.phase = p at h
  cases h with
  | idle => simp [taskStep,hp] at hs
  | create hoff hflag =>
    simp only [taskStep,hp,Option.some.injEq] at hs
    exact hs ▸ .send hoff hflag
  | send hoff hflag =>
    simp only [taskStep,hp,Option.some.injEq] at hs
    exact hs ▸ .startTimer hoff hflag
  | startTimer hoff hflag =>
    simp only [taskStep,hp,Option.some.injEq] at hs
    exact hs ▸ .wait (.running rfl hoff.2 hflag)
  | wait h =>
    simp only [taskStep,hp] at hs
    split at hs
    · cases hs
      exact .delete (h.same ⟨rfl,rfl,rfl,rfl⟩)
    · cases hs
  | delete h =>
    simp only [taskStep,hp,Option.some.injEq] at hs
    exact hs ▸ .forget (h.same ⟨rfl,rfl,rfl,rfl⟩)
  | forget h =>
    simp only [taskStep,hp,Option.some.injEq] at hs
    exact hs ▸ .testTimeOut (h.same ⟨rfl,rfl,rfl,rfl⟩)
  | testTimeOut h =>
    simp only [taskStep,hp] at hs
    split_ifs at hs with hflag
    · cases hs
      cases h with
      | running _ _ hno => rw [hflag] at hno; cases hno
      | queued _ _ hno => rw [hflag] at hno; cases hno
      | called harmed hcallbacks => exact .free ⟨harmed,hcallbacks⟩
    · cases hs
      exact .stopTimer (h.same ⟨rfl,rfl,rfl,rfl⟩)
  | stopTimer h =>
    simp only [taskStep,hp,Option.some.injEq] at hs
    exact hs ▸ .check ⟨rfl,rfl⟩
  | check hoff =>
    simp only [taskStep,hp] at hs
    split at hs
    · cases hs
    · cases hs
      exact .free hoff
  | free hoff =>
    simp only [taskStep,hp,Option.some.injEq] at hs
    exact hs ▸ .idle hoff

theorem timed_step {below : ℕ → UInt8} {s s' : Exchange} (hinv : Inv s) (h : Timed s s.phase)
    {e : Event} (he : StopDrops e) (hs : step below s e = some s') : Timed s' s'.phase := by
  obtain ⟨-,hs⟩ := live_of_step hs
  cases e with
  | command given =>
    simp only [liveStep] at hs
    split_ifs at hs with hp
    cases hs
    rw [hp] at h
    cases h with
    | idle hoff => exact .create hoff rfl
  | task stopDrops beyond =>
    obtain rfl : stopDrops = true := he
    exact timed_task h hs
  | expire =>
    simp only [liveStep] at hs
    split_ifs at hs with harmed
    cases hs
    obtain ⟨hclock,hback⟩ := h.clock (fun hoff => by rw [hoff.1] at harmed; cases harmed)
    cases hclock with
    | running _ hcallbacks hflag =>
      exact hback _ (.queued rfl (by rw [hcallbacks]) hflag rfl)
    | queued hno => rw [hno] at harmed; cases harmed
    | called hno => rw [hno] at harmed; cases harmed
  | callback =>
    simp only [liveStep] at hs
    split at hs
    · cases hs
    · rename_i n hn
      cases hs
      obtain ⟨hclock,hback⟩ := h.clock (fun hoff => by rw [hoff.2] at hn; cases hn)
      cases hclock with
      | running _ hno => rw [hno] at hn; cases hn
      | queued harmed hone _ hexpired =>
        rw [hone] at hn
        obtain rfl : n = 0 := by omega
        exact hback _ (.called harmed rfl hexpired)
      | called _ hno => rw [hno] at hn; cases hn
  | update fuel data mallocOk => exact timed_update hinv h hs

/-- The timer of a command never outlives its exchange, and the time-out that a command sees is
that of its own timer. -/
structure OwnTimer (s : Exchange) : Prop where
  idle : s.phase = .idle → s.armed = false ∧ s.callbacks = 0
  before : s.phase = .create ∨ s.phase = .send ∨ s.phase = .startTimer →
    s.armed = false ∧ s.callbacks = 0 ∧ s.isCmdSendTimeOut = false
  time_out : s.phase = .testTimeOut → s.isCmdSendTimeOut = true → s.expired = true

theorem own_timer {below : ℕ → UInt8} {log : LogSetting} {given : Given} {s : Exchange}
    (h : Reachable below StopDrops log given s) : OwnTimer s := by
  have hstep : ∀ s s' e, (Inv s ∧ Timed s s.phase) → StopDrops e → step below s e = some s' →
      Inv s' ∧ Timed s' s'.phase :=
    fun _ _ _ hs he hstep => ⟨inv_step hs.1 hstep,timed_step hs.1 hs.2 he hstep⟩
  obtain ⟨-,ht⟩ := Reaches.invariant hstep h ⟨boot_inv log given,.idle ⟨rfl,rfl⟩⟩
  refine ⟨fun hp => ?_,fun hp => ?_,fun hp hflag => ?_⟩
  · rw [hp] at ht
    cases ht with
    | idle hoff => exact hoff
  · rcases hp with hp | hp | hp <;> rw [hp] at ht
    · cases ht with
      | create hoff hflag => exact ⟨hoff.1,hoff.2,hflag⟩
    · cases ht with
      | send hoff hflag => exact ⟨hoff.1,hoff.2,hflag⟩
    · cases ht with
      | startTimer hoff hflag => exact ⟨hoff.1,hoff.2,hflag⟩
  · rw [hp] at ht
    cases ht with
    | testTimeOut hclock =>
      cases hclock with
      | running _ _ hno => rw [hno] at hflag; cases hflag
      | queued _ _ hno => rw [hno] at hflag; cases hflag
      | called _ _ hexpired => exact hexpired

theorem own_timer_waiting : ∃ s, s.phase = .wait ∧ OwnTimer s := by
  obtain ⟨s,hp,hs⟩ := @waiting_reachable StopDrops trivial rfl
  exact ⟨s,hp,own_timer hs⟩

end ExchangeTimer
end A9GTracker
