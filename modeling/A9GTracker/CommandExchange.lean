import Mathlib.Data.List.ReduceOption
import Mathlib.Tactic.Common
import A9GTracker.AckBounds
import A9GTracker.GpsCommand
import A9GTracker.Runs

/-! One task gives commands to the receiver while the main task takes in its bytes and runs the
timer's callback. `GPS_Update` and `OnCmdAckFail` are both called by the main task, so each is
one step here; the statements of `GPS_SendCMDWaitAck` are steps of their own between them. -/
namespace A9GTracker
namespace CommandExchange

open CString RingBuffer Gps FrameExtraction GpsCommand Runs

/-! ### The machine -/

/-- `semCmdSending`. The static keeps the handle for one statement after the semaphore is gone. -/
inductive Semaphore
  | null
  | live (count : ℕ)
  | deleted
  deriving DecidableEq

def Semaphore.release : Semaphore → Semaphore
  | .live n => .live (n+1)
  | sem => sem

/-- The statement of `GPS_SendCMDWaitAck`, and then of its caller, that the task is about to
execute. -/
inductive Phase
  | idle
  | create
  | send
  | startTimer
  | wait
  | delete
  | forget
  | testTimeOut
  | stopTimer
  | check
  | free
  deriving DecidableEq

structure Given where
  cmdSend : GpsCmd
  cmdStr : List UInt8
  format : GpsFormat

/-- The statics of the driver with the semaphore, the timer and the task. `ackMsg` is
`gpsAckMsg`, and `answer` what the call returns. The rest is not in the program: `handed` are the
results of `OS_Malloc` in this exchange, oldest first, `early` how many of them came before the
command was sent, `lost` the buffers of this exchange that no pointer is left to, `expired`
whether its timer has run out, `arrived` what was queued since the command was sent, `behind` what
lay behind the message in memory when it was judged, and `trapped` whether the program has read
through a null pointer. -/
structure Exchange where
  gps : GpsState
  isCmdSendTimeOut : Bool
  sem : Semaphore
  ackMsg : Option (List UInt8)
  phase : Phase
  given : Given
  answer : Bool
  armed : Bool
  callbacks : ℕ
  handed : List (Option (List UInt8))
  early : ℕ
  lost : List (List UInt8)
  expired : Bool
  arrived : List UInt8
  behind : List UInt8
  trapped : Bool

def boot (log : LogSetting) (given : Given) : Exchange where
  gps := gpsBoot log
  isCmdSendTimeOut := false
  sem := .null
  ackMsg := none
  phase := .idle
  given := given
  answer := false
  armed := false
  callbacks := 0
  handed := []
  early := 0
  lost := []
  expired := false
  arrived := []
  behind := []
  trapped := false

/-- What can happen next. `stopDrops` says whether `OS_StopCallbackTimer` takes back a callback
that already waits in the event queue; `beyond` is the memory behind the message. -/
inductive Event
  | command (given : Given)
  | task (stopDrops : Bool) (beyond : List UInt8)
  | expire
  | callback
  | update (fuel : ℕ) (data : List UInt8) (mallocOk : Bool)

/-- `gpsAckMsg` takes a new value; what it pointed to is lost. -/
def Exchange.hand (s : Exchange) (msg : Option (List UInt8)) : Exchange :=
  { s with
    ackMsg := msg
    handed := s.handed++[msg]
    early := if s.phase = .send then s.early+1 else s.early
    lost := s.lost++s.ackMsg.toList }

/-- `GPS_CMDSend`, which clears the buffer for a text command. -/
def Exchange.cmdSend (s : Exchange) : Exchange :=
  { s with
    gps := if s.given.format = .nmea then
        { s.gps with gpsNmeaBuffer := bufferClear s.gps.gpsNmeaBuffer }
      else s.gps
    arrived := [] }

def taskStep (below : ℕ → UInt8) (s : Exchange) (stopDrops : Bool) (beyond : List UInt8) :
    Option Exchange :=
  match s.phase with
  | .idle => none
  | .create => some { s with sem := .live 0, phase := .send }
  | .send => some { s.cmdSend with phase := .startTimer }
  | .startTimer => some { s with armed := true, phase := .wait }
  | .wait =>
    match s.sem with
    | .live (n+1) => some { s with sem := .live n, phase := .delete }
    | _ => none
  | .delete => some { s with sem := .deleted, phase := .forget }
  | .forget => some { s with sem := .null, phase := .testTimeOut }
  | .testTimeOut =>
    if s.isCmdSendTimeOut then
      some { s with
        answer := gpsSendWaiteNormalAck below s.given.cmdSend s.given.cmdStr s.given.format none
        phase := .free }
    else some { s with phase := .stopTimer }
  | .stopTimer =>
    some { s with
      armed := false
      callbacks := if stopDrops then 0 else s.callbacks
      phase := .check }
  | .check =>
    match s.ackMsg with
    | none => none
    | some m =>
      some { s with
        answer := gpsSendWaiteNormalAck below s.given.cmdSend s.given.cmdStr s.given.format
          (some (m++beyond))
        behind := beyond
        phase := .free }
  | .free => some { s with ackMsg := none, phase := .idle }

/-- `GPS_Update` with the semaphore as it is. Without the header in `tmp` the size asked for is
`len` more than the address of `tmp`, and where it is given the copy starts at the null pointer. -/
def updateStep (s : Exchange) (fuel : ℕ) (data : List UInt8) (mallocOk : Bool) :
    Option Exchange := do
  let before := { s.gps with cmdPending := s.sem ≠ .null, ack := .unchanged }
  let gps ← gpsUpdate fuel before data mallocOk
  let s := { s with
    gps := gps
    arrived := s.arrived++(queue (receive before data)).drop (queue before).length }
  match gps.ack with
  | .unchanged => some s
  | .delivered m => some { s.hand (some m) with sem := s.sem.release }
  | .noMemory => some (s.hand none)
  | .wild => some (if mallocOk then { s with trapped := true } else s.hand none)

def liveStep (below : ℕ → UInt8) (s : Exchange) : Event → Option Exchange
  | .command given =>
    if s.phase = .idle then
      some { s with
        isCmdSendTimeOut := false
        phase := .create
        given := given
        handed := []
        early := 0
        lost := []
        expired := false }
    else none
  | .task stopDrops beyond => taskStep below s stopDrops beyond
  | .expire =>
    if s.armed then
      some { s with armed := false, callbacks := s.callbacks+1, expired := true }
    else none
  | .callback =>
    match s.callbacks with
    | 0 => none
    | n+1 => some { s with isCmdSendTimeOut := true, sem := s.sem.release, callbacks := n }
  | .update fuel data mallocOk => updateStep s fuel data mallocOk

/-- Nothing follows a trap. -/
def step (below : ℕ → UInt8) (s : Exchange) (e : Event) : Option Exchange :=
  if s.trapped then none else liveStep below s e

theorem step_of_live {below : ℕ → UInt8} {s : Exchange} (h : s.trapped = false) (e : Event) :
    step below s e = liveStep below s e := by
  rw [step,h,if_neg Bool.false_ne_true]

theorem live_of_step {below : ℕ → UInt8} {s s' : Exchange} {e : Event}
    (h : step below s e = some s') : s.trapped = false ∧ liveStep below s e = some s' := by
  rw [step] at h
  split_ifs at h with htrapped
  exact ⟨by simpa using htrapped,h⟩

/-- The states of the driver under an interleaving of its two tasks, by events of one kind. -/
def Reachable (below : ℕ → UInt8) (allowed : Event → Prop) (log : LogSetting) (given : Given)
    (s : Exchange) : Prop :=
  Reaches (step below) allowed (boot log given) s

/-! ### What `GPS_Update` does -/

inductive Handed (pending mallocOk : Bool) (queued : List UInt8) : AckMsg → Prop
  | unchanged : Handed pending mallocOk queued .unchanged
  | wild (hp : pending = true) : Handed pending mallocOk queued .wild
  | noMemory (hp : pending = true) (hm : mallocOk = false) :
      Handed pending mallocOk queued .noMemory
  | delivered (hp : pending = true) (hm : mallocOk = true) {m : List UInt8} (hin : m <:+: queued) :
      Handed pending mallocOk queued (.delivered m)

structure Updated (pending mallocOk : Bool) (queued : List UInt8) (st' : GpsState) : Prop where
  inv : QueueInv st'
  queue_suffix : queue st' <:+ queued
  handed : Handed pending mallocOk queued st'.ack

theorem deliverAck_handed {st : GpsState} {b' : Buffer} {tmp queued : List UInt8}
    (htmp : tmp <+: queued) (index0 : Option ℕ) (mallocOk : Bool) :
    Handed true mallocOk queued (deliverAck st b' tmp index0 mallocOk).ack := by
  cases index0 with
  | none => exact .wild rfl
  | some i =>
    cases mallocOk with
    | false => exact .noMemory rfl rfl
    | true => exact .delivered rfl rfl ((List.drop_suffix i tmp).isInfix.trans htmp.isInfix)

theorem takeAck_updated {st : GpsState} (h : QueueInv st) (hack : st.ack = .unchanged) (n : ℕ)
    (index0 : List UInt8 → Option ℕ) (mallocOk : Bool) :
    Updated true mallocOk (queue st) (match bufferGets st.gpsNmeaBuffer n with
      | (_,none) => st
      | (b',some tmp) => deliverAck st b' tmp (index0 tmp) mallocOk) := by
  have hinv := takeAck_queueInv h n index0 mallocOk
  rcases hg : bufferGets st.gpsNmeaBuffer n with ⟨b', _ | tmp⟩
  · exact ⟨h,List.suffix_refl _,hack ▸ .unchanged⟩
  · rw [hg] at hinv
    have hle : n ≤ (contents st.gpsNmeaBuffer).length := by
      by_contra hlt
      rw [contents_length,← bufferSize_eq h.wellFormed] at hlt
      simp [bufferGets,Nat.lt_of_not_le hlt] at hg
    obtain ⟨-,-,htmp,hrest⟩ := bufferGets_spec h.wellFormed hle
    rw [hg] at htmp hrest
    have htmp' : tmp = (queue st).take n := Option.some.inj htmp
    have hqueue : queue (deliverAck st b' tmp (index0 tmp) mallocOk) = (queue st).drop n := by
      rw [queue,deliverAck_buffer]
      exact hrest
    exact ⟨hinv,hqueue ▸ List.drop_suffix n _,
      deliverAck_handed (htmp' ▸ List.take_prefix n _) _ _⟩

theorem ackUpdate_updated {st : GpsState} (h : QueueInv st) (hack : st.ack = .unchanged)
    (mallocOk : Bool) : Updated true mallocOk (queue st) (ackUpdate st mallocOk) := by
  have hsame : Updated true mallocOk (queue st) st := ⟨h,List.suffix_refl _,hack ▸ .unchanged⟩
  simp only [ackUpdate]
  split_ifs
  · exact takeAck_updated h hack _ (fun tmp => strstr (cstring tmp) (lit "$PGKC")) mallocOk
  · exact hsame
  · exact takeAck_updated h hack _ (Search.find [0xaa,0xf0]) mallocOk
  · exact hsame
  · exact hsame

theorem loop_suffix {st st' : GpsState} {fuel : ℕ} (h : QueueInv st)
    (hr : Loop.run frameStep fuel st = some st') : queue st' <:+ queue st := by
  refine (Loop.run_partial (fun s => QueueInv s ∧ queue s <:+ queue st)
    (fun s => QueueInv s ∧ queue s <:+ queue st) ?_ ?_ ⟨h,List.suffix_refl _⟩ hr).2
  · rintro s s' ⟨hs,hsuffix⟩ hb
    rcases frameStep_next_cases hs hb with ⟨rfl,-⟩ | ⟨i,j,-,-,ht⟩
    · exact ⟨hs,hsuffix⟩
    · exact ⟨ht.inv,ht.queue_eq ▸ (List.drop_suffix _ _).trans hsuffix⟩
  · rintro s r ⟨hs,hsuffix⟩ hb
    obtain ⟨rfl,-⟩ := frameStep_done hs hb
    exact ⟨hs,hsuffix⟩

theorem gpsUpdate_updated {st st' : GpsState} (h : QueueInv st) (hack : st.ack = .unchanged)
    {fuel : ℕ} {data : List UInt8} {mallocOk : Bool}
    (hu : gpsUpdate fuel st data mallocOk = some st') :
    Updated st.cmdPending mallocOk (queue (receive st data)) st' := by
  have hr := receive_queueInv h data
  by_cases hp : st.cmdPending = true
  · have hp' : (receive st data).cmdPending = true := hp
    simp only [gpsUpdate,hp',if_true,Option.some.injEq] at hu
    rw [← hu,hp]
    exact ackUpdate_updated hr hack mallocOk
  · have hp' : ¬ (receive st data).cmdPending = true := hp
    rw [gpsUpdate,if_neg hp'] at hu
    have hsame : st'.ack = .unchanged := (AckBounds.loop_ack hu).trans hack
    exact ⟨loop_queueInv hr hu,loop_suffix hr hu,hsame ▸ .unchanged⟩

/-- What a call of `GPS_Update` makes of the exchange. -/
inductive UpdateOutcome (s s' : Exchange) (mallocOk : Bool) (gps : GpsState)
    (queued fresh : List UInt8) : Prop
  | quiet (hs : s' = { s with gps := gps, arrived := s.arrived++fresh })
  | delivered (hsem : s.sem ≠ .null) (hm : mallocOk = true) {m : List UInt8} (hin : m <:+: queued)
      (hs : s' = { { s with gps := gps, arrived := s.arrived++fresh }.hand (some m) with
        sem := s.sem.release })
  | noMemory (hsem : s.sem ≠ .null) (hm : mallocOk = false)
      (hs : s' = { s with gps := gps, arrived := s.arrived++fresh }.hand none)
  | trapped (hsem : s.sem ≠ .null) (hm : mallocOk = true)
      (hs : s' = { s with gps := gps, arrived := s.arrived++fresh, trapped := true })

theorem updateStep_cases {s s' : Exchange} (h : QueueInv s.gps) {fuel : ℕ} {data : List UInt8}
    {mallocOk : Bool} (hu : updateStep s fuel data mallocOk = some s') :
    ∃ gps fresh, QueueInv gps ∧ queue gps <:+ queue s.gps++fresh ∧
      UpdateOutcome s s' mallocOk gps (queue s.gps++fresh) fresh := by
  rw [updateStep,Option.bind_eq_bind,Option.bind_eq_some_iff] at hu
  obtain ⟨gps,hgps,hout⟩ := hu
  generalize hbefore :
    ({ s.gps with cmdPending := s.sem ≠ .null, ack := .unchanged } : GpsState) = before at hgps hout
  have hqueue : queue before = queue s.gps := by
    rw [← hbefore]
    rfl
  have hinv : QueueInv before := by
    rw [← hbefore]
    exact ⟨h.wellFormed,h.maxSize_eq⟩
  have hpending : before.cmdPending = true → s.sem ≠ .null := by
    rw [← hbefore]
    exact of_decide_eq_true
  have hfresh : queue s.gps++(queue (receive before data)).drop (queue before).length =
      queue (receive before data) := by
    rw [receive_queue hinv,queueAfter,hqueue]
    split_ifs
    · rw [List.drop_left]
    · rw [List.drop_length,List.append_nil]
  have hup := gpsUpdate_updated hinv (by rw [← hbefore]) hgps
  refine ⟨gps,(queue (receive before data)).drop (queue before).length,hup.inv,?_,?_⟩
  · rw [hfresh]
    exact hup.queue_suffix
  · rw [hfresh]
    have hhanded := hup.handed
    revert hout hhanded
    generalize gps.ack = ack
    intro hout hhanded
    cases hhanded with
    | unchanged => exact .quiet (Option.some.inj hout).symm
    | wild hp =>
      cases mallocOk with
      | false => exact .noMemory (hpending hp) rfl (Option.some.inj hout).symm
      | true => exact .trapped (hpending hp) rfl (Option.some.inj hout).symm
    | noMemory hp hm => exact .noMemory (hpending hp) hm (Option.some.inj hout).symm
    | delivered hp hm hin => exact .delivered (hpending hp) hm hin (Option.some.inj hout).symm

/-! ### The invariant -/

def Exchange.Delivered (s : Exchange) : Prop := ∃ m, some m ∈ s.handed

/-- `gpsAckMsg` is the last result of `OS_Malloc`. -/
def Exchange.Slot (s : Exchange) : Prop := s.ackMsg = s.handed.getLast?.join

/-- What can have woken the task. -/
def Exchange.Woken (s : Exchange) : Prop := s.isCmdSendTimeOut = true ∨ s.Delivered

/-- A buffer is never handed over without a release, and nothing else but the callback makes one. -/
structure Exchange.Counted (s : Exchange) (n : ℕ) : Prop where
  paid : s.Delivered → 0 < n
  woken : 0 < n → s.Woken

inductive At (s : Exchange) : Phase → Prop
  | idle (hsem : s.sem = .null) (hack : s.ackMsg = none) : At s .idle
  | create (hsem : s.sem = .null) (hslot : s.Slot) (hfresh : s.handed = []) : At s .create
  | send {n : ℕ} (hsem : s.sem = .live n) (hslot : s.Slot) (hcount : s.Counted n) : At s .send
  | startTimer {n : ℕ} (hsem : s.sem = .live n) (hslot : s.Slot) (hcount : s.Counted n) :
      At s .startTimer
  | wait {n : ℕ} (hsem : s.sem = .live n) (hslot : s.Slot) (hcount : s.Counted n)
      (hdue : 0 < n ∨ s.armed = true ∨ 0 < s.callbacks) : At s .wait
  | delete {n : ℕ} (hsem : s.sem = .live n) (hslot : s.Slot) (hwoken : s.Woken) : At s .delete
  | forget (hsem : s.sem = .deleted) (hslot : s.Slot) (hwoken : s.Woken) : At s .forget
  | testTimeOut (hsem : s.sem = .null) (hslot : s.Slot) (hwoken : s.Woken) : At s .testTimeOut
  | stopTimer (hsem : s.sem = .null) (hslot : s.Slot) (hgot : s.Delivered) : At s .stopTimer
  | check (hsem : s.sem = .null) (hslot : s.Slot) (hgot : s.Delivered) : At s .check
  | free (hsem : s.sem = .null) (hslot : s.Slot) : At s .free

structure Inv (s : Exchange) : Prop where
  queue : QueueInv s.gps
  lost : s.lost = s.handed.dropLast.reduceOption
  phase : At s s.phase

theorem boot_inv (log : LogSetting) (given : Given) : Inv (boot log given) where
  queue := gpsBoot_queueInv log
  lost := rfl
  phase := .idle rfl rfl

theorem At.slot {s : Exchange} {p : Phase} (h : At s p) (hsem : s.sem ≠ .null) : s.Slot := by
  cases h with
  | idle hnull | create hnull | testTimeOut hnull | stopTimer hnull | check hnull | free hnull =>
    exact absurd hnull hsem
  | send _ hslot | startTimer _ hslot | wait _ hslot | delete _ hslot | forget _ hslot =>
    exact hslot

theorem reduceOption_handed (handed : List (Option (List UInt8))) :
    handed.dropLast.reduceOption++handed.getLast?.join.toList = handed.reduceOption := by
  cases handed using List.reverseRecOn with
  | nil => rfl
  | append_singleton handed msg =>
    rw [List.dropLast_concat,List.getLast?_concat,List.reduceOption_append,
      List.reduceOption_singleton]
    rfl

/-- What a new value of `gpsAckMsg` loses is what it pointed to. -/
theorem hand_lost {s : Exchange} (h : Inv s) (hsem : s.sem ≠ .null) (msg : Option (List UInt8)) :
    (s.hand msg).lost = (s.hand msg).handed.dropLast.reduceOption := by
  have hslot : s.ackMsg = s.handed.getLast?.join := h.phase.slot hsem
  simp only [Exchange.hand,List.dropLast_concat]
  rw [h.lost,hslot,reduceOption_handed]

theorem hand_slot (s : Exchange) (msg : Option (List UInt8)) : (s.hand msg).Slot := by
  simp [Exchange.Slot,Exchange.hand]

theorem delivered_hand_none {s : Exchange} : (s.hand none).Delivered ↔ s.Delivered := by
  simp [Exchange.Delivered,Exchange.hand]

theorem delivered_hand_some (s : Exchange) (m : List UInt8) : (s.hand (some m)).Delivered :=
  ⟨m,by simp [Exchange.hand]⟩

theorem At.hand_none {s : Exchange} {p : Phase} (h : At s p) (hsem : s.sem ≠ .null) :
    At (s.hand none) p := by
  have hslot := hand_slot s none
  have hcounted : ∀ {n}, s.Counted n → (s.hand none).Counted n := fun hcount =>
    ⟨fun hd => hcount.paid (delivered_hand_none.1 hd),
      fun hn => (hcount.woken hn).imp_right delivered_hand_none.2⟩
  cases h with
  | idle hnull | create hnull | testTimeOut hnull | stopTimer hnull | check hnull | free hnull =>
    exact absurd hnull hsem
  | send hlive _ hcount => exact .send hlive hslot (hcounted hcount)
  | startTimer hlive _ hcount => exact .startTimer hlive hslot (hcounted hcount)
  | wait hlive _ hcount hdue => exact .wait hlive hslot (hcounted hcount) hdue
  | delete hlive _ hwoken =>
    exact .delete hlive hslot (hwoken.imp_right delivered_hand_none.2)
  | forget hdel _ hwoken => exact .forget hdel hslot (hwoken.imp_right delivered_hand_none.2)

theorem At.hand_some {s : Exchange} {p : Phase} (h : At s p) (hsem : s.sem ≠ .null)
    (m : List UInt8) : At { s.hand (some m) with sem := s.sem.release } p := by
  have hslot := hand_slot s (some m)
  have hgot := delivered_hand_some s m
  cases h with
  | idle hnull | create hnull | testTimeOut hnull | stopTimer hnull | check hnull | free hnull =>
    exact absurd hnull hsem
  | @send n hlive => 
    exact .send (n := n+1) (by rw [hlive]; rfl) hslot ⟨fun _ => n.succ_pos,fun _ => .inr hgot⟩
  | @startTimer n hlive =>
    exact .startTimer (n := n+1) (by rw [hlive]; rfl) hslot ⟨fun _ => n.succ_pos,fun _ => .inr hgot⟩
  | @wait n hlive =>
    exact .wait (n := n+1) (by rw [hlive]; rfl) hslot ⟨fun _ => n.succ_pos,fun _ => .inr hgot⟩
      (.inl n.succ_pos)
  | @delete n hlive => exact .delete (n := n+1) (by rw [hlive]; rfl) hslot (.inr hgot)
  | forget hdel => exact .forget (by rw [hdel]; rfl) hslot (.inr hgot)

theorem At.with_gps {s : Exchange} {p : Phase} (h : At s p) (gps : GpsState)
    (arrived : List UInt8) (trapped : Bool) :
    At { s with gps := gps, arrived := arrived, trapped := trapped } p := by
  cases h with
  | idle hsem hack => exact .idle hsem hack
  | create hsem hslot hfresh => exact .create hsem hslot hfresh
  | send hsem hslot hcount => exact .send hsem hslot ⟨hcount.paid,hcount.woken⟩
  | startTimer hsem hslot hcount => exact .startTimer hsem hslot ⟨hcount.paid,hcount.woken⟩
  | wait hsem hslot hcount hdue => exact .wait hsem hslot ⟨hcount.paid,hcount.woken⟩ hdue
  | delete hsem hslot hwoken => exact .delete hsem hslot hwoken
  | forget hsem hslot hwoken => exact .forget hsem hslot hwoken
  | testTimeOut hsem hslot hwoken => exact .testTimeOut hsem hslot hwoken
  | stopTimer hsem hslot hgot => exact .stopTimer hsem hslot hgot
  | check hsem hslot hgot => exact .check hsem hslot hgot
  | free hsem hslot => exact .free hsem hslot

theorem inv_update {s s' : Exchange} (h : Inv s) {fuel : ℕ} {data : List UInt8} {mallocOk : Bool}
    (hu : updateStep s fuel data mallocOk = some s') : Inv s' := by
  obtain ⟨gps,fresh,hq,-,hout⟩ := updateStep_cases h.queue hu
  have hgps : Inv { s with gps := gps, arrived := s.arrived++fresh } :=
    ⟨hq,h.lost,h.phase.with_gps gps _ s.trapped⟩
  cases hout with
  | quiet hs => exact hs ▸ hgps
  | delivered hsem _ _ hs =>
    exact hs ▸ ⟨hq,hand_lost hgps hsem (some _),hgps.phase.hand_some hsem _⟩
  | noMemory hsem _ hs => exact hs ▸ ⟨hq,hand_lost hgps hsem none,hgps.phase.hand_none hsem⟩
  | trapped _ _ hs => exact hs ▸ ⟨hq,h.lost,h.phase.with_gps gps _ true⟩

theorem At.callback {s : Exchange} {p : Phase} (h : At s p) (k : ℕ) :
    At { s with isCmdSendTimeOut := true, sem := s.sem.release, callbacks := k } p := by
  cases h with
  | idle hsem hack => exact .idle (by rw [hsem]; rfl) hack
  | create hsem hslot hfresh => exact .create (by rw [hsem]; rfl) hslot hfresh
  | @send n hsem hslot hcount =>
    exact .send (n := n+1) (by rw [hsem]; rfl) hslot ⟨fun _ => n.succ_pos,fun _ => .inl rfl⟩
  | @startTimer n hsem hslot hcount =>
    exact .startTimer (n := n+1) (by rw [hsem]; rfl) hslot ⟨fun _ => n.succ_pos,fun _ => .inl rfl⟩
  | @wait n hsem hslot hcount =>
    exact .wait (n := n+1) (by rw [hsem]; rfl) hslot ⟨fun _ => n.succ_pos,fun _ => .inl rfl⟩
      (.inl n.succ_pos)
  | @delete n hsem hslot => exact .delete (n := n+1) (by rw [hsem]; rfl) hslot (.inl rfl)
  | forget hsem hslot => exact .forget (by rw [hsem]; rfl) hslot (.inl rfl)
  | testTimeOut hsem hslot => exact .testTimeOut (by rw [hsem]; rfl) hslot (.inl rfl)
  | stopTimer hsem hslot hgot => exact .stopTimer (by rw [hsem]; rfl) hslot hgot
  | check hsem hslot hgot => exact .check (by rw [hsem]; rfl) hslot hgot
  | free hsem hslot => exact .free (by rw [hsem]; rfl) hslot

theorem At.expire {s : Exchange} {p : Phase} (h : At s p) :
    At { s with armed := false, callbacks := s.callbacks+1, expired := true } p := by
  cases h with
  | idle hsem hack => exact .idle hsem hack
  | create hsem hslot hfresh => exact .create hsem hslot hfresh
  | send hsem hslot hcount => exact .send hsem hslot ⟨hcount.paid,hcount.woken⟩
  | startTimer hsem hslot hcount => exact .startTimer hsem hslot ⟨hcount.paid,hcount.woken⟩
  | wait hsem hslot hcount hdue =>
    exact .wait hsem hslot ⟨hcount.paid,hcount.woken⟩ (.inr (.inr (Nat.succ_pos _)))
  | delete hsem hslot hwoken => exact .delete hsem hslot hwoken
  | forget hsem hslot hwoken => exact .forget hsem hslot hwoken
  | testTimeOut hsem hslot hwoken => exact .testTimeOut hsem hslot hwoken
  | stopTimer hsem hslot hgot => exact .stopTimer hsem hslot hgot
  | check hsem hslot hgot => exact .check hsem hslot hgot
  | free hsem hslot => exact .free hsem hslot

theorem cmdSend_queueInv {s : Exchange} (h : QueueInv s.gps) : QueueInv s.cmdSend.gps := by
  rw [Exchange.cmdSend]
  split_ifs
  · exact ⟨⟨h.wellFormed.maxSize_pos,h.wellFormed.maxSize_le,h.wellFormed.maxSize_pos,
      h.wellFormed.maxSize_pos⟩,h.maxSize_eq⟩
  · exact h

theorem inv_task {below : ℕ → UInt8} {s s' : Exchange} (h : Inv s) {stopDrops : Bool}
    {beyond : List UInt8} (hs : taskStep below s stopDrops beyond = some s') : Inv s' := by
  have hat := h.phase
  generalize hp : s.phase = p at hat
  cases hat with
  | idle => simp [taskStep,hp] at hs
  | create hsem hslot hfresh =>
    simp only [taskStep,hp,Option.some.injEq] at hs
    have hnone : ¬ s.Delivered := by simp [Exchange.Delivered,hfresh]
    subst hs
    exact ⟨h.queue,h.lost,
      .send rfl hslot ⟨fun hd => absurd hd hnone,fun h0 => absurd h0 (Nat.lt_irrefl 0)⟩⟩
  | send hsem hslot hcount =>
    simp only [taskStep,hp,Option.some.injEq] at hs
    subst hs
    exact ⟨cmdSend_queueInv h.queue,h.lost,.startTimer hsem hslot ⟨hcount.paid,hcount.woken⟩⟩
  | startTimer hsem hslot hcount =>
    simp only [taskStep,hp,Option.some.injEq] at hs
    subst hs
    exact ⟨h.queue,h.lost,.wait hsem hslot ⟨hcount.paid,hcount.woken⟩ (.inr (.inl rfl))⟩
  | @wait n hsem hslot hcount =>
    simp only [taskStep,hp,hsem] at hs
    cases n with
    | zero => cases hs
    | succ n =>
      cases hs
      exact ⟨h.queue,h.lost,.delete rfl hslot (hcount.woken n.succ_pos)⟩
  | delete hsem hslot hwoken =>
    simp only [taskStep,hp,Option.some.injEq] at hs
    subst hs
    exact ⟨h.queue,h.lost,.forget rfl hslot hwoken⟩
  | forget hsem hslot hwoken =>
    simp only [taskStep,hp,Option.some.injEq] at hs
    subst hs
    exact ⟨h.queue,h.lost,.testTimeOut rfl hslot hwoken⟩
  | testTimeOut hsem hslot hwoken =>
    simp only [taskStep,hp] at hs
    split_ifs at hs with hflag
    · cases hs
      exact ⟨h.queue,h.lost,.free hsem hslot⟩
    · cases hs
      exact ⟨h.queue,h.lost,.stopTimer hsem hslot (hwoken.resolve_left hflag)⟩
  | stopTimer hsem hslot hgot =>
    simp only [taskStep,hp,Option.some.injEq] at hs
    subst hs
    exact ⟨h.queue,h.lost,.check hsem hslot hgot⟩
  | check hsem hslot hgot =>
    simp only [taskStep,hp] at hs
    cases hm : s.ackMsg with
    | none => simp [hm] at hs
    | some m =>
      rw [hm] at hs
      cases hs
      exact ⟨h.queue,h.lost,.free hsem (hm.symm.trans hslot)⟩
  | free hsem hslot =>
    simp only [taskStep,hp,Option.some.injEq] at hs
    subst hs
    exact ⟨h.queue,h.lost,.idle hsem rfl⟩

theorem taskStep_trapped {below : ℕ → UInt8} {s s' : Exchange} {stopDrops : Bool}
    {beyond : List UInt8} (hs : taskStep below s stopDrops beyond = some s') :
    s'.trapped = s.trapped := by
  cases hp : s.phase <;> simp only [taskStep,hp] at hs
  case idle => cases hs
  case create | send | startTimer | delete | forget | stopTimer | free =>
    cases hs
    rfl
  case wait | check =>
    split at hs <;> cases hs
    rfl
  case testTimeOut =>
    split_ifs at hs <;> cases hs <;> rfl

theorem inv_step {below : ℕ → UInt8} {s s' : Exchange} (h : Inv s) {e : Event}
    (hs : step below s e = some s') : Inv s' := by
  obtain ⟨-,hs⟩ := live_of_step hs
  cases e with
  | command given =>
    simp only [liveStep] at hs
    split_ifs at hs with hp
    cases hs
    have hat := h.phase
    rw [hp] at hat
    cases hat with
    | idle hsem hack => exact ⟨h.queue,rfl,.create hsem hack rfl⟩
  | task stopDrops beyond => exact inv_task h hs
  | expire =>
    simp only [liveStep] at hs
    split_ifs at hs
    cases hs
    exact ⟨h.queue,h.lost,h.phase.expire⟩
  | callback =>
    simp only [liveStep] at hs
    cases hk : s.callbacks with
    | zero => simp [hk] at hs
    | succ k =>
      simp only [hk,Option.some.injEq] at hs
      exact hs ▸ ⟨h.queue,h.lost,h.phase.callback k⟩
  | update fuel data mallocOk => exact inv_update h hs

theorem reachable_inv {below : ℕ → UInt8} {allowed : Event → Prop} {log : LogSetting}
    {given : Given} {s : Exchange} (h : Reachable below allowed log given s) : Inv s :=
  Reaches.invariant (fun _ _ _ hs _ hstep => inv_step hs hstep) h (boot_inv log given)

/-- A trap comes while a command waits. -/
theorem trapped_step {below : ℕ → UInt8} {s s' : Exchange} (h : Inv s) {e : Event}
    (hs : step below s e = some s') (htrapped : s'.trapped = true) : s'.sem ≠ .null := by
  obtain ⟨hlive,hs⟩ := live_of_step hs
  have hsame : s'.trapped = s.trapped → s'.sem ≠ .null := by
    intro ht
    rw [ht,hlive] at htrapped
    cases htrapped
  cases e with
  | command given =>
    simp only [liveStep] at hs
    split_ifs at hs
    cases hs
    exact hsame rfl
  | task stopDrops beyond => exact hsame (taskStep_trapped hs)
  | expire =>
    simp only [liveStep] at hs
    split_ifs at hs
    cases hs
    exact hsame rfl
  | callback =>
    simp only [liveStep] at hs
    split at hs <;> cases hs
    exact hsame rfl
  | update fuel data mallocOk =>
    obtain ⟨gps,fresh,-,-,hout⟩ := updateStep_cases h.queue hs
    cases hout with
    | quiet hs | delivered _ _ _ hs | noMemory _ _ hs =>
      rw [hs] at hsame ⊢
      exact hsame rfl
    | trapped hsem _ hs => exact hs ▸ hsem

theorem live_of_idle {below : ℕ → UInt8} {allowed : Event → Prop} {log : LogSetting}
    {given : Given} {s : Exchange} (h : Reachable below allowed log given s)
    (hidle : s.phase = .idle) : s.trapped = false := by
  have hstep : ∀ s s' e, (Inv s ∧ (s.trapped = true → s.sem ≠ .null)) → allowed e →
      step below s e = some s' → Inv s' ∧ (s'.trapped = true → s'.sem ≠ .null) :=
    fun _ _ _ hs _ hstep => ⟨inv_step hs.1 hstep,trapped_step hs.1 hstep⟩
  obtain ⟨hinv,htrapped⟩ := Reaches.invariant hstep h
    ⟨boot_inv log given,fun hboot => by cases hboot⟩
  have hat := hinv.phase
  rw [hidle] at hat
  cases hat with
  | idle hsem => exact Bool.eq_false_iff.2 fun ht => htrapped ht hsem

/-! ### Every exchange can end -/

def Event.Own : Event → Prop
  | .task _ _ | .expire | .callback => True
  | .command _ | .update _ _ _ => False

/-- How far the timer is from releasing the semaphore. -/
def Exchange.due (s : Exchange) : ℕ :=
  match s.sem with
  | .live (_+1) => 0
  | _ => if 0 < s.callbacks then 1 else 2

def Exchange.rank (s : Exchange) : ℕ :=
  match s.phase with
  | .idle => 0
  | .free => 1
  | .check => 2
  | .stopTimer => 3
  | .testTimeOut => 4
  | .forget => 5
  | .delete => 6
  | .wait => 7+s.due
  | .startTimer => 10
  | .send => 11
  | .create => 12

def Exchange.Held (s : Exchange) : Prop := s.handed.getLast? ≠ some none

theorem Exchange.Held.exists_ackMsg {s : Exchange} (h : s.Held) (hslot : s.Slot)
    (hgot : s.Delivered) : ∃ m, s.ackMsg = some m := by
  obtain ⟨m,hm⟩ := hgot
  rw [Slot] at hslot
  rw [Held] at h
  cases hlast : s.handed.getLast? with
  | none =>
    rw [List.getLast?_eq_none_iff.1 hlast] at hm
    cases hm
  | some msg =>
    cases msg with
    | none => exact absurd hlast h
    | some m => exact ⟨m,by rw [hslot,hlast]; rfl⟩

theorem own_progress (below : ℕ → UInt8) {s : Exchange} (h : Inv s) (hheld : s.Held)
    (hlive : s.trapped = false) :
    s.phase = .idle ∨ ∃ e s', e.Own ∧ step below s e = some s' ∧
      (s'.handed = s.handed ∧ s'.trapped = s.trapped) ∧ s'.rank < s.rank := by
  have hat := h.phase
  generalize hp : s.phase = p at hat
  simp only [step_of_live hlive]
  have htask : ∀ s', taskStep below s true [] = some s' → s'.handed = s.handed →
      s'.rank < s.rank → ∃ e s', e.Own ∧ liveStep below s e = some s' ∧
        (s'.handed = s.handed ∧ s'.trapped = s.trapped) ∧ s'.rank < s.rank :=
    fun s' hs hhanded hrank =>
      ⟨.task true [],s',trivial,hs,⟨hhanded,taskStep_trapped hs⟩,hrank⟩
  cases hat with
  | idle => exact .inl rfl
  | create | send | delete | forget | stopTimer | free =>
    exact .inr (htask _ (by simp only [taskStep,hp]; rfl) (by rfl) (by simp [Exchange.rank,hp]))
  | startTimer =>
    refine .inr (htask _ (by simp only [taskStep,hp]; rfl) (by rfl) ?_)
    simp only [Exchange.rank,Exchange.due,hp]
    split
    · omega
    · split_ifs <;> omega
  | @wait n hsem hslot hcount hdue =>
    refine .inr ?_
    cases n with
    | succ n =>
      exact htask _ (by simp only [taskStep,hp,hsem]; rfl) (by rfl)
        (by simp [Exchange.rank,Exchange.due,hp,hsem])
    | zero =>
      by_cases hcall : 0 < s.callbacks
      · obtain ⟨k,hk⟩ := Nat.exists_eq_add_of_lt hcall
        rw [Nat.zero_add] at hk
        refine ⟨.callback,_,trivial,by simp only [liveStep,hk]; rfl,⟨by rfl,by rfl⟩,?_⟩
        simp [Exchange.rank,Exchange.due,hp,hsem,hk,Semaphore.release]
      · have harmed : s.armed = true := by
          rcases hdue with hdue | hdue | hdue
          · omega
          · exact hdue
          · exact absurd hdue hcall
        refine ⟨.expire,_,trivial,by simp only [liveStep,harmed]; rfl,⟨by rfl,by rfl⟩,?_⟩
        simp [Exchange.rank,Exchange.due,hp,hsem,hcall]
  | testTimeOut =>
    refine .inr ?_
    by_cases hflag : s.isCmdSendTimeOut = true
    · exact htask _ (by simp only [taskStep,hp,hflag]; rfl) (by rfl) (by simp [Exchange.rank,hp])
    · have hflag' : s.isCmdSendTimeOut = false := by simpa using hflag
      exact htask _ (by simp only [taskStep,hp,hflag']; rfl) (by rfl) (by simp [Exchange.rank,hp])
  | check hsem hslot hgot =>
    obtain ⟨m,hm⟩ := hheld.exists_ackMsg hslot hgot
    exact .inr (htask _ (by simp only [taskStep,hp,hm]; rfl) (by rfl) (by simp [Exchange.rank,hp]))

theorem exchange_ends {below : ℕ → UInt8} {s : Exchange} (h : Inv s) (hheld : s.Held)
    (hlive : s.trapped = false) : ∃ t, Reaches (step below) Event.Own s t ∧ t.phase = .idle := by
  have hprogress : ∀ t : Exchange, (Inv t ∧ t.Held ∧ t.trapped = false) → t.phase = .idle ∨
      ∃ e t', e.Own ∧ step below t e = some t' ∧ (Inv t' ∧ t'.Held ∧ t'.trapped = false) ∧
        t'.rank < t.rank := by
    rintro t ⟨ht,hheld,hlive⟩
    rcases own_progress below ht hheld hlive with
      hidle | ⟨e,t',he,hstep,⟨hhanded,htrapped⟩,hrank⟩
    · exact .inl hidle
    · refine .inr ⟨e,t',he,hstep,⟨inv_step ht hstep,?_,htrapped.trans hlive⟩,hrank⟩
      rw [Exchange.Held,hhanded]
      exact hheld
  obtain ⟨t,ht,-,hidle⟩ := reaches_of_rank Exchange.rank hprogress ⟨h,hheld,hlive⟩
  exact ⟨t,ht,hidle⟩

/-- What the exchange keeps under every interleaving. The task passes the test of
`isCmdSendTimeOut` only with a buffer handed over, and finds `gpsAckMsg` null only when memory
ran out behind it; of the buffers handed over all but the last are lost, and the last one is
freed; and while memory has not run out last and the program has not trapped, the exchange can end
without the receiver. -/
structure Safe (below : ℕ → UInt8) (s : Exchange) : Prop where
  answered : s.phase = .testTimeOut → s.isCmdSendTimeOut = false → s.Delivered
  null_read : s.phase = .check → (s.ackMsg = none ↔ s.handed.getLast? = some none)
  lost : s.lost = s.handed.dropLast.reduceOption
  freed : s.phase = .idle → s.ackMsg = none
  ends : s.Held → s.trapped = false → ∃ t, Reaches (step below) Event.Own s t ∧ t.phase = .idle

theorem exchange_safe {below : ℕ → UInt8} {allowed : Event → Prop} {log : LogSetting}
    {given : Given} {s : Exchange} (h : Reachable below allowed log given s) : Safe below s := by
  have hinv := reachable_inv h
  refine ⟨?_,?_,hinv.lost,?_,exchange_ends hinv⟩
  · intro hp hflag
    have hat := hinv.phase
    rw [hp] at hat
    cases hat with
    | testTimeOut _ _ hwoken => exact hwoken.resolve_left (by simp [hflag])
  · intro hp
    have hat := hinv.phase
    rw [hp] at hat
    cases hat with
    | check _ hslot hgot =>
      constructor
      · intro hnone
        by_contra hheld
        obtain ⟨m,hm⟩ := Exchange.Held.exists_ackMsg hheld hslot hgot
        rw [hm] at hnone
        cases hnone
      · intro hlast
        rw [hslot,hlast]
        rfl
  · intro hp
    have hat := hinv.phase
    rw [hp] at hat
    cases hat with
    | idle _ hack => exact hack

def rebootGiven : Given := ⟨.reboot,lit "$PGKC030,1,1",.nmea⟩

theorem waiting_reachable {allowed : Event → Prop} (hcommand : allowed (.command rebootGiven))
    (htask : allowed (.task true [])) :
    ∃ s, s.phase = .wait ∧ Reachable (fun _ => 0) allowed ⟨false,.null⟩ rebootGiven s := by
  have hcreate : Reachable (fun _ => 0) allowed ⟨false,.null⟩ rebootGiven _ :=
    Reaches.refl.tail hcommand rfl
  exact ⟨_,rfl,((hcreate.tail htask rfl).tail htask rfl).tail htask rfl⟩

theorem exchange_safe_waiting : ∃ s, s.phase = .wait ∧ Safe (fun _ => 0) s := by
  obtain ⟨s,hp,hs⟩ := @waiting_reachable (fun _ => True) trivial trivial
  exact ⟨s,hp,exchange_safe hs⟩

end CommandExchange
end A9GTracker
