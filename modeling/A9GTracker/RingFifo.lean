import Mathlib.Data.List.Basic
import Mathlib.Tactic.Common
import A9GTracker.RingBuffer
import A9GTracker.Runs

/-! The ring buffer refines a queue that holds one byte less than the ring has slots. -/
namespace A9GTracker

/-! A queue of bounded capacity. A request that does not fit, or asks for more than there is, is
refused as a whole. -/
namespace BoundedFifo

variable {α : Type} {cap : ℕ}

structure Fifo (α : Type) (cap : ℕ) where
  items : List α
  bound : items.length ≤ cap

def empty : Fifo α cap := ⟨[],Nat.zero_le _⟩

def put (q : Fifo α cap) (data : List α) : Fifo α cap × Bool :=
  if h : q.items.length+data.length ≤ cap then (⟨q.items++data,by simpa using h⟩,true)
  else (q,false)

def get (q : Fifo α cap) (n : ℕ) : Fifo α cap × Option (List α) :=
  if n ≤ q.items.length then
    (⟨q.items.drop n,by
      have := q.bound
      simp only [List.length_drop]
      omega⟩,some (q.items.take n))
  else (q,none)

theorem put_items (q : Fifo α cap) (data : List α) :
    (put q data).1.items =
      if q.items.length+data.length ≤ cap then q.items++data else q.items := by
  simp only [put]
  split_ifs <;> rfl

theorem put_ok (q : Fifo α cap) (data : List α) :
    (put q data).2 = decide (q.items.length+data.length ≤ cap) := by
  simp only [put]
  split_ifs with h <;> simp [h]

theorem get_items (q : Fifo α cap) (n : ℕ) :
    (get q n).1.items = if n ≤ q.items.length then q.items.drop n else q.items := by
  simp only [get]
  split_ifs <;> rfl

theorem get_taken (q : Fifo α cap) (n : ℕ) :
    (get q n).2 = if n ≤ q.items.length then some (q.items.take n) else none := by
  simp only [get]
  split_ifs <;> rfl

end BoundedFifo

namespace RingFifo

open RingBuffer BoundedFifo Simulation

inductive Call
  | puts (data : List UInt8) (fits : data.length ≤ 65535)
  | gets (length : ℕ) (fits : length ≤ 65535)
  | clear

inductive Answer
  | puts (ok : Bool)
  | gets (bytes : Option (List UInt8))
  | clear
  deriving DecidableEq

def Answer.Refused : Answer → Prop
  | .puts ok => ok = false
  | .gets bytes => bytes = none
  | .clear => False

def ringStep (b : Buffer) : Call → Buffer × Answer
  | .puts data _ => ((bufferPuts b data data.length).1,.puts (bufferPuts b data data.length).2)
  | .gets length _ => ((bufferGets b length).1,.gets (bufferGets b length).2)
  | .clear => (bufferClear b,.clear)

def fifoStep {cap : ℕ} (q : Fifo UInt8 cap) : Call → Fifo UInt8 cap × Answer
  | .puts data _ => ((put q data).1,.puts (put q data).2)
  | .gets length _ => ((get q length).1,.gets (get q length).2)
  | .clear => (empty,.clear)

/-! ### The slots a call touches -/

/-- The slots the loop of `Buffer_Puts` writes, in order. -/
def putSlots (b : Buffer) : List UInt8 → List ℕ
  | [] => []
  | x::data => (putByte b x).rear::putSlots (putByte b x) data

/-- The slots the loop of `Buffer_Gets` reads, in order. -/
def getSlots (b : Buffer) : ℕ → List ℕ
  | 0 => []
  | n+1 =>
    let front := u16 ((b.front+1) % b.maxSize)
    front::getSlots { b with front := front } n

def accesses (b : Buffer) : Call → List ℕ
  | .puts data _ => if (bufferPuts b data data.length).2 then putSlots b data else []
  | .gets length _ => if (bufferGets b length).2.isSome then getSlots b length else []
  | .clear => []

theorem putSlots_lt {b : Buffer} (hb : WellFormed b) (data : List UInt8) :
    ∀ i ∈ putSlots b data, i < b.maxSize := by
  induction data generalizing b with
  | nil => simp [putSlots]
  | cons x data ih =>
    have hx := putByte_wellFormed hb x
    intro i hi
    rcases List.mem_cons.mp hi with rfl | hi
    · exact hx.rear_lt
    · exact ih hx i hi

theorem getSlots_lt {b : Buffer} (hb : WellFormed b) (n : ℕ) :
    ∀ i ∈ getSlots b n, i < b.maxSize := by
  induction n generalizing b with
  | zero => simp [getSlots]
  | succ n ih =>
    have hfront : u16 ((b.front+1) % b.maxSize) < b.maxSize := by
      rw [u16_mod hb.maxSize_pos hb.maxSize_le]
      exact Nat.mod_lt _ hb.maxSize_pos
    intro i hi
    rcases List.mem_cons.mp hi with rfl | hi
    · exact hfront
    · exact ih (b := { b with front := u16 ((b.front+1) % b.maxSize) })
        ⟨hb.maxSize_pos,hb.maxSize_le,hfront,hb.rear_lt⟩ i hi

theorem accesses_lt {b : Buffer} (hb : WellFormed b) (call : Call) :
    ∀ i ∈ accesses b call, i < b.maxSize := by
  cases call with
  | puts data _ =>
    simp only [accesses]
    split_ifs
    · exact putSlots_lt hb data
    · simp
  | gets length _ =>
    simp only [accesses]
    split_ifs
    · exact getSlots_lt hb length
    · simp
  | clear => simp [accesses]

/-! ### The simulation -/

/-- The ring stands for the queue of its contents. -/
structure Represents {cap : ℕ} (b : Buffer) (q : Fifo UInt8 cap) : Prop where
  wellFormed : WellFormed b
  maxSize_eq : b.maxSize = cap+1
  contents_eq : contents b = q.items

theorem count_eq_length {cap : ℕ} {b : Buffer} {q : Fifo UInt8 cap} (h : Represents b q) :
    count b = q.items.length := by
  rw [← h.contents_eq,contents_length]

theorem puts_represents {cap : ℕ} {b : Buffer} {q : Fifo UInt8 cap} (h : Represents b q)
    (data : List UInt8) :
    (bufferPuts b data data.length).2 = (put q data).2 ∧
      Represents (bufferPuts b data data.length).1 (put q data).1 := by
  obtain ⟨hw,hm,hc⟩ := bufferPuts_spec h.wellFormed data (le_refl data.length)
  have hfit : q.items.length+data.length < cap+1 ↔ q.items.length+data.length ≤ cap :=
    Nat.lt_succ_iff
  constructor
  · rw [bufferPuts_ok h.wellFormed,put_ok,count_eq_length h,h.maxSize_eq]
    exact decide_eq_decide.mpr hfit
  · refine ⟨hw,hm.trans h.maxSize_eq,?_⟩
    rw [hc,put_items,h.contents_eq,h.maxSize_eq,List.take_length]
    simp only [hfit]

theorem gets_represents {cap : ℕ} {b : Buffer} {q : Fifo UInt8 cap} (h : Represents b q)
    (length : ℕ) :
    (bufferGets b length).2 = (get q length).2 ∧
      Represents (bufferGets b length).1 (get q length).1 := by
  rw [get_taken]
  by_cases hl : length ≤ q.items.length
  · have hqueued : length ≤ (contents b).length := by rwa [h.contents_eq]
    obtain ⟨hw,hm,hg,hd⟩ := bufferGets_spec h.wellFormed hqueued
    rw [if_pos hl]
    refine ⟨by rw [hg,h.contents_eq],hw,hm.trans h.maxSize_eq,?_⟩
    rw [hd,get_items,if_pos hl,h.contents_eq]
  · have hsize : bufferSize b < length := by
      rw [bufferSize_eq h.wellFormed,count_eq_length h]
      omega
    have hsame : bufferGets b length = (b,none) := if_pos hsize
    rw [if_neg hl,hsame]
    refine ⟨rfl,h.wellFormed,h.maxSize_eq,?_⟩
    rw [get_items,if_neg hl]
    exact h.contents_eq

theorem clear_represents {cap : ℕ} {b : Buffer} {q : Fifo UInt8 cap} (h : Represents b q) :
    Represents (bufferClear b) (empty : Fifo UInt8 cap) := by
  have hw : WellFormed (bufferClear b) :=
    ⟨h.wellFormed.maxSize_pos,h.wellFormed.maxSize_le,h.wellFormed.maxSize_pos,
      h.wellFormed.maxSize_pos⟩
  have hcount : count (bufferClear b) = 0 :=
    count_of_rear hw hw.maxSize_pos (Nat.mod_eq_of_lt hw.maxSize_pos)
  refine ⟨hw,h.maxSize_eq,?_⟩
  rw [contents,hcount]
  rfl

theorem ring_simulates (cap : ℕ) :
    Simulates Represents ringStep (fifoStep : Fifo UInt8 cap → Call → _) := by
  intro b q call h
  cases call with
  | puts data _ =>
    obtain ⟨ha,hr⟩ := puts_represents h data
    exact ⟨congrArg Answer.puts ha,hr⟩
  | gets length _ =>
    obtain ⟨ha,hr⟩ := gets_represents h length
    exact ⟨congrArg Answer.gets ha,hr⟩
  | clear => exact ⟨rfl,clear_represents h⟩

theorem bufferInit_represents {maxSize : ℕ} (h0 : 0 < maxSize) (hle : maxSize ≤ 65536) :
    Represents (bufferInit maxSize) (empty : Fifo UInt8 (maxSize-1)) :=
  ⟨bufferInit_wellFormed h0 hle,(Nat.sub_add_cancel h0).symm,bufferInit_contents h0 hle⟩

/-- A refused call leaves the positions and every slot alone. -/
theorem ringStep_refused (b : Buffer) (call : Call) (h : (ringStep b call).2.Refused) :
    (ringStep b call).1 = b := by
  cases call with
  | puts data _ =>
    simp only [ringStep,Answer.Refused,bufferPuts] at h ⊢
    split_ifs at h ⊢
    rfl
  | gets length _ =>
    simp only [ringStep,Answer.Refused,bufferGets] at h ⊢
    split_ifs at h ⊢
    rfl
  | clear => exact h.elim

/-- Whatever is called after `Buffer_Init`, the ring answers as the queue of capacity
`maxSize-1` does, holds its bytes and touches its own slots only. -/
theorem ring_refines_fifo {maxSize : ℕ} (h0 : 0 < maxSize) (hle : maxSize ≤ 65536)
    (calls : List Call) :
    answers ringStep (bufferInit maxSize) calls =
        answers fifoStep (empty : Fifo UInt8 (maxSize-1)) calls ∧
      let b := final ringStep (bufferInit maxSize) calls
      let q := final fifoStep (empty : Fifo UInt8 (maxSize-1)) calls
      contents b = q.items ∧ bufferSize b = q.items.length ∧
        ∀ call, ((ringStep b call).2.Refused → (ringStep b call).1 = b) ∧
          ∀ i ∈ accesses b call, i < maxSize := by
  have hinit := bufferInit_represents h0 hle
  have hr := (ring_simulates (maxSize-1)).final_related hinit calls
  refine ⟨(ring_simulates (maxSize-1)).answers_eq hinit calls,hr.contents_eq,?_,?_⟩
  · rw [bufferSize_eq hr.wellFormed,count_eq_length hr]
  · intro call
    refine ⟨ringStep_refused _ call,fun i hi => ?_⟩
    have hlt := accesses_lt hr.wellFormed call i hi
    rwa [hr.maxSize_eq,Nat.sub_add_cancel h0] at hlt

theorem ring_refines_fifo_three :
    answers ringStep (bufferInit 3) [.puts [1,2] (by decide),.puts [3] (by decide)] =
        answers fifoStep (empty : Fifo UInt8 2) [.puts [1,2] (by decide),.puts [3] (by decide)] :=
  (ring_refines_fifo (show 0 < 3 by decide) (by decide) _).1

example : answers ringStep (bufferInit 3)
    [.puts [1,2] (by decide),.puts [3] (by decide),.gets 2 (by decide)] =
      [.puts true,.puts false,.gets (some [1,2])] := by decide

end RingFifo
end A9GTracker
