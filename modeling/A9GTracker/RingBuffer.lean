import Mathlib.Data.List.Basic
import Mathlib.Data.List.Range
import Mathlib.Data.UInt
import Mathlib.Tactic.Common
import Mathlib.Tactic.Ring
import A9GTracker.Search

/-! The ring buffer of `libs/utils/src/buffer.c`. `front` is the slot before the oldest
byte and `rear` the slot of the newest one, so one slot always stays empty. -/
namespace A9GTracker
namespace RingBuffer

def u16 (n : ℕ) : ℕ := n % 65536

/-- Conversion of a possibly negative `int` to `uint32_t`. -/
def u32 (n : ℤ) : ℕ := (n % 4294967296).toNat

structure Buffer where
  front : ℕ
  rear : ℕ
  buffer : ℕ → UInt8
  maxSize : ℕ

def bufferInit (maxSize : ℕ) : Buffer where
  front := 0
  rear := 0
  buffer := Function.update (fun _ => 0) 0 32
  maxSize := maxSize

def bufferSize (b : Buffer) : ℕ := u32 ((b.rear : ℤ)-b.front+b.maxSize) % b.maxSize

def bufferSize2 (b : Buffer) (index : ℕ) : ℕ := u32 ((index : ℤ)-b.front+b.maxSize) % b.maxSize

def bufferStartPostion (b : Buffer) : ℕ := (b.front+1) % b.maxSize

def bufferClear (b : Buffer) : Buffer := { b with front := 0, rear := 0 }

def putByte (b : Buffer) (x : UInt8) : Buffer :=
  let rear := u16 ((b.rear+1) % b.maxSize)
  { b with rear := rear, buffer := Function.update b.buffer rear x }

def bufferPuts (b : Buffer) (data : List UInt8) (length : ℕ) : Buffer × Bool :=
  if b.maxSize-bufferSize b ≤ length then (b,false)
  else ((data.take length).foldl putByte b,true)

/-- The loop of `Buffer_Gets`: the bytes in the order they are stored to `data`. -/
def getBytes (b : Buffer) : ℕ → Buffer × List UInt8
  | 0 => (b,[])
  | n+1 =>
    let front := u16 ((b.front+1) % b.maxSize)
    let r := getBytes { b with front := front } n
    (r.1,b.buffer front::r.2)

def bufferGets (b : Buffer) (length : ℕ) : Buffer × Option (List UInt8) :=
  if bufferSize b < length then (b,none)
  else
    let r := getBytes b length
    (r.1,some r.2)

/-- The loop of `Buffer_Query`, with `size` bytes left to look at. -/
def queryLoop (b : Buffer) (data : List UInt8) (length : ℕ) : ℕ → ℕ → ℕ → ℤ → ℤ
  | 0, _, _, _ => -1
  | size+1, index, indexData, indexReturn =>
    if data[indexData]? = some (b.buffer index) then
      let indexReturn := if indexData = 0 then (index : ℤ) else indexReturn
      if indexData+1 = length then indexReturn
      else queryLoop b data length size ((index+1) % b.maxSize) (indexData+1) indexReturn
    else if data[0]? = some (b.buffer index) then
      if 1 = length then (index : ℤ)
      else queryLoop b data length size ((index+1) % b.maxSize) 1 (index : ℤ)
    else queryLoop b data length size ((index+1) % b.maxSize) 0 (-1)

def bufferQuery (b : Buffer) (data : List UInt8) (length startPosition : ℕ) : ℤ :=
  let size := u32 ((b.rear : ℤ)-startPosition+1+b.maxSize) % b.maxSize
  queryLoop b data length size startPosition 0 (-1)

/-! ### The queue behind the ring -/

/-- The state every operation keeps: both positions lie inside the ring. -/
structure WellFormed (b : Buffer) : Prop where
  maxSize_pos : 0 < b.maxSize
  maxSize_le : b.maxSize ≤ 65536
  front_lt : b.front < b.maxSize
  rear_lt : b.rear < b.maxSize

def segment (b : Buffer) : ℕ → ℕ → List UInt8
  | _, 0 => []
  | start, n+1 => b.buffer (start % b.maxSize)::segment b (start+1) n

def count (b : Buffer) : ℕ := (b.rear+b.maxSize-b.front) % b.maxSize

def contents (b : Buffer) : List UInt8 := segment b (b.front+1) (count b)

@[simp] theorem segment_length (b : Buffer) (start n : ℕ) : (segment b start n).length = n := by
  induction n generalizing start <;> simp_all [segment]

@[simp] theorem contents_length (b : Buffer) : (contents b).length = count b := by
  simp [contents]

theorem segment_add (b : Buffer) (start n m : ℕ) :
    segment b start (n+m) = segment b start n++segment b (start+n) m := by
  induction n generalizing start with
  | zero => simp [segment]
  | succ n ih =>
    have h := ih (start+1)
    rw [Nat.add_right_comm n 1 m]
    simp only [segment, List.cons_append, h]
    congr 3
    omega

theorem segment_drop (b : Buffer) (start n k : ℕ) :
    (segment b start n).drop k = segment b (start+k) (n-k) := by
  rcases Nat.le_total k n with hk | hk
  · have h := segment_add b start k (n-k)
    rw [Nat.add_sub_cancel' hk] at h
    rw [h, List.drop_append_of_le_length (by simp)]
    simp
  · rw [List.drop_of_length_le (by simpa using hk), Nat.sub_eq_zero_of_le hk]
    rfl

theorem segment_mod (b : Buffer) (start n : ℕ) :
    segment b (start % b.maxSize) n = segment b start n := by
  induction n generalizing start with
  | zero => rfl
  | succ n ih =>
    have h1 := ih (start % b.maxSize+1)
    have h2 := ih (start+1)
    rw [Nat.mod_add_mod] at h1
    simp only [segment, Nat.mod_mod, ← h1, h2]

theorem segment_congr {b b' : Buffer} (hm : b'.maxSize = b.maxSize) {start n : ℕ}
    (h : ∀ i < n, b'.buffer ((start+i) % b.maxSize) = b.buffer ((start+i) % b.maxSize)) :
    segment b' start n = segment b start n := by
  induction n generalizing start with
  | zero => rfl
  | succ n ih =>
    have h0 := h 0 (by omega)
    have ht : segment b' (start+1) n = segment b (start+1) n := by
      apply ih
      intro i hi
      have hs := h (i+1) (by omega)
      rwa [show start+(i+1) = start+1+i by omega] at hs
    simp only [segment, hm, ht]
    simpa using h0

/-! ### One specification for each operation -/

theorem u32_of_nonneg {n : ℤ} (h0 : 0 ≤ n) (h : n < 4294967296) : u32 n = n.toNat := by
  unfold u32
  omega

theorem u16_mod {n m : ℕ} (hm : 0 < m) (h : m ≤ 65536) : u16 (n % m) = n % m := by
  have := Nat.mod_lt n hm
  unfold u16
  omega

theorem bufferSize_eq {b : Buffer} (hb : WellFormed b) : bufferSize b = count b := by
  have ⟨_, _, _, _⟩ := hb
  unfold bufferSize count
  rw [u32_of_nonneg (by omega) (by omega)]
  congr 1
  omega

theorem count_lt {b : Buffer} (hb : WellFormed b) : count b < b.maxSize :=
  Nat.mod_lt _ hb.maxSize_pos

/-- Any ring whose positions an `int32_t` can name. -/
structure InRing (b : Buffer) : Prop where
  maxSize_lt : b.maxSize < 2147483648
  front_lt : b.front < b.maxSize
  rear_lt : b.rear < b.maxSize

theorem WellFormed.inRing {b : Buffer} (hb : WellFormed b) : InRing b :=
  ⟨by have := hb.maxSize_le; omega,hb.front_lt,hb.rear_lt⟩

theorem InRing.front_add_count {b : Buffer} (hb : InRing b) :
    (b.front+count b) % b.maxSize = b.rear := by
  have ⟨_, hf, hr⟩ := hb
  have h : b.front+(b.rear+b.maxSize-b.front) = b.rear+b.maxSize := by omega
  rw [count, Nat.add_mod_mod, h, Nat.add_mod_right, Nat.mod_eq_of_lt hr]

theorem front_add_count {b : Buffer} (hb : WellFormed b) :
    (b.front+count b) % b.maxSize = b.rear :=
  hb.inRing.front_add_count

theorem count_of_rear {b : Buffer} (hb : WellFormed b) {n : ℕ} (hn : n < b.maxSize)
    (h : (b.front+n) % b.maxSize = b.rear) : count b = n := by
  have h' := front_add_count hb
  have hc := count_lt hb
  have he : (b.front+count b) % b.maxSize = (b.front+n) % b.maxSize := h'.trans h.symm
  have hm : count b ≡ n [MOD b.maxSize] := Nat.ModEq.add_left_cancel' b.front he
  rwa [Nat.ModEq, Nat.mod_eq_of_lt hc, Nat.mod_eq_of_lt hn] at hm

theorem putByte_wellFormed {b : Buffer} (hb : WellFormed b) (x : UInt8) :
    WellFormed (putByte b x) where
  maxSize_pos := hb.maxSize_pos
  maxSize_le := hb.maxSize_le
  front_lt := hb.front_lt
  rear_lt := by
    simp only [putByte, u16_mod hb.maxSize_pos hb.maxSize_le]
    exact Nat.mod_lt _ hb.maxSize_pos

theorem putByte_rear {b : Buffer} (hb : WellFormed b) (x : UInt8) :
    (putByte b x).rear = (b.front+(count b+1)) % b.maxSize := by
  simp only [putByte, u16_mod hb.maxSize_pos hb.maxSize_le]
  conv_lhs => rw [← front_add_count hb]
  rw [Nat.mod_add_mod, Nat.add_assoc]

theorem putByte_count {b : Buffer} (hb : WellFormed b) (hc : count b+1 < b.maxSize) (x : UInt8) :
    count (putByte b x) = count b+1 :=
  count_of_rear (putByte_wellFormed hb x) hc (putByte_rear hb x).symm

theorem slot_inj {m a i j : ℕ} (hi : i < m) (hj : j < m) (h : (a+i) % m = (a+j) % m) : i = j := by
  have hm : i ≡ j [MOD m] := Nat.ModEq.add_left_cancel' a h
  rwa [Nat.ModEq, Nat.mod_eq_of_lt hi, Nat.mod_eq_of_lt hj] at hm

theorem putByte_contents {b : Buffer} (hb : WellFormed b) (hc : count b+1 < b.maxSize)
    (x : UInt8) : contents (putByte b x) = contents b++[x] := by
  have hrear := putByte_rear hb x
  have hbuf : (putByte b x).buffer = Function.update b.buffer (putByte b x).rear x := rfl
  have hold : segment (putByte b x) (b.front+1) (count b) = segment b (b.front+1) (count b) := by
    apply segment_congr (show (putByte b x).maxSize = b.maxSize from rfl)
    intro i hi
    rw [hbuf, Function.update_of_ne]
    intro he
    rw [hrear, show b.front+1+i = b.front+(i+1) by omega] at he
    have := slot_inj (by omega) hc he
    omega
  have hnew : (putByte b x).buffer ((b.front+1+count b) % b.maxSize) = x := by
    rw [hbuf, hrear, show b.front+1+count b = b.front+(count b+1) by omega, Function.update_self]
  rw [contents, putByte_count hb hc, segment_add]
  show segment (putByte b x) (b.front+1) (count b)++
    [(putByte b x).buffer ((b.front+1+count b) % b.maxSize)] = _
  rw [hold, hnew]
  rfl

theorem foldl_putByte {b : Buffer} (hb : WellFormed b) (data : List UInt8)
    (hc : count b+data.length < b.maxSize) :
    WellFormed (data.foldl putByte b) ∧ (data.foldl putByte b).maxSize = b.maxSize ∧
      contents (data.foldl putByte b) = contents b++data := by
  induction data generalizing b with
  | nil => simp [hb]
  | cons x data ih =>
    simp only [List.length_cons] at hc
    have hx : count (putByte b x) = count b+1 := putByte_count hb (by omega) x
    have hs : count (putByte b x)+data.length < (putByte b x).maxSize := by
      rw [hx]
      show _ < b.maxSize
      omega
    obtain ⟨hw, hm, he⟩ := ih (putByte_wellFormed hb x) hs
    refine ⟨hw, hm, ?_⟩
    rw [List.foldl_cons, he, putByte_contents hb (by omega), List.append_assoc]
    rfl

/-- `Buffer_Puts` appends the bytes when they fit below the capacity and otherwise
changes nothing. -/
theorem bufferPuts_spec {b : Buffer} (hb : WellFormed b) (data : List UInt8) {length : ℕ}
    (hl : length ≤ data.length) :
    WellFormed (bufferPuts b data length).1 ∧
    (bufferPuts b data length).1.maxSize = b.maxSize ∧
    contents (bufferPuts b data length).1 =
      if (contents b).length+length < b.maxSize then contents b++data.take length
      else contents b := by
  have hc := count_lt hb
  simp only [bufferPuts, bufferSize_eq hb, contents_length]
  by_cases hfit : count b+length < b.maxSize
  · have hn : ¬ b.maxSize-count b ≤ length := by omega
    simp only [hn, hfit, if_true, if_false]
    exact foldl_putByte hb _ (by simpa [Nat.min_eq_left hl] using hfit)
  · have hn : b.maxSize-count b ≤ length := by omega
    simp [hn, hfit, hb]

theorem bufferPuts_ok {b : Buffer} (hb : WellFormed b) (data : List UInt8) (length : ℕ) :
    (bufferPuts b data length).2 = decide (count b+length < b.maxSize) := by
  have hc := count_lt hb
  simp only [bufferPuts,bufferSize_eq hb]
  by_cases hfit : count b+length < b.maxSize
  · rw [if_neg (by omega)]
    simp [hfit]
  · rw [if_pos (by omega)]
    simp [hfit]

theorem getBytes_spec {b : Buffer} (hb : WellFormed b) (n : ℕ) (hn : n ≤ count b) :
    WellFormed (getBytes b n).1 ∧ (getBytes b n).1.maxSize = b.maxSize ∧
    (getBytes b n).2 = (contents b).take n ∧ contents (getBytes b n).1 = (contents b).drop n := by
  induction n generalizing b with
  | zero => simp [getBytes, hb]
  | succ n ih =>
    let b' : Buffer := { b with front := u16 ((b.front+1) % b.maxSize) }
    have hfront : b'.front = (b.front+1) % b.maxSize := u16_mod hb.maxSize_pos hb.maxSize_le
    have hb' : WellFormed b' := by
      refine ⟨hb.maxSize_pos, hb.maxSize_le, ?_, hb.rear_lt⟩
      rw [hfront]
      exact Nat.mod_lt _ hb.maxSize_pos
    have hlt := count_lt hb
    have hcount : count b' = count b-1 := by
      apply count_of_rear hb' (show count b-1 < b.maxSize by omega)
      show (b'.front+(count b-1)) % b.maxSize = b.rear
      rw [hfront, Nat.mod_add_mod, show b.front+1+(count b-1) = b.front+count b by omega]
      exact front_add_count hb
    have hcont : contents b = b.buffer b'.front::contents b' := by
      have hs : segment b' (b'.front+1) (count b-1) = segment b (b.front+1+1) (count b-1) := by
        have h1 := segment_mod b ((b.front+1) % b.maxSize+1) (count b-1)
        have h2 := segment_mod b (b.front+1+1) (count b-1)
        rw [Nat.mod_add_mod, h2] at h1
        rw [hfront, h1]
        exact segment_congr (show b'.maxSize = b.maxSize from rfl) fun _ _ => rfl
      rw [contents, contents, hcount, hs, hfront]
      conv_lhs => rw [show count b = count b-1+1 by omega]
      rfl
    obtain ⟨hw, hm, hg, hd⟩ := ih hb' (by omega)
    refine ⟨hw, hm, ?_, ?_⟩
    · rw [hcont, List.take_succ_cons, ← hg]
      rfl
    · rw [hcont, List.drop_succ_cons, ← hd]
      rfl

theorem bufferGets_spec {b : Buffer} (hb : WellFormed b) {length : ℕ}
    (hl : length ≤ (contents b).length) :
    WellFormed (bufferGets b length).1 ∧ (bufferGets b length).1.maxSize = b.maxSize ∧
    (bufferGets b length).2 = some ((contents b).take length) ∧
    contents (bufferGets b length).1 = (contents b).drop length := by
  rw [contents_length] at hl
  obtain ⟨hw, hm, hg, hd⟩ := getBytes_spec hb length hl
  have hn : ¬ bufferSize b < length := by rw [bufferSize_eq hb]; omega
  simp only [bufferGets, if_neg hn]
  exact ⟨hw, hm, congrArg some hg, hd⟩

theorem bufferGets_wellFormed {b : Buffer} (hb : WellFormed b) (length : ℕ) :
    WellFormed (bufferGets b length).1 ∧ (bufferGets b length).1.maxSize = b.maxSize := by
  rcases Nat.lt_or_ge (contents b).length length with hl | hl
  · rw [contents_length, ← bufferSize_eq hb] at hl
    simp [bufferGets, hl, hb]
  · obtain ⟨hw, hm, -⟩ := bufferGets_spec hb hl
    exact ⟨hw, hm⟩

/-- The ring position of the queued byte number `i`. -/
def slot (b : Buffer) (i : ℕ) : ℕ := (b.front+1+i) % b.maxSize

theorem slot_lt {b : Buffer} (hb : WellFormed b) (i : ℕ) : slot b i < b.maxSize :=
  Nat.mod_lt _ hb.maxSize_pos

theorem bufferSize2_slot {b : Buffer} (hb : WellFormed b) {i : ℕ} (hi : i < count b) :
    bufferSize2 b (slot b i) = i+1 := by
  have ⟨_, _, _, _⟩ := hb
  have hs := slot_lt hb i
  have hc := count_lt hb
  unfold bufferSize2
  rw [u32_of_nonneg (by omega) (by omega)]
  have he : ((slot b i : ℤ)-b.front+b.maxSize).toNat = slot b i+b.maxSize-b.front := by omega
  have hm : b.front+(slot b i+b.maxSize-b.front) = slot b i+b.maxSize := by omega
  have hmod : (b.front+(slot b i+b.maxSize-b.front)) % b.maxSize =
      (b.front+(i+1)) % b.maxSize := by
    rw [hm, Nat.add_mod_right, slot, Nat.mod_mod, show b.front+1+i = b.front+(i+1) by omega]
  have hcancel : slot b i+b.maxSize-b.front ≡ i+1 [MOD b.maxSize] :=
    Nat.ModEq.add_left_cancel' b.front hmod
  rw [he]
  rwa [Nat.ModEq, Nat.mod_eq_of_lt (show i+1 < b.maxSize by omega)] at hcancel

/-- The loop of `Buffer_Query` is the one-pass matcher on the ring: `k` symbols of the
pattern are matched, starting at position `start`. -/
theorem queryLoop_eq_scan (b : Buffer) (data : List UInt8) (n start k : ℕ) (r : ℤ)
    (hr : k ≠ 0 → r = (start % b.maxSize : ℕ)) :
    queryLoop b data data.length n ((start+k) % b.maxSize) k r =
      match Search.scan data (segment b (start+k) n) k with
      | some i => (((start+i) % b.maxSize : ℕ) : ℤ)
      | none => -1 := by
  induction n generalizing start k r with
  | zero => rfl
  | succ n ih =>
    have hmod : ((start+k) % b.maxSize+1) % b.maxSize = (start+k+1) % b.maxSize :=
      Nat.mod_add_mod _ _ _
    have hret : (if k = 0 then (((start+k) % b.maxSize : ℕ) : ℤ) else r) =
        ((start % b.maxSize : ℕ) : ℤ) := by
      split_ifs with hk
      · rw [hk, Nat.add_zero]
      · exact hr hk
    simp only [queryLoop, segment, Search.scan, hmod, hret]
    split_ifs with hy hlast h0 hone
    · rfl
    · exact ih start (k+1) _ fun _ => rfl
    · rfl
    · rw [ih (start+k) 1 _ fun _ => rfl]
      cases Search.scan data (segment b (start+k+1) n) 1 with
      | none => rfl
      | some i => simp only [Option.map_some, Nat.add_assoc, Nat.add_comm k i]
    · have h := ih (start+k+1) 0 (-1) (fun h => absurd rfl h)
      rw [Nat.add_zero] at h
      rw [h]
      cases Search.scan data (segment b (start+k+1) n) 0 with
      | none => rfl
      | some i => simp only [Option.map_some, show start+k+1+i = start+(i+(k+1)) by omega]

/-- `Buffer_Query` is the one-pass matcher on the bytes from the queued byte number `i` on. -/
theorem bufferQuery_eq_scan {b : Buffer} (hb : InRing b) (data : List UInt8) {i : ℕ}
    (hi : i ≤ count b) (hmax : i+1 < b.maxSize) :
    bufferQuery b data data.length (slot b i) =
      match Search.scan data ((contents b).drop i) 0 with
      | some j => (slot b (i+j) : ℤ)
      | none => -1 := by
  have ⟨_, hf, hr⟩ := hb
  have hs : slot b i < b.maxSize := Nat.mod_lt _ (by omega)
  have hc : count b < b.maxSize := Nat.mod_lt _ (by omega)
  have hsize : u32 ((b.rear : ℤ)-slot b i+1+b.maxSize) % b.maxSize = count b-i := by
    rw [u32_of_nonneg (by omega) (by omega)]
    have he : ((b.rear : ℤ)-slot b i+1+b.maxSize).toNat = b.rear+1+b.maxSize-slot b i := by omega
    have hsum : slot b i+(b.rear+1+b.maxSize-slot b i) = b.rear+1+b.maxSize := by omega
    have hcount : b.front+1+i+(count b-i) = b.front+count b+1 := by omega
    have hmod : (slot b i+(b.rear+1+b.maxSize-slot b i)) % b.maxSize =
        (slot b i+(count b-i)) % b.maxSize := by
      have hr := hb.front_add_count
      rw [hsum, Nat.add_mod_right, slot, Nat.mod_add_mod, hcount, ← hr, Nat.mod_add_mod]
    have hcancel : b.rear+1+b.maxSize-slot b i ≡ count b-i [MOD b.maxSize] :=
      Nat.ModEq.add_left_cancel' (slot b i) hmod
    rw [he]
    rwa [Nat.ModEq, Nat.mod_eq_of_lt (show count b-i < b.maxSize by omega)] at hcancel
  have hseg : segment b (slot b i) (count b-i) = (contents b).drop i := by
    rw [contents, segment_drop, slot, segment_mod]
  have hloop := queryLoop_eq_scan b data (count b-i) (slot b i) 0 (-1) (fun h => absurd rfl h)
  rw [Nat.add_zero, Nat.mod_eq_of_lt hs, hseg] at hloop
  simp only [bufferQuery, hsize, hloop]
  cases Search.scan data ((contents b).drop i) 0 with
  | none => rfl
  | some j => simp only [slot, Nat.mod_add_mod, Nat.add_assoc]

/-- For a pattern without repeated bytes `Buffer_Query` returns the ring position of the
first occurrence at or behind the queued byte number `i`. -/
theorem bufferQuery_spec {b : Buffer} (hb : WellFormed b) {data : List UInt8}
    (hd : data.Nodup) (hne : data ≠ []) {i : ℕ} (hi : i ≤ count b) (hmax : i+1 < b.maxSize) :
    bufferQuery b data data.length (slot b i) =
      match Search.find data ((contents b).drop i) with
      | some j => (slot b (i+j) : ℤ)
      | none => -1 := by
  have hscan := Search.scan_eq_find hd ((contents b).drop i) 0 (List.length_pos_iff.mpr hne)
  rw [List.take_zero, List.nil_append] at hscan
  rw [bufferQuery_eq_scan hb.inRing data hi hmax, hscan]

theorem bufferInit_wellFormed {maxSize : ℕ} (h : 0 < maxSize) (hle : maxSize ≤ 65536) :
    WellFormed (bufferInit maxSize) :=
  ⟨h, hle, h, h⟩

theorem bufferInit_contents {maxSize : ℕ} (h : 0 < maxSize) (hle : maxSize ≤ 65536) :
    contents (bufferInit maxSize) = [] := by
  have hcount : count (bufferInit maxSize) = 0 :=
    count_of_rear (bufferInit_wellFormed h hle) h (Nat.mod_eq_of_lt h)
  rw [contents,hcount]
  rfl

end RingBuffer
end A9GTracker
