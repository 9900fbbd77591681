import Mathlib.Data.List.Basic
import Mathlib.Tactic.Common
import A9GTracker.Network

/-! The request that `Http_Post` of `app/src/http.c` hands to the network. -/
namespace A9GTracker
namespace Http

open CString Network

/-- The return value of `snprintf`, negative where it does not fit an `int`. -/
def snprintfLength (text : List UInt8) : ℤ := if text.length ≤ 2147483647 then text.length else -1

/-- What `snprintf` leaves in a buffer that it may use `size` bytes of. -/
def snprintf (buffer : List UInt8) (size : ℕ) (text : List UInt8) : List UInt8 :=
  if size = 0 then buffer
  else text.take (size-1)++0::buffer.drop ((text.take (size-1)).length+1)

/-- The lines of the template through the empty one. -/
def requestHeader (path hostName : List UInt8) (dataLen : ℕ) : List UInt8 :=
  lit "POST "++path++lit " HTTP/1.1\r\n"++
  lit "Host: "++hostName++lit "\r\n"++
  lit "Content-Type: application/x-www-form-urlencoded\r\n"++
  lit "Connection: Keep-Alive\r\n"++
  lit "Content-Length: "++printNat dataLen++lit "\r\n\r\n"

def requestText (path hostName : List UInt8) (dataLen : ℕ) (data : List UInt8) : List UInt8 :=
  requestHeader path hostName dataLen++data++lit "\r\n"

structure HttpCall where
  secure : Bool
  hostName : List UInt8
  port : List UInt8
  buffer : List UInt8
  deriving DecidableEq

/-- `Http_Post`: what it returns, and the call it makes. `malloc` gives the bytes an
allocated block happens to hold, `network` the answer to the call. -/
def httpPost (network : HttpCall → ℤ) (malloc : ℕ → Option (ℕ → UInt8)) (secure : Bool)
    (hostName port path data : List UInt8) (dataLen : UInt16) : ℤ × Option HttpCall :=
  if data.length ≠ dataLen.toNat then (-1,none)
  else
    let text := requestText path hostName dataLen.toNat data
    let bufferLen := snprintfLength text
    if bufferLen ≤ 0 then (-1,none)
    else
      match malloc (bufferLen.toNat+1) with
      | none => (-1,none)
      | some block =>
        let buffer := (List.range (bufferLen.toNat+1)).map block
        let buffer := (snprintf buffer bufferLen.toNat text).set bufferLen.toNat 0
        let call := ⟨secure,hostName,port,buffer.take bufferLen.toNat⟩
        (network call,some call)

/-- The header lines, then the announced number of bytes, which are the data. -/
def Framed (path hostName data bytes : List UInt8) : Prop :=
  ∃ body, bytes = requestHeader path hostName body.length++body ∧ body = data

theorem snprintf_truncated {buffer text : List UInt8} (hpos : 0 < text.length) :
    ((snprintf buffer text.length text).set text.length 0).take text.length =
      text.take (text.length-1)++[0] := by
  have hl : (text.take (text.length-1)++[0]).length = text.length := by
    rw [List.length_append,List.length_take,List.length_singleton]
    omega
  rw [List.take_set_of_le (le_refl _),snprintf,if_neg (by omega),List.append_cons]
  exact List.take_left' hl

/-- The last byte the template ends with is a NUL in what is handed over. -/
theorem httpPost_buffer {network : HttpCall → ℤ} {malloc : ℕ → Option (ℕ → UInt8)}
    {secure : Bool} {hostName port path data : List UInt8} {dataLen : UInt16} {call : HttpCall}
    (h : (httpPost network malloc secure hostName port path data dataLen).2 = some call) :
    call.buffer = requestHeader path hostName data.length++data++[13,0] := by
  have hd : data.length = dataLen.toNat := by
    by_contra hne
    simp [httpPost,hne] at h
  have htext : requestText path hostName data.length data =
      requestHeader path hostName data.length++data++[13]++[10] := by
    simp [requestText,lit]
  have hpos : 0 < (requestText path hostName data.length data).length := by
    rw [htext,List.length_append]
    exact Nat.succ_pos _
  simp only [httpPost,← hd,ne_eq,not_true_eq_false,if_false] at h
  split_ifs at h with hneg
  have hfit : (snprintfLength (requestText path hostName data.length data)).toNat =
      (requestText path hostName data.length data).length := by
    simp only [snprintfLength] at hneg ⊢
    split_ifs at hneg ⊢
    · exact Int.toNat_natCast _
    · exact absurd (by decide) hneg
  rw [hfit] at h
  cases hm : malloc ((requestText path hostName data.length data).length+1) with
  | none => simp [hm] at h
  | some block =>
    simp only [hm,snprintf_truncated hpos,Option.some.injEq] at h
    have htake : (requestText path hostName data.length data).take
        ((requestText path hostName data.length data).length-1) =
        requestHeader path hostName data.length++data++[13] := by
      rw [htext,List.length_append]
      exact List.take_left
    rw [← h,htake]
    simp

/-- No request is framed as announced: its data are followed by a CR and a NUL. -/
theorem httpPost_not_framed {network : HttpCall → ℤ} {malloc : ℕ → Option (ℕ → UInt8)}
    {secure : Bool} {hostName port path data : List UInt8} {dataLen : UInt16} {call : HttpCall}
    (h : (httpPost network malloc secure hostName port path data dataLen).2 = some call) :
    ¬ Framed path hostName data call.buffer ∧ 0 ∈ call.buffer := by
  have hbuffer := httpPost_buffer h
  constructor
  · rintro ⟨body,hb,rfl⟩
    have hl := congrArg List.length (hbuffer.symm.trans hb)
    simp at hl
  · rw [hbuffer]
    simp

def smallCall : HttpCall where
  secure := false
  hostName := lit "h"
  port := lit "80"
  buffer := requestHeader (lit "/") (lit "h") 1++lit "a"++[13,0]

theorem httpPost_smallCall : (httpPost (fun _ => 0) (fun _ => some fun _ => 0) false (lit "h")
    (lit "80") (lit "/") (lit "a") 1).2 = some smallCall := by
  decide +kernel

theorem httpPost_not_framed_smallCall :
    ¬ Framed (lit "/") (lit "h") (lit "a") smallCall.buffer ∧ 0 ∈ smallCall.buffer :=
  httpPost_not_framed httpPost_smallCall

/-- The handed bytes are two longer than what is announced. -/
theorem request_ends_with_nul :
    ¬ ∀ (network : HttpCall → ℤ) (malloc : ℕ → Option (ℕ → UInt8)) (secure : Bool)
      (hostName port path data : List UInt8) (dataLen : UInt16) (call : HttpCall),
      (httpPost network malloc secure hostName port path data dataLen).2 = some call →
        Framed path hostName data call.buffer := by
  intro h
  obtain ⟨body,hb,hbody⟩ := h _ _ _ _ _ _ _ _ _ httpPost_smallCall
  have hl := congrArg List.length hb
  rw [hbody] at hl
  simp [smallCall,requestHeader,lit] at hl

end Http
end A9GTracker
