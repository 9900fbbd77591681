import Mathlib.Data.List.Basic
import Mathlib.Tactic.Common
import A9GTracker.ConfigLoad
import A9GTracker.DescriptorTable
import A9GTracker.Utils

/-! `http_send_receive` of `app/src/http.c`: one request and its response over a plain
connection. -/
namespace A9GTracker
namespace HttpTransfer

open CString Utils ConfigLoad DescriptorTable

/-- The answers of `select`: -1, 0, and any other with what `FD_ISSET` then says. -/
inductive SelectResult
  | error
  | timeout
  | ready (isSet : Bool)

/-- The calls of the SDK on a network in state `δ`. `send` takes the bytes offered to it and
`recv` the room it is given; a `recv` of no bytes means that the peer has closed. -/
structure Sockets (δ : Type) where
  getHostByName : δ → List UInt8 → Option (List UInt8) × δ
  socket : δ → ℤ × δ
  connect : δ → List UInt8 → ℤ → ℤ × δ
  send : δ → List UInt8 → ℤ × δ
  select : δ → SelectResult × δ
  recv : δ → ℕ → ReadResult × δ

variable {δ : Type}

/-! ### Sending -/

structure SendState (δ : Type) where
  totalSent : ℕ
  wire : List UInt8
  network : δ

structure SendResult (δ : Type) where
  ok : Bool
  wire : List UInt8
  network : δ

def sendBody (api : Sockets δ) (sendBuffer : List UInt8) (st : SendState δ) :
    Loop.Step (SendState δ) (SendResult δ) :=
  if st.totalSent < sendBuffer.length then
    let offered := sendBuffer.drop st.totalSent
    let r := api.send st.network offered
    if r.1 ≤ 0 then .done ⟨false,st.wire,r.2⟩
    else .next ⟨st.totalSent+r.1.toNat,st.wire++offered.take r.1.toNat,r.2⟩
  else .done ⟨true,st.wire,st.network⟩

/-! ### Receiving -/

/-- The memory with `bs` written at an offset. -/
def write (mem : List UInt8) (offset : ℕ) (bs : List UInt8) : List UInt8 :=
  mem.take offset++bs++mem.drop (offset+bs.length)

/-- The state of the second loop; the length is kept in 16 bits. -/
structure RecvState (δ : Type) where
  recvLen : UInt16
  retBuffer : List UInt8
  network : δ

/-- How the second loop is left. -/
inductive RecvExit
  | selectError
  | selectTimeout
  | recvError
  | peerClosed
  | full

/-- The exits on an error close the descriptor themselves, the other two go to the `close` behind
the loop. -/
def RecvExit.calls (fd : ℤ) : RecvExit → List (FdCall ℤ)
  | .selectError => [.closed fd]
  | .selectTimeout => [.closed fd]
  | .recvError => [.closed fd]
  | .peerClosed | .full => [.closed fd]

@[simp] theorem RecvExit.calls_eq (fd : ℤ) (exit : RecvExit) : exit.calls fd = [.closed fd] := by
  cases exit <;> rfl

structure RecvResult (δ : Type) where
  ret : ℤ
  retBuffer : List UInt8
  network : δ
  exit : RecvExit

def recvBody (api : Sockets δ) (retBufferSize : ℤ) (st : RecvState δ) :
    Loop.Step (RecvState δ) (RecvResult δ) :=
  if (st.recvLen.toNat : ℤ) < retBufferSize then
    let s := api.select st.network
    match s.1 with
    | .error => .done ⟨-1,st.retBuffer,s.2,.selectError⟩
    | .timeout => .done ⟨-1,st.retBuffer,s.2,.selectTimeout⟩
    | .ready isSet =>
      if isSet then
        let r := api.recv s.2 (retBufferSize-st.recvLen.toNat).toNat
        match r.1 with
        | .error _ => .done ⟨-1,st.retBuffer,r.2,.recvError⟩
        | .bytes bs =>
          if bs = [] then .done ⟨st.recvLen.toNat,st.retBuffer,r.2,.peerClosed⟩
          else
            .next ⟨st.recvLen+UInt16.ofNat bs.length,write st.retBuffer st.recvLen.toNat bs,r.2⟩
      else .next { st with network := s.2 }
  else .done ⟨st.recvLen.toNat,st.retBuffer,st.network,.full⟩

/-! ### The whole call -/

structure TransferResult (δ : Type) where
  ret : ℤ
  calls : List (FdCall ℤ)
  wire : List UInt8
  retBuffer : List UInt8
  network : δ

def invalidPort (port : List UInt8) : Prop := (strtol port).1 ≤ 0 ∨ (strtol port).1 > 65535

instance (port : List UInt8) : Decidable (invalidPort port) :=
  inferInstanceAs (Decidable (_ ∨ _))

/-- `http_send_receive`, or `none` when the fuel is used up. The request is the first
`sendBufferLen` bytes of `sendBuffer`; `retBuffer` is the memory that starts there, which the
caller makes at least `retBufferSize` bytes long. -/
def httpSendReceive (api : Sockets δ) (hostName port sendBuffer retBuffer : List UInt8)
    (retBufferSize : ℤ) (fuel : ℕ) (network : δ) : Option (TransferResult δ) :=
  if sendBuffer = [] ∨ retBufferSize ≤ 0 then some ⟨-1,[],[],retBuffer,network⟩
  else
    let host := api.getHostByName network hostName
    match host.1 with
    | none => some ⟨-1,[],[],retBuffer,host.2⟩
    | some ipAddr =>
      let fd := api.socket host.2
      if fd.1 < 0 then some ⟨-1,[],[],retBuffer,fd.2⟩
      else if invalidPort port then
        some ⟨-1,[.opened fd.1,.closed fd.1],[],retBuffer,fd.2⟩
      else
        let connected := api.connect fd.2 ipAddr (strtol port).1
        if connected.1 < 0 then
          some ⟨-1,[.opened fd.1,.closed fd.1],[],retBuffer,connected.2⟩
        else
          (Loop.run (sendBody api sendBuffer) fuel ⟨0,[],connected.2⟩).bind fun sent =>
            if ¬ sent.ok then
              some ⟨-1,[.opened fd.1,.closed fd.1],sent.wire,retBuffer,sent.network⟩
            else
              (Loop.run (recvBody api retBufferSize) fuel ⟨0,retBuffer,sent.network⟩).map fun r =>
                ⟨r.ret,.opened fd.1::r.exit.calls fd.1,sent.wire,r.retBuffer,r.network⟩

end HttpTransfer
end A9GTracker
