import A9GTracker.Http

/-! `https_send_receive` of `app/src/http.c`, and `Http_Post` over it. -/
namespace A9GTracker
namespace HttpsTransfer

open CString Http

inductive SslFunction
  | init | connect | write | read | close | destroy
  deriving DecidableEq

abbrev SslCall := SslFunction × ℤ

def sslErrorNone : ℤ := 0

def sslErrorInternal : ℤ := -5

/-- The answers of the SSL library, of which errors are negative. `write` is given the bytes
offered, `read` the room for the response; both may take less. -/
structure Ssl where
  init : ℤ
  connect : ℤ
  write : List UInt8 → ℤ
  read : ℤ → ℤ
  close : ℤ
  destroy : ℤ
  init_le : init ≤ sslErrorNone
  connect_le : connect ≤ sslErrorNone

structure SslResult where
  error : ℤ
  calls : List SslCall

def sslDestroy (ssl : Ssl) (error : ℤ) (calls : List SslCall) : SslResult :=
  ⟨error,calls++[(.destroy,ssl.destroy)]⟩

def sslClose (ssl : Ssl) (error : ℤ) (calls : List SslCall) : SslResult :=
  sslDestroy ssl error (calls++[(.close,ssl.close)])

def httpsSendReceive (ssl : Ssl) (buffer : List UInt8) (retBufferSize : ℤ) : SslResult :=
  if ssl.init ≠ sslErrorNone then ⟨ssl.init,[(.init,ssl.init)]⟩
  else
    let calls := [(.init,ssl.init),(.connect,ssl.connect)]
    if ssl.connect ≠ sslErrorNone then sslDestroy ssl ssl.connect calls
    else
      let written := ssl.write buffer
      let calls := calls++[(.write,written)]
      if written ≤ 0 then sslClose ssl written calls
      else
        let received := ssl.read retBufferSize
        let calls := calls++[(.read,received)]
        if received < 0 then sslClose ssl received calls
        else if received = 0 then sslClose ssl sslErrorInternal calls
        else sslClose ssl received calls

/-- `Http_Post` with `secure`: its result and the calls of the library. -/
def httpPostSecure (ssl : Ssl) (malloc : ℕ → Option (ℕ → UInt8))
    (hostName port path data : List UInt8) (dataLen : UInt16) (retBufferSize : ℤ) : SslResult :=
  let network := fun call : HttpCall => (httpsSendReceive ssl call.buffer retBufferSize).error
  let post := httpPost network malloc true hostName port path data dataLen
  match post.2 with
  | none => ⟨post.1,[]⟩
  | some call => ⟨post.1,(httpsSendReceive ssl call.buffer retBufferSize).calls⟩

/-! ### The calls -/

def resourceCall : SslCall → Option SslFunction
  | (.init,r) => if r = sslErrorNone then some .init else none
  | (.connect,r) => if r = sslErrorNone then some .connect else none
  | (.close,_) => some .close
  | (.destroy,_) => some .destroy
  | _ => none

/-- A successful initialisation is undone once at the end, a successful connection once before
that, and nothing else is undone. -/
def Released (calls : List SslCall) : Prop :=
  calls.filterMap resourceCall = [] ∨ calls.filterMap resourceCall = [.init,.destroy] ∨
    calls.filterMap resourceCall = [.init,.connect,.close,.destroy]

theorem httpsSendReceive_released (ssl : Ssl) (buffer : List UInt8) (retBufferSize : ℤ) :
    Released (httpsSendReceive ssl buffer retBufferSize).calls := by
  unfold Released httpsSendReceive sslClose sslDestroy
  by_cases hinit : ssl.init = sslErrorNone
  · by_cases hconnect : ssl.connect = sslErrorNone
    · refine Or.inr (Or.inr ?_)
      simp only [hinit,hconnect,ne_eq,not_true_eq_false,if_false]
      split_ifs <;> simp [List.filterMap_cons,resourceCall]
    · refine Or.inr (Or.inl ?_)
      simp [hinit,hconnect,resourceCall]
  · refine Or.inl ?_
    simp [hinit,resourceCall]

/-! ### False success -/

variable (ssl : Ssl) (buffer : List UInt8) (retBufferSize : ℤ)

/-- When the result is no error: a write of nothing is one of the cases. -/
theorem error_nonneg_iff :
    0 ≤ (httpsSendReceive ssl buffer retBufferSize).error ↔
      ssl.init = sslErrorNone ∧ ssl.connect = sslErrorNone ∧
        (ssl.write buffer = 0 ∨ 0 < ssl.write buffer ∧ 0 < ssl.read retBufferSize) := by
  have hinit := ssl.init_le
  have hconnect := ssl.connect_le
  unfold sslErrorNone at hinit hconnect ⊢
  rw [httpsSendReceive,sslErrorNone,sslErrorInternal]
  by_cases hi : ssl.init = 0
  · rw [if_neg (not_not.2 hi)]
    by_cases hc : ssl.connect = 0
    · rw [if_neg (not_not.2 hc)]
      simp only [sslClose,sslDestroy]
      split_ifs <;> simp only <;> omega
    · rw [if_pos hc]
      simp only [sslDestroy]
      omega
  · rw [if_pos hi]
    simp only
    omega

theorem mem_calls_write (n : ℤ) :
    (.write,n) ∈ (httpsSendReceive ssl buffer retBufferSize).calls ↔
      ssl.init = sslErrorNone ∧ ssl.connect = sslErrorNone ∧ n = ssl.write buffer := by
  simp only [httpsSendReceive,sslClose,sslDestroy]
  split_ifs <;> simp_all

theorem mem_calls_read (n : ℤ) :
    (.read,n) ∈ (httpsSendReceive ssl buffer retBufferSize).calls ↔
      ssl.init = sslErrorNone ∧ ssl.connect = sslErrorNone ∧ 0 < ssl.write buffer ∧
        n = ssl.read retBufferSize := by
  simp only [httpsSendReceive,sslClose,sslDestroy]
  split_ifs <;> simp_all

/-- A result that is no error stands for a whole request and some response, and everything is
released. -/
structure Honest (request : List UInt8) (r : SslResult) : Prop where
  written : 0 ≤ r.error → ∃ n : ℤ, (.write,n) ∈ r.calls ∧ request.length ≤ n
  received : 0 ≤ r.error → ∃ n : ℤ, (.read,n) ∈ r.calls ∧ 0 < n
  released : Released r.calls

/-- Once connected the library takes some of the request, and where it then delivers some
response, it has taken all of it. -/
def TakesWhole : Prop :=
  ssl.init = sslErrorNone → ssl.connect = sslErrorNone → ssl.write buffer ≠ 0 ∧
    (0 < ssl.write buffer → 0 < ssl.read retBufferSize → buffer.length ≤ ssl.write buffer)

theorem httpsSendReceive_honest_iff :
    Honest buffer (httpsSendReceive ssl buffer retBufferSize) ↔
      TakesWhole ssl buffer retBufferSize := by
  have hnonneg := error_nonneg_iff ssl buffer retBufferSize
  constructor
  · intro h hinit hconnect
    refine ⟨fun hzero => ?_,fun hwrite hread => ?_⟩
    · obtain ⟨n,hn,-⟩ := h.received (hnonneg.2 ⟨hinit,hconnect,Or.inl hzero⟩)
      rw [mem_calls_read,hzero] at hn
      exact lt_irrefl 0 hn.2.2.1
    · obtain ⟨n,hn,hle⟩ := h.written (hnonneg.2 ⟨hinit,hconnect,Or.inr ⟨hwrite,hread⟩⟩)
      rw [mem_calls_write] at hn
      rwa [hn.2.2] at hle
  · intro h
    have hsome : 0 ≤ (httpsSendReceive ssl buffer retBufferSize).error →
        ssl.init = sslErrorNone ∧ ssl.connect = sslErrorNone ∧
          buffer.length ≤ ssl.write buffer ∧ 0 < ssl.write buffer ∧
          0 < ssl.read retBufferSize := by
      intro hle
      obtain ⟨hinit,hconnect,hzero | ⟨hwrite,hread⟩⟩ := hnonneg.1 hle
      · exact absurd hzero (h hinit hconnect).1
      · exact ⟨hinit,hconnect,(h hinit hconnect).2 hwrite hread,hwrite,hread⟩
    refine ⟨fun hle => ?_,fun hle => ?_,httpsSendReceive_released ssl buffer retBufferSize⟩
    · obtain ⟨hinit,hconnect,hwhole,-,-⟩ := hsome hle
      exact ⟨_,(mem_calls_write _ _ _ _).2 ⟨hinit,hconnect,rfl⟩,hwhole⟩
    · obtain ⟨hinit,hconnect,-,hwrite,hread⟩ := hsome hle
      exact ⟨_,(mem_calls_read _ _ _ _).2 ⟨hinit,hconnect,hwrite,rfl⟩,hread⟩

/-! ### `Http_Post` -/

def requestBytes (hostName path data : List UInt8) : List UInt8 :=
  requestHeader path hostName data.length++data++[13,0]

/-- The length of the data is right, that of the template fits an `int`, and there is memory. -/
structure Posts (malloc : ℕ → Option (ℕ → UInt8)) (hostName path data : List UInt8)
    (dataLen : UInt16) : Prop where
  length : data.length = dataLen.toNat
  fits : 0 < snprintfLength (requestText path hostName dataLen.toNat data)
  memory : malloc ((snprintfLength (requestText path hostName dataLen.toNat data)).toNat+1) ≠ none

variable {malloc : ℕ → Option (ℕ → UInt8)} {hostName port path data : List UInt8}
  {dataLen : UInt16}

theorem httpPost_of_posts (h : Posts malloc hostName path data dataLen) (network : HttpCall → ℤ) :
    ∃ call : HttpCall, httpPost network malloc true hostName port path data dataLen =
      (network call,some call) ∧ call.buffer = requestBytes hostName path data := by
  obtain ⟨block,hblock⟩ := Option.ne_none_iff_exists'.1 h.memory
  have hcall : ∃ call : HttpCall, httpPost network malloc true hostName port path data dataLen =
      (network call,some call) := by
    simp only [httpPost,h.length,ne_eq,not_true_eq_false,if_false,if_neg h.fits.not_ge,hblock]
    exact ⟨_,rfl⟩
  obtain ⟨call,hcall⟩ := hcall
  exact ⟨call,hcall,httpPost_buffer (by rw [hcall])⟩

theorem httpPost_of_not_posts (h : ¬ Posts malloc hostName path data dataLen)
    (network : HttpCall → ℤ) :
    httpPost network malloc true hostName port path data dataLen = (-1,none) := by
  simp only [httpPost]
  split_ifs with hlength hfits
  · rfl
  · rfl
  · rw [not_not] at hlength
    rw [not_le] at hfits
    cases hmemory : malloc ((snprintfLength (requestText path hostName dataLen.toNat
        data)).toNat+1) with
    | none => rfl
    | some block => exact absurd ⟨hlength,hfits,by rw [hmemory]; simp⟩ h

/-- A secure post is honest exactly when the library, once it is called at all, takes whole
requests. -/
theorem httpPostSecure_honest_iff (ssl : Ssl) (malloc : ℕ → Option (ℕ → UInt8))
    (hostName port path data : List UInt8) (dataLen : UInt16) (retBufferSize : ℤ) :
    Honest (requestBytes hostName path data)
        (httpPostSecure ssl malloc hostName port path data dataLen retBufferSize) ↔
      (Posts malloc hostName path data dataLen →
        TakesWhole ssl (requestBytes hostName path data) retBufferSize) := by
  by_cases hposts : Posts malloc hostName path data dataLen
  · obtain ⟨call,hcall,hbuffer⟩ := @httpPost_of_posts _ _ port _ _ _ hposts
      fun call => (httpsSendReceive ssl call.buffer retBufferSize).error
    simp only [httpPostSecure,hcall,hposts,true_imp_iff]
    rw [← httpsSendReceive_honest_iff,hbuffer]
  · have hnone := @httpPost_of_not_posts _ _ port _ _ _ hposts
      fun call => (httpsSendReceive ssl call.buffer retBufferSize).error
    simp only [httpPostSecure,hnone,hposts,false_imp_iff,iff_true]
    exact ⟨fun h => absurd h (by decide),fun h => absurd h (by decide),Or.inl rfl⟩

/-- A library that connects and then takes nothing. -/
def stalled : Ssl where
  init := 0
  connect := 0
  write _ := 0
  read _ := 0
  close := 0
  destroy := 0
  init_le := le_rfl
  connect_le := le_rfl

theorem stalled_reported :
    ¬ ∀ (ssl : Ssl) (malloc : ℕ → Option (ℕ → UInt8)) (hostName port path data : List UInt8)
      (dataLen : UInt16) (retBufferSize : ℤ),
      Honest (requestBytes hostName path data)
        (httpPostSecure ssl malloc hostName port path data dataLen retBufferSize) := by
  intro h
  have hhonest := h stalled (fun _ => some fun _ => 0) (lit "h") (lit "443") (lit "/") (lit "a") 1
    1024
  have hresult : (httpPostSecure stalled (fun _ => some fun _ => 0) (lit "h") (lit "443") (lit "/")
      (lit "a") 1 1024).error = 0 ∧
      (httpPostSecure stalled (fun _ => some fun _ => 0) (lit "h") (lit "443") (lit "/")
        (lit "a") 1 1024).calls = [(.init,0),(.connect,0),(.write,0),(.close,0),(.destroy,0)] := by
    decide +kernel
  obtain ⟨n,hn,-⟩ := hhonest.received hresult.1.ge
  rw [hresult.2] at hn
  simp at hn

end HttpsTransfer
end A9GTracker
