import A9GTracker.Agps
import A9GTracker.HttpPeer

/-! The download in front of an upload: `Http_Get` of `libs/gps/src/gps.c`. It takes the first
segment shorter than 1352 bytes for the end of the response. -/
namespace A9GTracker
namespace GpdDownload

open CString ConfigLoad DescriptorTable Search HttpTransfer HttpLoops HttpPeer Agps

variable {δ : Type}

/-! ### The code -/

structure GetState (δ : Type) where
  recvLen : UInt16
  retBuffer : List UInt8
  network : δ

structure GetResult (δ : Type) where
  ret : ℤ
  retBuffer : List UInt8
  network : δ

/-- A round of the loop that receives: the rest of the buffer is cleared in front of each
`recv`. -/
def getBody (api : Sockets δ) (retBufferLen : ℕ) (st : GetState δ) :
    Loop.Step (GetState δ) (GetResult δ) :=
  let s := api.select st.network
  match s.1 with
  | .error => .done ⟨-1,st.retBuffer,s.2⟩
  | .timeout => .done ⟨-1,st.retBuffer,s.2⟩
  | .ready isSet =>
    if isSet then
      let room := retBufferLen-st.recvLen.toNat
      let cleared := write st.retBuffer st.recvLen.toNat (List.replicate room 0)
      let r := api.recv s.2 room
      match r.1 with
      | .error _ => .done ⟨-1,cleared,r.2⟩
      | .bytes bs =>
        let recvLen := st.recvLen+UInt16.ofNat bs.length
        let retBuffer := write cleared st.recvLen.toNat bs
        if bs = [] then .done ⟨-1,retBuffer,r.2⟩
        else if bs.length < 1352 then .done ⟨recvLen.toNat,retBuffer,r.2⟩
        else .next ⟨recvLen,retBuffer,r.2⟩
    else .next { st with network := s.2 }

def getRequest (path domain : List UInt8) : List UInt8 :=
  lit "GET "++path++lit " HTTP/1.1\r\nHost: "++domain++lit "\r\n\r\n"

structure HttpGetResult (δ : Type) where
  ret : ℤ
  bufferLen : ℕ
  calls : List (FdCall ℤ)
  retBuffer : List UInt8
  network : δ

/-- `Http_Get`, or `none` when the fuel is used up. The request is put together in the buffer
for the response, and one `send` has to take it. -/
def httpGet (api : Sockets δ) (domain : List UInt8) (port : ℤ) (path retBuffer : List UInt8)
    (bufferLen fuel : ℕ) (network : δ) : Option (HttpGetResult δ) :=
  let ip := api.getHostByName network domain
  match ip.1 with
  | none => some ⟨-1,bufferLen,[],retBuffer,ip.2⟩
  | some servInetAddr =>
    let pData := (getRequest path domain).take (bufferLen-1)
    let retBuffer := write retBuffer 0 (pData++[0])
    let fd := api.socket ip.2
    if fd.1 < 0 then some ⟨-1,bufferLen,[],retBuffer,fd.2⟩
    else
      let connected := api.connect fd.2 servInetAddr port
      if connected.1 < 0 then
        some ⟨-1,bufferLen,[.opened fd.1,.closed fd.1],retBuffer,connected.2⟩
      else
        let sent := api.send connected.2 pData
        if sent.1 < 0 then
          some ⟨-1,bufferLen,[.opened fd.1,.closed fd.1],retBuffer,sent.2⟩
        else
          (Loop.run (getBody api bufferLen) fuel ⟨0,retBuffer,sent.2⟩).map fun r =>
            ⟨r.ret,if r.ret < 0 then bufferLen else r.ret.toNat,[.opened fd.1,.closed fd.1],
              r.retBuffer,r.network⟩

/-- The download of `GPS_AGPS` into its cleared buffer of 5120 bytes. -/
def getGpdFile (api : Sockets δ) (beyond : List UInt8) (fuel : ℕ) (network : δ) :
    Option (HttpGetResult δ) :=
  httpGet api (lit "www.goke-agps.com") 7777 (lit "/brdcGPD.dat")
    (List.replicate 5120 0++beyond) 5120 fuel network

def responseOf (r : HttpGetResult δ) : Option (List UInt8) :=
  if r.ret < 0 then none else some (r.retBuffer.take r.ret.toNat)

/-- `GPS_AGPS` with its download, or `none` when the fuel is used up. -/
def gpsAgpsFrom (api : Sockets δ) (answers : AgpsAnswers) (beyond : List UInt8) (fuel : ℕ)
    (network : δ) : Option (Bool × List AgpsCall) :=
  if ¬ answers.malloc then some (false,[])
  else
    (getGpdFile api beyond fuel network).bind fun r =>
      gpsAgps fuel { answers with httpGet := responseOf r } beyond true

/-! ### The server -/

/-- A server whose response arrives in segments, each with one `recv` that has room for it. -/
structure Server where
  address : Option (List UInt8)
  descriptor : ℤ
  connected : ℤ
  accepts : ℤ
  segments : List (List UInt8)
  ending : Ending

def Server.select (s : Server) : SelectResult :=
  match s.segments,s.ending with
  | [],.timeout => .timeout
  | [],.selectError => .error
  | _,_ => .ready true

def Server.recv (s : Server) (n : ℕ) : ReadResult × Server :=
  match s.segments with
  | [] => (if s.ending = .recvError then .error (-1) else .bytes [],s)
  | segment::rest =>
    if segment.length ≤ n then (.bytes segment,{ s with segments := rest })
    else (.bytes (segment.take n),{ s with segments := segment.drop n::rest })

def serverSockets : Sockets Server where
  getHostByName s _ := (s.address,s)
  socket s := (s.descriptor,s)
  connect s _ _ := (s.connected,s)
  send s _ := (s.accepts,s)
  select s := (s.select,s)
  recv := Server.recv

def received : List (List UInt8) → Option (List UInt8)
  | [] => none
  | segment::rest =>
    if segment.length < 1352 then some segment else (received rest).map fun bs => segment++bs

/-! ### The loop -/

theorem write_write {mem : List UInt8} {offset : ℕ} {bs cs : List UInt8}
    (hbs : bs.length ≤ cs.length) (h : offset+cs.length ≤ mem.length) :
    write (write mem offset cs) offset bs =
      mem.take offset++bs++cs.drop bs.length++mem.drop (offset+cs.length) := by
  have htake : (mem.take offset).length = offset := by
    rw [List.length_take]
    omega
  have hfront : (write mem offset cs).take offset = mem.take offset := by
    rw [write,List.append_assoc,List.take_left' htake]
  have hback : (write mem offset cs).drop (offset+bs.length) =
      cs.drop bs.length++mem.drop (offset+cs.length) := by
    rw [← List.drop_drop,write,List.append_assoc,List.drop_left' htake,
      List.drop_append_of_le_length hbs]
  rw [write,hfront,hback,List.append_assoc _ _ (mem.drop _)]

def filled (size : ℕ) (mem bs : List UInt8) : List UInt8 :=
  bs++List.replicate (size-bs.length) 0++mem.drop size

theorem length_filled {size : ℕ} {mem bs : List UInt8} (hsize : size ≤ mem.length)
    (hbs : bs.length ≤ size) : (filled size mem bs).length = mem.length := by
  simp only [filled,List.length_append,List.length_replicate,List.length_drop]
  omega

theorem take_filled (size : ℕ) (mem bs : List UInt8) :
    (filled size mem bs).take bs.length = bs := by
  rw [filled,List.append_assoc,List.take_left]

theorem drop_filled {size : ℕ} {mem bs : List UInt8} (hbs : bs.length ≤ size) :
    (filled size mem bs).drop size = mem.drop size := by
  have hlength : (bs++List.replicate (size-bs.length) 0).length = size := by
    rw [List.length_append,List.length_replicate]
    omega
  rw [filled,List.drop_left' hlength]

structure Receiving (size : ℕ) (mem taken : List UInt8) (st : GetState Server) : Prop where
  recvLen : st.recvLen.toNat = taken.length
  front : st.retBuffer.take taken.length = taken
  length : st.retBuffer.length = mem.length
  behind : st.retBuffer.drop size = mem.drop size

section round
variable {size : ℕ} {mem taken segment : List UInt8} {rest : List (List UInt8)}
  {st : GetState Server}

theorem Receiving.write_segment (h : Receiving size mem taken st) (hsize : size ≤ mem.length)
    (hfit : taken.length+segment.length ≤ size) :
    write (write st.retBuffer st.recvLen.toNat
        (List.replicate (size-st.recvLen.toNat) 0)) st.recvLen.toNat segment =
      filled size mem (taken++segment) := by
  have hlength := h.length
  have hend : taken.length+(size-taken.length) = size := by omega
  have hrest : size-taken.length-segment.length = size-(taken++segment).length := by
    rw [List.length_append]
    omega
  rw [h.recvLen,write_write (by rw [List.length_replicate]; omega)
    (by rw [List.length_replicate]; omega),h.front,List.length_replicate,List.drop_replicate,
    hend,h.behind,hrest,filled]

theorem getBody_segment (h : Receiving size mem taken st) (hsize : size ≤ mem.length)
    (hsegments : st.network.segments = segment::rest) (hne : segment ≠ [])
    (hfit : taken.length+segment.length ≤ size) :
    getBody serverSockets size st =
      let recvLen := st.recvLen+UInt16.ofNat segment.length
      let network := { st.network with segments := rest }
      if segment.length < 1352 then
        .done ⟨recvLen.toNat,filled size mem (taken++segment),network⟩
      else .next ⟨recvLen,filled size mem (taken++segment),network⟩ := by
  have hlen := h.recvLen
  have hroom : segment.length ≤ size-st.recvLen.toNat := by omega
  have hselect : serverSockets.select st.network = (.ready true,st.network) := by
    simp only [serverSockets,Server.select,hsegments]
  have hrecv : serverSockets.recv st.network (size-st.recvLen.toNat) =
      (.bytes segment,{ st.network with segments := rest }) := by
    simp only [serverSockets,Server.recv,hsegments,if_pos hroom]
  simp only [getBody,hselect,hrecv,h.write_segment hsize hfit,if_true,if_neg hne]

theorem Receiving.next (h : Receiving size mem taken st) (hsize : size ≤ mem.length)
    (hsmall : size ≤ 65535) (hfit : taken.length+segment.length ≤ size) (network : Server) :
    Receiving size mem (taken++segment)
      ⟨st.recvLen+UInt16.ofNat segment.length,filled size mem (taken++segment),network⟩ := by
  have hlen := h.recvLen
  have hle : (taken++segment).length ≤ size := by
    rw [List.length_append]
    exact hfit
  refine ⟨?_,take_filled _ _ _,length_filled hsize hle,drop_filled hle⟩
  rw [toNat_add_ofNat (by omega),hlen,List.length_append]

end round

/-- How the loop ends: with the segments up to the first short one, or failing. -/
def Gets (size : ℕ) (mem taken : List UInt8) (segments : List (List UInt8))
    (r : GetResult Server) : Prop :=
  match received segments with
  | some bs => r.ret = (taken++bs).length ∧ r.retBuffer = filled size mem (taken++bs)
  | none => r.ret = -1

theorem run_getBody {size : ℕ} {mem : List UInt8} (hsize : size ≤ mem.length)
    (hsmall : size ≤ 65535) (segments : List (List UInt8)) (hne : [] ∉ segments)
    (taken : List UInt8) (st : GetState Server) (h : Receiving size mem taken st)
    (hsegments : st.network.segments = segments)
    (hfit : taken.length+segments.flatten.length ≤ size) :
    ∃ fuel r, Loop.run (getBody serverSockets size) fuel st = some r ∧
      Gets size mem taken segments r := by
  induction segments generalizing taken st with
  | nil =>
    obtain ⟨recvLen,retBuffer,network⟩ := st
    obtain ⟨address,descriptor,connected,accepts,segments,ending⟩ := network
    obtain rfl : segments = [] := hsegments
    cases ending <;> exact ⟨1,_,rfl,rfl⟩
  | cons segment rest ih =>
    rw [List.flatten_cons,List.length_append] at hfit
    have hsegment : segment ≠ [] := fun heq => hne (heq ▸ List.mem_cons_self)
    have hroom : taken.length+segment.length ≤ size := by omega
    have hround := getBody_segment h hsize hsegments hsegment hroom
    have hnext := h.next hsize hsmall hroom
    by_cases hshort : segment.length < 1352
    · simp only [if_pos hshort] at hround
      refine ⟨1,_,Loop.run_done hround 0,?_⟩
      rw [Gets,received,if_pos hshort]
      exact ⟨congrArg _ (hnext st.network).recvLen,rfl⟩
    · simp only [if_neg hshort] at hround
      obtain ⟨fuel,r,hrun,hr⟩ := ih (fun hmem => hne (List.mem_cons_of_mem _ hmem))
        (taken++segment) _ (hnext { st.network with segments := rest }) rfl
        (by rw [List.length_append]; omega)
      refine ⟨fuel+1,r,(Loop.run_next hround fuel).trans hrun,?_⟩
      rw [Gets,received,if_neg hshort]
      rw [Gets] at hr
      cases hrest : received rest with
      | none => simpa only [hrest,Option.map_none] using hr
      | some bs => simpa only [hrest,Option.map_some,List.append_assoc] using hr

/-! ### The download -/

structure Answers (server : Server) : Prop where
  address : server.address ≠ none
  descriptor : 0 ≤ server.descriptor
  connected : 0 ≤ server.connected
  accepts : 0 ≤ server.accepts

theorem getRequest_length :
    (getRequest (lit "/brdcGPD.dat") (lit "www.goke-agps.com")).length = 54 := by decide

theorem getGpdFile_mono {api : Sockets δ} {beyond : List UInt8} {network : δ} {fuel fuel' : ℕ}
    {r : HttpGetResult δ} (hle : fuel ≤ fuel') (h : getGpdFile api beyond fuel network = some r) :
    getGpdFile api beyond fuel' network = some r := by
  revert h
  simp only [getGpdFile,httpGet]
  cases (api.getHostByName network (lit "www.goke-agps.com")).1 with
  | none => exact id
  | some address =>
    simp only
    split_ifs
    · exact id
    · exact id
    · exact id
    · intro h
      obtain ⟨got,hrun,rfl⟩ := Option.map_eq_some_iff.1 h
      exact Option.map_eq_some_iff.2 ⟨got,Loop.run_mono hle hrun,rfl⟩

/-- A response that fits into the buffer: `GPS_AGPS` gets the segments up to the first short
one, in a buffer that is zero behind them. -/
theorem getGpdFile_gets {server : Server} (h : Answers server) (hne : [] ∉ server.segments)
    (hfit : server.segments.flatten.length ≤ 5120) (beyond : List UInt8) :
    ∃ fuel r, getGpdFile serverSockets beyond fuel server = some r ∧
      responseOf r = received server.segments ∧
      ∀ bs ∈ received server.segments, r.retBuffer = agpsBuffer bs beyond := by
  obtain ⟨address,haddress⟩ := Option.ne_none_iff_exists'.1 h.address
  let mem := List.replicate 5120 (0 : UInt8)++beyond
  let text := (getRequest (lit "/brdcGPD.dat") (lit "www.goke-agps.com")).take 5119++[0]
  have hmem : mem.length = 5120+beyond.length := by
    rw [List.length_append,List.length_replicate]
  have htext : text.length = 55 := by
    rw [List.length_append,List.length_take,getRequest_length]
    rfl
  have hstart : Receiving 5120 mem [] ⟨0,write mem 0 text,server⟩ := by
    refine ⟨rfl,rfl,length_write (by omega),drop_write (by omega) (by omega)⟩
  obtain ⟨fuel,r,hrun,hr⟩ := run_getBody (by omega) (by decide) server.segments hne [] _ hstart
    rfl (by simpa using hfit)
  refine ⟨fuel,⟨r.ret,if r.ret < 0 then 5120 else r.ret.toNat,
    [.opened server.descriptor,.closed server.descriptor],r.retBuffer,r.network⟩,?_,?_,?_⟩
  · simp only [getGpdFile,httpGet,serverSockets,haddress]
    rw [if_neg (by exact not_lt.2 h.descriptor),if_neg (by exact not_lt.2 h.connected),
      if_neg (by exact not_lt.2 h.accepts)]
    exact congrArg (Option.map _) hrun
  · rw [Gets] at hr
    simp only [responseOf]
    cases hreceived : received server.segments with
    | none =>
      simp only [hreceived] at hr
      rw [hr,if_pos (by decide)]
    | some bs =>
      simp only [hreceived,List.nil_append] at hr
      have hret : ¬ (bs.length : ℤ) < 0 := by omega
      rw [hr.1,hr.2,if_neg hret,Int.toNat_natCast,take_filled]
  · intro bs hbs
    rw [Gets,Option.mem_def.1 hbs] at hr
    have hbehind : mem.drop 5120 = beyond := List.drop_left' (List.length_replicate ..)
    rw [hr.2,filled,hbehind]
    rfl

theorem received_prefix {segments : List (List UInt8)} {bs : List UInt8}
    (h : received segments = some bs) : bs <+: segments.flatten := by
  induction segments generalizing bs with
  | nil => cases h
  | cons segment rest ih =>
    rw [received] at h
    rw [List.flatten_cons]
    split_ifs at h
    · obtain rfl := Option.some.inj h
      exact List.prefix_append _ _
    · obtain ⟨cs,hcs,rfl⟩ := Option.map_eq_some_iff.1 h
      exact (List.prefix_append_right_inj segment).2 (ih hcs)

/-- The whole response is received exactly when its last segment is the only short one. -/
theorem received_flatten {segments : List (List UInt8)} (hne : [] ∉ segments) :
    received segments = some segments.flatten ↔
      ∃ long last, segments = long++[last] ∧ (∀ s ∈ long, 1352 ≤ s.length) ∧
        last.length < 1352 := by
  induction segments with
  | nil => simp [received]
  | cons segment rest ih =>
    have hrest : [] ∉ rest := fun hmem => hne (List.mem_cons_of_mem _ hmem)
    rw [received,List.flatten_cons]
    by_cases hshort : segment.length < 1352
    · rw [if_pos hshort,Option.some.injEq]
      constructor
      · intro heq
        have hnil : rest = [] := by
          by_contra hcons
          obtain ⟨s,rest,rfl⟩ := List.exists_cons_of_ne_nil hcons
          have hlen := congrArg List.length heq
          have hpos : s ≠ [] := fun hs => hrest (hs ▸ List.mem_cons_self)
          have := List.length_pos_iff.2 hpos
          simp only [List.flatten_cons,List.length_append] at hlen
          omega
        subst hnil
        exact ⟨[],segment,rfl,by simp,hshort⟩
      · rintro ⟨long,last,heq,hlong,-⟩
        cases long with
        | nil =>
          obtain ⟨rfl,rfl⟩ := List.cons.inj heq
          simp
        | cons s long =>
          obtain ⟨rfl,-⟩ := List.cons.inj heq
          exact absurd (hlong segment List.mem_cons_self) (by omega)
    · rw [if_neg hshort]
      have hmap : (received rest).map (fun bs => segment++bs) = some (segment++rest.flatten) ↔
          received rest = some rest.flatten := by
        cases received rest <;> simp
      rw [hmap,ih hrest]
      constructor
      · rintro ⟨long,last,rfl,hlong,hlast⟩
        exact ⟨segment::long,last,rfl,by simpa using ⟨by omega,hlong⟩,hlast⟩
      · rintro ⟨long,last,heq,hlong,hlast⟩
        cases long with
        | nil =>
          obtain ⟨rfl,-⟩ := List.cons.inj heq
          exact absurd hlast hshort
        | cons s long =>
          obtain ⟨rfl,rfl⟩ := List.cons.inj heq
          exact ⟨long,last,rfl,fun t ht => hlong t (List.mem_cons_of_mem _ ht),hlast⟩

/-! ### The upload -/

/-- A header as `GPS_AGPS` finds it: it ends with the first empty line behind "200 OK". -/
structure Header (header : List UInt8) : Prop where
  zero : 0 ∉ header
  ends : bodyOffset header = some header.length

theorem Header.found {header : List UInt8} (h : Header header) :
    ∃ i j, find (lit "200 OK") header = some i ∧ i ≤ header.length ∧
      find (lit "\r\n\r\n") (header.drop i) = some j ∧ i+j+4 = header.length := by
  have hends := h.ends
  rw [bodyOffset,cstring_eq_self h.zero] at hends
  cases hok : strstr header (lit "200 OK") with
  | none => simp [hok] at hends
  | some i =>
    have hle := (find_spec hok).1.add_length_le (by decide)
    have hzero : 0 ∉ header.drop i := fun hmem => h.zero (List.mem_of_mem_drop hmem)
    simp only [hok,cstring_eq_self hzero] at hends
    obtain ⟨j,hj,hend⟩ := Option.map_eq_some_iff.1 hends
    exact ⟨i,j,hok,by omega,hj,hend⟩

theorem bodyOffset_append {header : List UInt8} (h : Header header) (bs : List UInt8) :
    bodyOffset (header++bs) = some header.length := by
  obtain ⟨i,j,hok,hle,hblank,hend⟩ := h.found
  have hdrop : (header++bs).drop i = header.drop i++bs := List.drop_append_of_le_length hle
  have hzero : 0 ∉ header.drop i := fun hmem => h.zero (List.mem_of_mem_drop hmem)
  rw [bodyOffset,cstring_append h.zero,strstr,find_append_of_some (by decide) hok]
  simp only [hdrop,cstring_append hzero]
  rw [strstr,find_append_of_some (by decide) hblank,Option.map_some,hend]

/-- In a response that is cut within its header no end of the header is found. -/
theorem bodyOffset_cut {header bs zs : List UInt8} (h : Header header) (hbs : bs <+: header)
    (hlt : bs.length < header.length) : bodyOffset (bs++0::zs) = none := by
  obtain ⟨i,j,hok,-,hblank,hend⟩ := h.found
  obtain ⟨cs,rfl⟩ := hbs
  have hzero : 0 ∉ bs := fun hmem => h.zero (List.mem_append_left _ hmem)
  have hcstring : ∀ as : List UInt8, 0 ∉ as → cstring (as++0::zs) = as := fun as has => by
    rw [cstring_append has]
    exact List.append_nil as
  rw [bodyOffset,hcstring bs hzero]
  cases hok' : strstr bs (lit "200 OK") with
  | none => rfl
  | some i' =>
    rw [find_append_of_some (by decide) hok'] at hok
    obtain rfl := Option.some.inj hok
    have hle := (find_spec hok').1.add_length_le (by decide)
    have hdrop : ∀ as : List UInt8, (bs++as).drop i' = bs.drop i'++as := fun as =>
      List.drop_append_of_le_length (by omega)
    simp only [hdrop,hcstring _ fun hmem => hzero (List.mem_of_mem_drop hmem)]
    cases hblank' : strstr (bs.drop i') (lit "\r\n\r\n") with
    | none => rfl
    | some j' =>
      -- the empty line found here would end the whole header too
      rw [hdrop,find_append_of_some (by decide) hblank'] at hblank
      obtain rfl := Option.some.inj hblank
      have hle' := (find_spec hblank').1.add_length_le (by decide)
      have hfour : (lit "\r\n\r\n").length = 4 := by decide
      rw [hfour,List.length_drop] at hle'
      omega

def fileReceived (header : List UInt8) (segments : List (List UInt8)) : Option (List UInt8) :=
  (received segments).bind fun bs =>
    if bs.length < header.length then none else some (bs.drop header.length)

/-- What goes out when nothing is refused: the packs of the file, one more with the memory behind
the padded file, and the end marker. -/
def fileUpload (header file beyond : List UInt8) : List Transmission :=
  (List.range (packs file.length)).map (pack header file)++
    [(packs file.length,some ⟨header.length+packs file.length*512,
      (behindFile header file beyond).take 512⟩),(0xffff,none)]

/-- The transmissions without their repetitions are the upload of `file`, or its beginning in one
that fails. -/
structure SendsFile (header file beyond : List UInt8) (r : Bool × List AgpsCall) : Prop where
  order : (transmissions r.2).dedup <+: fileUpload header file beyond
  whole : r.1 = true → (transmissions r.2).dedup = fileUpload header file beyond
  tries : ∀ p, (transmissions r.2).count p ≤ 4

theorem items_eq_fileUpload (header file beyond : List UInt8) :
    (List.range (packs file.length+2)).map (item (header++padded file++
        behindFile header file beyond) header.length (512*packs file.length)) =
      fileUpload header file beyond := by
  have hfile : (List.range (packs file.length)).map (item (header++padded file++
        behindFile header file beyond) header.length (512*packs file.length)) =
      (List.range (packs file.length)).map (pack header file) :=
    List.map_congr_left fun i hi => item_eq_pack header file _ (List.mem_range.1 hi)
  have hpadded : (header++padded file).length = header.length+packs file.length*512 := by
    rw [List.length_append,length_padded,Nat.mul_comm]
  have hbehind : item (header++padded file++behindFile header file beyond) header.length
      (512*packs file.length) (packs file.length) =
      (packs file.length,some ⟨header.length+packs file.length*512,
        (behindFile header file beyond).take 512⟩) := by
    rw [item,if_neg (by omega),← hpadded,List.drop_left]
  have hend : item (header++padded file++behindFile header file beyond) header.length
      (512*packs file.length) (packs file.length+1) = (0xffff,none) := by
    rw [item,if_pos (by omega)]
  rw [List.range_succ,List.range_succ,List.map_append,List.map_append,hfile,List.map_singleton,
    List.map_singleton,hbehind,hend,fileUpload,List.append_assoc]
  rfl

theorem gpsAgps_mono {fuel fuel' : ℕ} {answers : AgpsAnswers} {beyond : List UInt8}
    {r : Bool × List AgpsCall} (hle : fuel ≤ fuel')
    (h : gpsAgps fuel answers beyond true = some r) :
    gpsAgps fuel' answers beyond true = some r := by
  obtain ⟨malloc,get,mode,send,nmea⟩ := answers
  cases malloc with
  | false => exact h
  | true =>
    cases get with
    | none => exact h
    | some response =>
      revert h
      simp only [gpsAgps]
      cases bodyOffset (agpsBuffer response beyond) with
      | none => exact id
      | some gpdData =>
        cases mode with
        | false => exact id
        | true =>
          intro h
          obtain ⟨sent,hrun,rfl⟩ := Option.map_eq_some_iff.1 h
          exact Option.map_eq_some_iff.2 ⟨sent,Loop.run_mono hle hrun,rfl⟩

theorem Sent.sendsFile {answers : AgpsAnswers} {header file beyond : List UInt8}
    {sent : Retry.RetryResult Transmission}
    (h : Sent answers header file (behindFile header file beyond) sent)
    {after : List AgpsCall} (hafter : transmissions after = []) {ok : Bool}
    (hok : ok = true → sent.ok = true) :
    SendsFile header file beyond (ok,uploadCalls sent.sent after) := by
  obtain ⟨n,hdedup,hcount,-,hle,hall,-⟩ := h.eq_attempts
  have htrans := transmissions_uploadCalls sent.sent hafter
  have hupload := items_eq_fileUpload header file beyond
  refine ⟨?_,fun htrue => ?_,?_⟩
  · obtain ⟨m,hm⟩ := Nat.exists_eq_add_of_le hle
    rw [htrans,hdedup,← hupload,hm,List.range_add,List.map_append]
    exact List.prefix_append _ _
  · rw [htrans,hdedup,← hupload,(hall (hok htrue)).1]
  · rw [htrans]
    exact hcount

theorem sendsFile_of_nil (header file beyond : List UInt8) {calls : List AgpsCall}
    (hcalls : transmissions calls = []) : SendsFile header file beyond (false,calls) := by
  refine ⟨?_,fun htrue => absurd htrue Bool.false_ne_true,?_⟩
  · rw [hcalls,List.dedup_nil]
    exact List.nil_prefix
  · rw [hcalls]
    exact fun _ => Nat.zero_le _

/-- A response that begins with the header is uploaded as the file behind it. -/
theorem gpsAgps_sendsFile {answers : AgpsAnswers} {header file : List UInt8}
    (hheader : Header header) (hmalloc : answers.malloc = true)
    (hget : answers.httpGet = some (header++file)) (hlength : (header++file).length ≤ 5120)
    (beyond : List UInt8) :
    ∃ fuel r, gpsAgps fuel answers beyond true = some r ∧ SendsFile header file beyond r := by
  have hbody : bodyOffset (agpsBuffer (header++file) beyond) = some header.length := by
    rw [agpsBuffer,List.append_assoc,List.append_assoc]
    exact bodyOffset_append hheader _
  obtain ⟨fuel,r,hrun,hoff,hon⟩ := gpsAgps_download hmalloc hget hlength hbody
  refine ⟨fuel,r,hrun,?_⟩
  obtain ⟨ok,calls⟩ := r
  cases hmode : answers.setBinaryMode with
  | true =>
    obtain ⟨sent,after,hcalls,hafter,hok,hsent⟩ := hon hmode
    obtain rfl : calls = uploadCalls sent.sent after := hcalls
    exact Sent.sendsFile hsent hafter hok
  | false => exact hoff hmode ▸ sendsFile_of_nil header file beyond rfl

theorem gpsAgps_cut {answers : AgpsAnswers} {header bs : List UInt8} (hheader : Header header)
    (hmalloc : answers.malloc = true) (hget : answers.httpGet = some bs) (hbs : bs <+: header)
    (hlt : bs.length < header.length) (hlength : header.length ≤ 5120) (beyond : List UInt8)
    (fuel : ℕ) : gpsAgps fuel answers beyond true = some (false,[]) := by
  have hzeros : List.replicate (5120-bs.length) (0 : UInt8) =
      0::List.replicate (5119-bs.length) 0 := by
    rw [← List.replicate_succ]
    congr 1
    omega
  have hbody : bodyOffset (agpsBuffer bs beyond) = none := by
    rw [agpsBuffer,hzeros,List.append_assoc]
    exact bodyOffset_cut hheader hbs hlt
  simp [gpsAgps,hmalloc,hget,hbody]

/-- The upload is one of what the segments up to the first short one hold of the file: a file
that is cut there goes out as if it were whole. Nothing is sent where the header is cut or no
segment is short. -/
theorem agps_uploads_received {server : Server} (hserver : Answers server)
    {answers : AgpsAnswers} (hmalloc : answers.malloc = true) {header body : List UInt8}
    (hheader : Header header) (hsegments : server.segments.flatten = header++body)
    (hne : [] ∉ server.segments) (hlength : (header++body).length ≤ 5120)
    (beyond : List UInt8) :
    ∃ fuel r, gpsAgpsFrom serverSockets answers beyond fuel server = some r ∧
      match fileReceived header server.segments with
      | none => r = (false,[])
      | some file => file <+: body ∧ SendsFile header file beyond r ∧
          (file = body ↔ ∃ long last, server.segments = long++[last] ∧
            (∀ s ∈ long, 1352 ≤ s.length) ∧ last.length < 1352) := by
  obtain ⟨fuel,got,hgot,hresponse,-⟩ := getGpdFile_gets hserver hne (hsegments ▸ hlength) beyond
  have hrun : ∀ n r, gpsAgps n { answers with httpGet := received server.segments } beyond true =
      some r → gpsAgpsFrom serverSockets answers beyond (max fuel n) server = some r := by
    intro n r hr
    rw [gpsAgpsFrom,if_neg (not_not_intro hmalloc),
      getGpdFile_mono (le_max_left fuel n) hgot,Option.bind_some,hresponse]
    exact gpsAgps_mono (le_max_right fuel n) hr
  have hmalloc' : { answers with httpGet := received server.segments }.malloc = true := hmalloc
  cases hreceived : received server.segments with
  | none =>
    refine ⟨_,(false,[]),hrun 0 _ ?_,?_⟩
    · simp [gpsAgps,hmalloc,hreceived]
    · simp [fileReceived,hreceived]
  | some bs =>
    have hget : { answers with httpGet := received server.segments }.httpGet = some bs := hreceived
    have hbs := received_prefix hreceived
    rw [hsegments] at hbs
    by_cases hlt : bs.length < header.length
    · have hcut := List.prefix_of_prefix_length_le hbs (List.prefix_append header body) hlt.le
      rw [List.length_append] at hlength
      refine ⟨_,(false,[]),hrun 0 _ ?_,?_⟩
      · exact gpsAgps_cut hheader hmalloc' hget hcut hlt (by omega) beyond 0
      · simp [fileReceived,hreceived,hlt]
    · obtain ⟨file,rfl⟩ := List.prefix_of_prefix_length_le (List.prefix_append header body) hbs
        (not_lt.1 hlt)
      have hfile := (List.prefix_append_right_inj header).1 hbs
      have hle := hbs.length_le
      obtain ⟨n,r,hr,hsends⟩ := gpsAgps_sendsFile hheader hmalloc' hget (hle.trans hlength) beyond
      have hwhole := received_flatten hne
      rw [hreceived,hsegments,Option.some.injEq,List.append_cancel_left_eq] at hwhole
      refine ⟨_,r,hrun n r hr,?_⟩
      simp only [fileReceived,hreceived,Option.bind_some,if_neg hlt,List.drop_left]
      exact ⟨hfile,hsends,hwhole⟩

def twoSegments : Server :=
  ⟨some (lit "10.0.0.1"),1,0,54,[lit "HTTP/1.1 200 OK\r\n\r\nA",lit "B"],.closes⟩

theorem agps_uploads_received_cut : ∃ fuel r,
    gpsAgpsFrom serverSockets ⟨true,none,true,fun _ => true,true⟩ [] fuel twoSegments = some r ∧
      SendsFile (lit "HTTP/1.1 200 OK\r\n\r\n") (lit "A") [] r := by
  have hserver : Answers twoSegments := ⟨by decide,by decide,by decide,by decide⟩
  have hheader : Header (lit "HTTP/1.1 200 OK\r\n\r\n") := ⟨by decide,by decide +kernel⟩
  have hsegments : twoSegments.segments.flatten =
      lit "HTTP/1.1 200 OK\r\n\r\n"++lit "AB" := by decide
  have hfile : fileReceived (lit "HTTP/1.1 200 OK\r\n\r\n") twoSegments.segments =
      some (lit "A") := by decide +kernel
  obtain ⟨fuel,r,hrun,hr⟩ := agps_uploads_received hserver
    (rfl : (⟨true,none,true,fun _ => true,true⟩ : AgpsAnswers).malloc = true) hheader hsegments
    (by decide) (by decide) []
  rw [hfile] at hr
  exact ⟨fuel,r,hrun,hr.2.1⟩

end GpdDownload
end A9GTracker
