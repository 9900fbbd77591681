import A9GTracker.CommandExchange
import A9GTracker.ConfigInvariant
import A9GTracker.PowerCycles
import A9GTracker.QueueWedge
import A9GTracker.StreamConservation

/-! The log of the receiver: `SaveToTFCard` of `libs/gps/src/gps.c` behind `GPS_Update`, with the
console that switches the log, names its file, saves the configuration and deletes files. -/
namespace A9GTracker
namespace GpsLog

open CString Utils Gps FrameExtraction StreamConservation ConfigStore ConfigFile ConfigCommands
  ConfigLoad ConfigInvariant

variable {F : Type}

/-! ### The code -/

/-- The files by their paths, different ones for different paths; one that does not exist is
empty. -/
abbrev Card := List UInt8 → List UInt8

/-- What the file calls answer: whether the file is opened, and how much of the text is
written. -/
structure AppendAnswers where
  opened : Bool
  written : ℕ

def saveToTfCard (a : AppendAnswers) (gpsLogPath str : List UInt8) (card : Card) : Bool × Card :=
  if a.opened then
    let ret := min a.written str.length
    (decide (0 < ret),Function.update card gpsLogPath (card gpsLogPath++str.take ret))
  else (false,card)

/-- The calls of one `GPS_Update`, which ignores their results. -/
def saveFrames : (ℕ → AppendAnswers) → List UInt8 → List (List UInt8) → Card → Card
  | _,_,[],card => card
  | answers,gpsLogPath,str::rest,card =>
    saveFrames (fun i => answers (i+1)) gpsLogPath rest
      (saveToTfCard (answers 0) gpsLogPath str card).2

/-! ### The run -/

structure Logger (F : Type) where
  device : Device F
  gps : GpsState
  card : Card

def configFilePath : List UInt8 := lit "/config.ini"

/-- The file that a console line leaves behind: `ConfigStore_Save` of an accepted `set` cuts the
configuration file off and writes it, and `HandleRemoveFileCommand` deletes a file; `removed` is
the success of `API_FS_Delete`. -/
def fileWritten (removed : Bool) : UartReply → Option (List UInt8 × List UInt8)
  | .set (.done _ _ (some text)) => some (configFilePath,text)
  | .other .rm arg =>
    if trimWhitespace arg ≠ [] ∧ removed = true then some (trimWhitespace arg,[]) else none
  | _ => none

/-- A line on the console: the validators call `GPS_SaveLog`. -/
def Logger.line [FloatLib F] (l : Logger F) (a : SaveAnswers) (removed : Bool)
    (data : List UInt8) : Logger F :=
  let r := handleUartCommand a data l.device
  ⟨r.1,{ l.gps with log := r.1.log },
    match fileWritten removed r.2 with
    | some (path,text) => Function.update l.card path text
    | none => l.card⟩

/-- The driver in front of `GPS_Update`: a command waits for its answer or not. -/
def Logger.waiting (l : Logger F) (pending : Bool) : GpsState :=
  { l.gps with cmdPending := pending, ack := .unchanged }

/-- The tracker when `GPS_Update` has brought the driver to `gps`. The path of the log is read
where it is stored. -/
def Logger.update (l : Logger F) (answers : ℕ → AppendAnswers) (gps : GpsState) : Logger F :=
  ⟨l.device,gps,saveFrames answers l.device.config.gpsLogFile.text
    (gps.saved.drop l.gps.saved.length) l.card⟩

def Logger.target (l : Logger F) : Option (List UInt8) :=
  if l.gps.log.isSaveLog then some l.device.config.gpsLogFile.text else none

/-- What happens to the stream and to the files: a piece of the stream is cut off, to stand in
a file or in none, or a console line leaves a text in a file. -/
inductive Entry
  | piece (target : Option (List UInt8)) (bytes : List UInt8)
  | written (path text : List UInt8)
  deriving DecidableEq

def Entry.bytes : Entry → List UInt8
  | .piece _ bytes => bytes
  | .written _ _ => []

/-- What a call has taken out of `queued`: the frames, or an acknowledgement with what stands in
front of it. -/
def Logger.pieces (l : Logger F) (queued : List UInt8) (gps : GpsState) : List Entry :=
  if gps.cmdPending then [.piece none (queued.take (queued.length-(queue gps).length))]
  else (gps.parsed.drop l.gps.parsed.length).map fun block => .piece l.target block

/-- What a console line has left in a file. -/
def lineEntries (removed : Bool) (reply : UartReply) : List Entry :=
  (fileWritten removed reply).toList.map fun w => .written w.1 w.2

/-- Every text is written whole. -/
def Complete : (ℕ → AppendAnswers) → List (List UInt8) → Prop
  | _,[] => True
  | answers,str::rest => (answers 0).opened = true ∧ str.length ≤ (answers 0).written ∧
      Complete (fun i => answers (i+1)) rest

/-- Console lines, chunks from the receiver and restarts in any order, with what has happened to
the stream and the files, and the bytes taken in. The rest of the queue is lost in a restart. -/
inductive LogRun [FloatLib F] (imei : Option (List UInt8)) (card : Card) :
    List Entry → List UInt8 → Logger F → Prop
  | boot {δ : Type} {read : δ → ℕ → ReadResult × δ} {file : BootFile δ} {fuel : ℕ}
      {d : Device F} :
      configStoreInit read imei file fuel = some d →
      LogRun imei card [] [] ⟨d,gpsBoot d.log,card⟩
  | line {entries : List Entry} {taken : List UInt8} {l : Logger F} (a : SaveAnswers)
      (removed : Bool) (data : List UInt8) :
      LogRun imei card entries taken l →
      LogRun imei card
        (entries++lineEntries removed (handleUartCommand a data l.device).2) taken
        (l.line a removed data)
  | update {entries : List Entry} {taken : List UInt8} {l : Logger F} {pending : Bool}
      {answers : ℕ → AppendAnswers} {fuel : ℕ} {data : List UInt8} {mallocOk : Bool}
      {gps : GpsState} :
      LogRun imei card entries taken l →
      gpsUpdate fuel (l.waiting pending) data mallocOk = some gps →
      Complete answers (gps.saved.drop l.gps.saved.length) →
      LogRun imei card (entries++l.pieces (queue l.gps++accepted l.gps data) gps)
        (taken++accepted l.gps data) (l.update answers gps)
  | restart {entries : List Entry} {taken : List UInt8} {l : Logger F} {δ : Type}
      {read : δ → ℕ → ReadResult × δ} {file : BootFile δ} {fuel : ℕ} {d : Device F} :
      LogRun imei card entries taken l → configStoreInit read imei file fuel = some d →
      LogRun imei card (entries++[.piece none (queue l.gps)]) taken ⟨d,gpsBoot d.log,l.card⟩

/-! ### The card -/

theorem saveToTfCard_complete (gpsLogPath : List UInt8) {a : AppendAnswers} {str : List UInt8}
    (hopened : a.opened = true) (hwritten : str.length ≤ a.written) (card : Card) :
    (saveToTfCard a gpsLogPath str card).2 =
      Function.update card gpsLogPath (card gpsLogPath++str) := by
  rw [saveToTfCard,if_pos hopened]
  simp only [min_eq_right hwritten,List.take_length]

theorem saveFrames_complete (gpsLogPath : List UInt8) {answers : ℕ → AppendAnswers}
    {texts : List (List UInt8)} (h : Complete answers texts) (card : Card) :
    saveFrames answers gpsLogPath texts card =
      Function.update card gpsLogPath (card gpsLogPath++texts.flatten) := by
  induction texts generalizing answers card with
  | nil => simp [saveFrames]
  | cons str rest ih =>
    obtain ⟨hopened,hwritten,hrest⟩ := h
    rw [saveFrames,ih hrest,saveToTfCard_complete gpsLogPath hopened hwritten]
    simp

def Entry.after (path content : List UInt8) : Entry → List UInt8
  | .piece target bytes => if target = some path then content++bytes else content
  | .written path' text => if path' = path then text else content

def contentAfter (path content : List UInt8) (entries : List Entry) : List UInt8 :=
  entries.foldl (Entry.after path) content

theorem contentAfter_append (path content : List UInt8) (xs ys : List Entry) :
    contentAfter path content (xs++ys) = contentAfter path (contentAfter path content xs) ys :=
  List.foldl_append

theorem contentAfter_none (path content bs : List UInt8) :
    contentAfter path content [.piece none bs] = content := by
  simp [contentAfter,Entry.after]

theorem contentAfter_target (path content : List UInt8) (target : Option (List UInt8))
    (blocks : List (List UInt8)) :
    contentAfter path content (blocks.map fun block => .piece target block) =
      if target = some path then content++blocks.flatten else content := by
  induction blocks generalizing content with
  | nil => simp [contentAfter]
  | cons block blocks ih =>
    rw [List.map_cons,← List.singleton_append,contentAfter_append,ih]
    by_cases h : target = some path <;> simp [contentAfter,Entry.after,h]

def logged (path : List UInt8) (entries : List Entry) : List UInt8 :=
  (entries.map fun x =>
    match x with
    | .piece target bytes => if target = some path then bytes else []
    | .written _ _ => []).flatten

/-- Where no console line has written to it, a file grows by its pieces. -/
theorem contentAfter_eq {path : List UInt8} {entries : List Entry}
    (h : ∀ text, .written path text ∉ entries) (content : List UInt8) :
    contentAfter path content entries = content++logged path entries := by
  induction entries generalizing content with
  | nil => simp [contentAfter,logged]
  | cons x entries ih =>
    have hrest : ∀ text, .written path text ∉ entries :=
      fun text ht => h text (List.mem_cons_of_mem x ht)
    rw [← List.singleton_append,contentAfter_append,ih hrest]
    cases x with
    | piece target bytes =>
      by_cases ht : target = some path <;> simp [contentAfter,Entry.after,logged,ht]
    | written path' text =>
      have hne : path' ≠ path := by
        rintro rfl
        exact h text (by simp)
      simp [contentAfter,Entry.after,logged,hne]

theorem contentAfter_written (path content text : List UInt8) (xs : List Entry) :
    contentAfter path content (xs++[.written path text]) = text := by
  rw [contentAfter_append]
  simp [contentAfter,Entry.after]

/-! ### A call -/

/-- The frames cut off the queue since `st`. -/
structure Cuts (st : GpsState) (blocks : List (List UInt8)) (st' : GpsState) : Prop where
  inv : QueueInv st'
  log : st'.log = st.log
  idle : st'.cmdPending = st.cmdPending
  parsed : st'.parsed = st.parsed++blocks
  saved : st'.saved = st.saved++if st.log.isSaveLog then blocks.map cstring else []
  queued : blocks.flatten++queue st' = queue st

theorem frameStep_next_parses {st st' : GpsState} (hb : frameStep st = .next st') :
    st' = st ∨ ∃ b' tmp, st' = parseBlock st b' tmp := by
  simp only [frameStep] at hb
  split_ifs at hb
  · split at hb
    · cases hb
    · exact Or.inr ⟨_,_,(Loop.Step.next.inj hb).symm⟩
  · exact Or.inl (Loop.Step.next.inj hb).symm

theorem frameStep_cuts {st s s' : GpsState} {blocks : List (List UInt8)} (h : Cuts st blocks s)
    (hb : frameStep s = .next s') : ∃ blocks, Cuts st blocks s' := by
  rcases frameStep_next_cases h.inv hb with ⟨rfl,-⟩ | ⟨i,j,-,-,htaken⟩
  · exact ⟨blocks,h⟩
  rcases frameStep_next_parses hb with rfl | ⟨b',tmp,rfl⟩
  · exact ⟨blocks,h⟩
  have hparsed : s.parsed++[tmp] = s.parsed++[(queue s).take (min (i+j+2) 1024)] :=
    htaken.parsed_eq
  have htmp : tmp = (queue s).take (min (i+j+2) 1024) := by simpa using hparsed
  refine ⟨blocks++[tmp],htaken.inv,h.log,h.idle,?_,?_,?_⟩
  · rw [parseBlock,h.parsed,List.append_assoc]
  · rw [parseBlock,h.log,h.saved]
    split_ifs <;> simp
  · rw [htaken.queue_eq,List.flatten_append,List.flatten_singleton,List.append_assoc,htmp,
      List.take_append_drop,h.queued]

theorem loop_cuts {st st' : GpsState} {fuel : ℕ} (h : QueueInv st)
    (hr : Loop.run frameStep fuel st = some st') : ∃ blocks, Cuts st blocks st' := by
  refine Loop.run_partial (fun s => ∃ blocks, Cuts st blocks s)
    (fun s => ∃ blocks, Cuts st blocks s) (fun s s' hs hb => ?_) (fun s r hs hb => ?_)
    ⟨[],h,rfl,rfl,by simp,by simp,rfl⟩ hr
  · obtain ⟨blocks,hs⟩ := hs
    exact frameStep_cuts hs hb
  · obtain ⟨blocks,hs⟩ := hs
    obtain ⟨rfl,-⟩ := frameStep_done hs.inv hb
    exact ⟨blocks,hs⟩

theorem ackUpdate_eq (st : GpsState) (mallocOk : Bool) :
    ∃ b ack, ackUpdate st mallocOk = { st with gpsNmeaBuffer := b, ack := ack } := by
  have hsame : ∃ b ack, st = { st with gpsNmeaBuffer := b, ack := ack } := ⟨_,_,rfl⟩
  have hdeliver : ∀ b' tmp i, ∃ b ack,
      deliverAck st b' tmp i mallocOk = { st with gpsNmeaBuffer := b, ack := ack } := by
    intro b' tmp i
    cases i <;> exact ⟨_,_,rfl⟩
  simp only [ackUpdate]
  split_ifs
  · split
    · exact hsame
    · exact hdeliver _ _ _
  · exact hsame
  · split
    · exact hsame
    · exact hdeliver _ _ _
  · exact hsame
  · exact hsame

/-- A call cuts pieces off the queue, and appends to the file of the log those that belong
there. -/
structure Logs (l : Logger F) (queued : List UInt8) (gps : GpsState) : Prop where
  inv : QueueInv gps
  log : gps.log = l.gps.log
  stream : ((l.pieces queued gps).map Entry.bytes).flatten++queue gps = queued
  card : (0 : UInt8) ∉ queued → ∀ answers, Complete answers (gps.saved.drop l.gps.saved.length) →
    ∀ path, (l.update answers gps).card path =
      contentAfter path (l.card path) (l.pieces queued gps)

theorem Cuts.logs {l : Logger F} {st gps : GpsState} {blocks : List (List UInt8)}
    (h : Cuts st blocks gps) (hidle : st.cmdPending = false) (hlog : st.log = l.gps.log)
    (hparsed : st.parsed = l.gps.parsed) (hsaved : st.saved = l.gps.saved) :
    Logs l (queue st) gps := by
  have hpieces : l.pieces (queue st) gps = blocks.map fun block => .piece l.target block := by
    rw [Logger.pieces,h.idle,hidle,if_neg (by decide),h.parsed,hparsed,List.drop_left]
  have hnew : gps.saved.drop l.gps.saved.length =
      if l.gps.log.isSaveLog then blocks.map cstring else [] := by
    rw [h.saved,hsaved,List.drop_left,hlog]
  refine ⟨h.inv,h.log.trans hlog,?_,fun hzero answers hcomplete path => ?_⟩
  · rw [hpieces,List.map_map]
    exact (congrArg (fun bs => bs.flatten++queue gps) (List.map_id blocks)).trans h.queued
  · have htexts : blocks.map cstring = blocks := by
      refine (List.map_congr_left fun block hblock => cstring_eq_self fun h0 => hzero ?_).trans
        (List.map_id blocks)
      rw [← h.queued]
      exact List.mem_append_left _ (List.mem_flatten.2 ⟨block,hblock,h0⟩)
    have hcard := saveFrames_complete l.device.config.gpsLogFile.text hcomplete l.card
    rw [Logger.update,hcard,hnew,htexts,hpieces,contentAfter_target,Logger.target]
    by_cases hsave : l.gps.log.isSaveLog = true
    · rw [if_pos hsave,if_pos hsave]
      by_cases hpath : l.device.config.gpsLogFile.text = path
      · subst hpath
        simp
      · simp [hpath,Function.update_of_ne (Ne.symm hpath)]
    · simp [hsave]

theorem ackUpdate_logs {l : Logger F} (hinv : QueueInv l.gps) (data : List UInt8)
    (mallocOk : Bool) :
    Logs l (queue (receive (l.waiting true) data))
      (ackUpdate (receive (l.waiting true) data) mallocOk) := by
  have hwait : QueueInv (l.waiting true) := ⟨hinv.wellFormed,hinv.maxSize_eq⟩
  obtain ⟨hinv',hsuffix,-⟩ :=
    CommandExchange.ackUpdate_updated (receive_queueInv hwait data) rfl mallocOk
  obtain ⟨b,ack,heq⟩ := ackUpdate_eq (receive (l.waiting true) data) mallocOk
  generalize hgps : ackUpdate (receive (l.waiting true) data) mallocOk = gps at *
  have hpending : gps.cmdPending = true := by rw [heq]; rfl
  have hnew : gps.saved.drop l.gps.saved.length = [] := by
    rw [heq]
    exact List.drop_length
  refine ⟨hinv',by rw [heq]; rfl,?_,fun _ answers _ path => ?_⟩
  · obtain ⟨front,hfront⟩ := hsuffix
    rw [Logger.pieces,if_pos hpending,← hfront]
    simp [Entry.bytes]
  · rw [Logger.pieces,if_pos hpending,contentAfter_none,Logger.update,hnew,saveFrames]

theorem gpsUpdate_logs {l : Logger F} (hinv : QueueInv l.gps) {pending : Bool} {fuel : ℕ}
    {data : List UInt8} {mallocOk : Bool} {gps : GpsState}
    (hu : gpsUpdate fuel (l.waiting pending) data mallocOk = some gps) :
    Logs l (queue l.gps++accepted l.gps data) gps := by
  have hwait : QueueInv (l.waiting pending) := ⟨hinv.wellFormed,hinv.maxSize_eq⟩
  have hqueue : queue (receive (l.waiting pending) data) = queue l.gps++accepted l.gps data :=
    receive_accepted hwait data
  rw [← hqueue]
  cases pending with
  | true =>
    obtain rfl := Option.some.inj hu
    exact ackUpdate_logs hinv data mallocOk
  | false =>
    obtain ⟨blocks,h⟩ := loop_cuts (receive_queueInv hwait data) hu
    exact h.logs rfl rfl rfl rfl

/-! ### The log -/

/-- Every byte taken in stands in one piece or still waits, and the files hold what the entries
have made of them. -/
structure Logged [FloatLib F] (imei : Option (List UInt8)) (card : Card) (entries : List Entry)
    (taken : List UInt8) (l : Logger F) : Prop where
  reachable : Reachable imei l.device
  log : l.gps.log = l.device.log
  inv : QueueInv l.gps
  stream : (entries.map Entry.bytes).flatten++queue l.gps = taken
  card : (0 : UInt8) ∉ taken → ∀ path, l.card path = contentAfter path (card path) entries

theorem lineEntries_bytes (removed : Bool) (reply : UartReply) :
    ((lineEntries removed reply).map Entry.bytes).flatten = [] := by
  unfold lineEntries
  cases fileWritten removed reply <;> rfl

theorem line_device [FloatLib F] (l : Logger F) (a : SaveAnswers) (removed : Bool)
    (data : List UInt8) :
    (l.line a removed data).device = (handleUartCommand a data l.device).1 := by
  simp only [Logger.line]

theorem line_log [FloatLib F] (l : Logger F) (a : SaveAnswers) (removed : Bool)
    (data : List UInt8) :
    (l.line a removed data).gps.log = (handleUartCommand a data l.device).1.log := by
  simp only [Logger.line]

theorem line_queueInv [FloatLib F] {l : Logger F} (h : QueueInv l.gps) (a : SaveAnswers)
    (removed : Bool) (data : List UInt8) : QueueInv (l.line a removed data).gps := by
  simp only [Logger.line]
  exact ⟨h.wellFormed,h.maxSize_eq⟩

theorem line_queue [FloatLib F] (l : Logger F) (a : SaveAnswers) (removed : Bool)
    (data : List UInt8) : queue (l.line a removed data).gps = queue l.gps := by
  simp only [Logger.line,queue]

theorem line_card [FloatLib F] (l : Logger F) (a : SaveAnswers) (removed : Bool)
    (data path : List UInt8) : (l.line a removed data).card path =
      contentAfter path (l.card path)
        (lineEntries removed (handleUartCommand a data l.device).2) := by
  simp only [Logger.line,lineEntries]
  cases fileWritten removed (handleUartCommand a data l.device).2 with
  | none => rfl
  | some w =>
    by_cases h : w.1 = path
    · subst h
      simp [contentAfter,Entry.after]
    · simp [contentAfter,Entry.after,h,Function.update_of_ne (Ne.symm h)]

theorem logRun_logged [FloatLib F] {imei : Option (List UInt8)} {card : Card}
    {entries : List Entry} {taken : List UInt8} {l : Logger F}
    (h : LogRun imei card entries taken l) : Logged imei card entries taken l := by
  induction h with
  | boot hboot =>
    refine ⟨.init _ _ _ hboot,rfl,gpsBoot_queueInv _,?_,fun _ path => rfl⟩
    rw [gpsBoot_queue]
    rfl
  | @line entries taken l a removed data _ ih =>
    refine ⟨?_,?_,line_queueInv ih.inv a removed data,?_,fun hzero path => ?_⟩
    · rw [line_device]
      exact Reachable.uart a data ih.reachable
    · rw [line_log,line_device]
    · rw [List.map_append,List.flatten_append,lineEntries_bytes,List.append_nil,line_queue]
      exact ih.stream
    · rw [line_card,contentAfter_append,ih.card hzero path]
  | @update entries taken l pending answers fuel data mallocOk gps _ hu hcomplete ih =>
    have hlogs := gpsUpdate_logs ih.inv hu
    refine ⟨ih.reachable,hlogs.log.trans ih.log,hlogs.inv,?_,fun hzero path => ?_⟩
    · rw [List.map_append,List.flatten_append,List.append_assoc]
      refine (congrArg _ hlogs.stream).trans ?_
      rw [← List.append_assoc,ih.stream]
    · have hzero' : 0 ∉ taken := fun h0 => hzero (List.mem_append_left _ h0)
      have hqueued : 0 ∉ queue l.gps++accepted l.gps data := by
        intro h0
        refine hzero ?_
        rw [← ih.stream,List.append_assoc]
        exact List.mem_append_right _ h0
      rw [hlogs.card hqueued answers hcomplete path,ih.card hzero' path,contentAfter_append]
  | @restart entries taken l _ _ _ _ d _ hboot ih =>
    refine ⟨.init _ _ _ hboot,rfl,gpsBoot_queueInv _,?_,fun hzero path => ?_⟩
    · rw [gpsBoot_queue,List.map_append,List.flatten_append,List.append_nil]
      exact (congrArg _ (List.append_nil _)).trans ih.stream
    · rw [contentAfter_append,contentAfter_none]
      exact ih.card hzero path

theorem logged_all {path : List UInt8} {entries : List Entry}
    (h : ∀ target bytes, .piece target bytes ∈ entries → target = some path) :
    logged path entries = (entries.map Entry.bytes).flatten := by
  rw [logged]
  congr 1
  refine List.map_congr_left fun x hx => ?_
  cases x with
  | piece target bytes => exact if_pos (h target bytes hx)
  | written path' text => rfl

/-- Over any run of console lines, chunks, commands and restarts in which the appends are
complete, the stream is cut into pieces, in order and without a gap. Every file holds what was in
it at first or the text that the last console line to write or delete it has left, and behind
that the pieces taken out since then while the log was on and named it: a byte is never logged
twice, nor in two files. While the log goes to one file that no console line touches, that file
and the queue are the stream. -/
theorem log_holds_stream [FloatLib F] {imei : Option (List UInt8)} (himei : ImeiAnswer imei)
    {card : Card} {entries : List Entry} {taken : List UInt8} {l : Logger F}
    (h : LogRun imei card entries taken l) (hzero : (0 : UInt8) ∉ taken) :
    l.gps.log = ⟨l.device.config.gpsLogging,.gpsLogFile⟩ ∧
    (entries.map Entry.bytes).flatten++queue l.gps = taken ∧
    (∀ path, (∀ text, .written path text ∉ entries) →
      l.card path = card path++logged path entries) ∧
    (∀ path text before after, entries = before++.written path text::after →
      (∀ text', .written path text' ∉ after) → l.card path = text++logged path after) ∧
    ∀ path, (∀ target bytes, .piece target bytes ∈ entries → target = some path) →
      (∀ text, .written path text ∉ entries) → l.card path++queue l.gps = card path++taken := by
  obtain ⟨hreachable,hlog,-,hstream,hcard⟩ := logRun_logged h
  refine ⟨hlog.trans (settled_of_reachable himei hreachable).log,hstream,?_,?_,?_⟩
  · intro path hpath
    rw [hcard hzero path,contentAfter_eq hpath]
  · rintro path text before after rfl hafter
    rw [hcard hzero path,List.append_cons,contentAfter_append,contentAfter_written,
      contentAfter_eq hafter]
  · intro path hall hpath
    rw [hcard hzero path,contentAfter_eq hpath,logged_all hall,List.append_assoc,hstream]

theorem exists_complete (texts : List (List UInt8)) : ∃ answers, Complete answers texts := by
  induction texts with
  | nil => exact ⟨fun _ => ⟨false,0⟩,trivial⟩
  | cons str rest ih =>
    obtain ⟨answers,h⟩ := ih
    exact ⟨fun i => Nat.casesOn i ⟨true,str.length⟩ answers,rfl,le_rfl,h⟩

/-- A logging device that has saved its configuration and deleted a file. -/
theorem exists_logging : ∃ (text : List UInt8) (l : Logger Micros),
    LogRun PowerCycles.imeiText (fun _ => lit "old")
        [.written configFilePath text,.written (lit "/old") []] [] l ∧
      l.device.config.gpsLogging = true ∧
      l.device.config.gpsLogFile.text ≠ configFilePath ∧
      l.device.config.gpsLogFile.text ≠ lit "/old" := by
  have hboot := @LogRun.boot Micros _ PowerCycles.imeiText (fun _ => lit "old") FileDevice fileRead
    (PowerCycles.bootFile (fun _ => 100) none) 0 (initDefaults PowerCycles.imeiText) rfl
  have hline := hboot.line ⟨true,fun _ => 254⟩ false (lit "set gps_logging 1")
  have hrm := hline.line ⟨false,fun _ => 0⟩ true (lit "rm /old")
  have hon : (handleUartCommand ⟨true,fun _ => 254⟩ (lit "set gps_logging 1")
      (initDefaults PowerCycles.imeiText : Device Micros)).1.config.gpsLogging = true := by
    decide +kernel
  have hfile : (handleUartCommand ⟨true,fun _ => 254⟩ (lit "set gps_logging 1")
      (initDefaults PowerCycles.imeiText : Device Micros)).1.config.gpsLogFile.text ≠
        configFilePath ∧
      (handleUartCommand ⟨true,fun _ => 254⟩ (lit "set gps_logging 1")
        (initDefaults PowerCycles.imeiText : Device Micros)).1.config.gpsLogFile.text ≠
          lit "/old" := by
    decide +kernel
  have hsaved : (fileWritten false (handleUartCommand ⟨true,fun _ => 254⟩
      (lit "set gps_logging 1") (initDefaults PowerCycles.imeiText : Device Micros)).2).map
        Prod.fst = some configFilePath := by
    decide +kernel
  obtain ⟨⟨path,text⟩,hw,rfl⟩ := Option.map_eq_some_iff.1 hsaved
  have hremoved : ∀ d : Device Micros,
      handleUartCommand ⟨false,fun _ => 0⟩ (lit "rm /old") d = (d,.other .rm (lit " /old")) := by
    intro d
    have hdispatch : dispatch (cstring (lit "rm /old")) = some (.rm,lit " /old") := by
      decide +kernel
    rw [handleUartCommand,hdispatch]
    rfl
  have hentries : lineEntries true (.other .rm (lit " /old")) = [.written (lit "/old") []] := by
    decide
  have hset : lineEntries false (handleUartCommand ⟨true,fun _ => 254⟩ (lit "set gps_logging 1")
      (initDefaults PowerCycles.imeiText : Device Micros)).2 = [.written configFilePath text] := by
    rw [lineEntries,hw]
    rfl
  simp only [hremoved,hentries,hset,List.nil_append,List.cons_append] at hrm
  refine ⟨text,_,hrm,?_,?_,?_⟩
  · simp only [line_device,hremoved]
    exact hon
  · simp only [line_device,hremoved]
    exact hfile.1
  · simp only [line_device,hremoved]
    exact hfile.2

/-- Behind them comes a frame; it stands in the log behind what the file held. -/
theorem log_holds_stream_lines : ∃ (entries : List Entry) (l : Logger Micros),
    LogRun PowerCycles.imeiText (fun _ => lit "old") entries (lit "$GNVTG\r\n") l ∧
      l.gps.log.isSaveLog = true ∧ l.card (lit "/old") = [] ∧
      l.card l.device.config.gpsLogFile.text++queue l.gps = lit "old"++lit "$GNVTG\r\n" := by
  obtain ⟨text,l,hline,hlogging,hconfig,hname⟩ := exists_logging
  have hlogged := logRun_logged hline
  have hempty : queue l.gps = [] := by
    have hstream := hlogged.stream
    rw [List.append_eq_nil_iff] at hstream
    exact hstream.2
  have hon : l.gps.log.isSaveLog = true := by
    rw [hlogged.log,(settled_of_reachable PowerCycles.imeiText_answer hlogged.reachable).log]
    exact hlogging
  have hwait : QueueInv (l.waiting false) := ⟨hlogged.inv.wellFormed,hlogged.inv.maxSize_eq⟩
  have hafter : queueAfter (queue l.gps) (lit "$GNVTG\r\n") = lit "$GNVTG\r\n" := by
    rw [hempty]
    decide
  have haccepted : accepted l.gps (lit "$GNVTG\r\n") = lit "$GNVTG\r\n" := by
    rw [QueueWedge.accepted_eq_self hlogged.inv,hafter,hempty]
    rfl
  have hclosed : EveryVtgClosed (lit "$GNVTG\r\n") := by
    intro i hi
    have hlen : i+3 ≤ 8 := hi.add_length_le (by decide)
    exact ⟨6,by omega,by decide⟩
  obtain ⟨fuel,gps,hu⟩ := (gpsUpdate_returns hwait rfl (lit "$GNVTG\r\n") true).2
    (by rw [show queue (l.waiting false) = queue l.gps from rfl,hafter]; exact hclosed)
  obtain ⟨answers,hcomplete⟩ := exists_complete (gps.saved.drop l.gps.saved.length)
  have hrun := hline.update hu hcomplete
  rw [haccepted] at hrun
  obtain ⟨hlog,-,-,hlast,hone⟩ := log_holds_stream PowerCycles.imeiText_answer hrun (by decide)
  obtain ⟨blocks,hpieces⟩ : ∃ blocks : List (List UInt8),
      l.pieces (queue l.gps++lit "$GNVTG\r\n") gps = blocks.map fun block =>
        .piece (some l.device.config.gpsLogFile.text) block := by
    have hpending : gps.cmdPending = false := by
      obtain ⟨_,h⟩ := loop_cuts (receive_queueInv hwait _) hu
      exact h.idle
    refine ⟨gps.parsed.drop l.gps.parsed.length,?_⟩
    rw [Logger.pieces,hpending,if_neg (by decide),Logger.target,if_pos hon]
  rw [hpieces] at hone hlast hrun
  refine ⟨_,_,hrun,?_,?_,?_⟩
  · rw [hlog]
    exact hlogging
  · rw [hlast (lit "/old") [] [.written configFilePath text] _ rfl (by simp)]
    simp [logged,Function.comp_def,hname]
  · refine hone l.device.config.gpsLogFile.text ?_ ?_
    · intro target bytes hx
      simp only [List.mem_append,List.mem_cons,List.not_mem_nil,or_false,List.mem_map,
        Entry.piece.injEq,reduceCtorEq,false_or] at hx
      obtain ⟨block,-,htarget,-⟩ := hx
      exact htarget.symm
    · intro text' hx
      simp [hconfig,hname] at hx

end GpsLog
end A9GTracker
