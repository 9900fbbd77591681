import A9GTracker.ConfigRoundTrip
import A9GTracker.LsCommand

/-! The configuration over power cycles: the console, the saves, and the boots that read the
file back, in any order. -/
namespace A9GTracker
namespace PowerCycles

open CString Utils ConfigStore ConfigLoad ConfigFile ConfigCommands ConfigFields ConfigInvariant
open ChunkedLoading Lines SavedFile ConfigRoundTrip LsCommand

variable {F : Type} [FloatLib F]

/-! ### The device and its file -/

/-- The device with its configuration file, if it has one. -/
structure Flash (F : Type) where
  device : Device F
  file : Option (List UInt8)

def bootFile (cuts : ℕ → ℕ) : Option (List UInt8) → BootFile FileDevice
  | some text => wholeFile text cuts
  | none => ⟨false,0,⟨[],cuts,0⟩⟩

/-- The file behind a line of the console; only an accepted `set` that opens it writes. -/
def fileAfter (reply : UartReply) (file : Option (List UInt8)) : Option (List UInt8) :=
  match reply with
  | .set (.done _ _ (some text)) => some text
  | _ => file

def valueSet : UartReply → Option (Param × List UInt8)
  | .set (.done p value _) => some (p,value)
  | _ => none

/-- Runs from the first boot on, with the values set so far. A boot reads the file in any
cuts; `Saves` is what is known of the writes of an accepted `set`. -/
inductive Session (imei : Option (List UInt8)) (Saves : SaveAnswers → Config F → Prop) :
    List (Param × List UInt8) → Flash F → Prop
  | init {cuts : ℕ → ℕ} {fuel : ℕ} {d : Device F} :
      configStoreInit fileRead imei (bootFile cuts none) fuel = some d →
      Session imei Saves [] ⟨d,none⟩
  | line {sets : List (Param × List UInt8)} {s : Flash F} {a : SaveAnswers} {data : List UInt8} :
      Session imei Saves sets s →
      (valueSet (handleUartCommand a data s.device).2 ≠ none →
        Saves a (handleUartCommand a data s.device).1.config) →
      Session imei Saves (sets++(valueSet (handleUartCommand a data s.device).2).toList)
        ⟨(handleUartCommand a data s.device).1,
          fileAfter (handleUartCommand a data s.device).2 s.file⟩
  | reboot {sets : List (Param × List UInt8)} {s : Flash F} {cuts : ℕ → ℕ} {fuel : ℕ}
      {d : Device F} :
      Session imei Saves sets s →
      configStoreInit fileRead imei (bootFile cuts s.file) fuel = some d →
      Session imei Saves sets ⟨d,s.file⟩

theorem Session.next {imei : Option (List UInt8)} {Saves : SaveAnswers → Config F → Prop}
    {sets : List (Param × List UInt8)} {s : Flash F} {a : SaveAnswers} {data : List UInt8}
    {r : Device F × UartReply} (h : Session imei Saves sets s)
    (hr : handleUartCommand a data s.device = r)
    (hsave : valueSet r.2 ≠ none → Saves a r.1.config) :
    Session imei Saves (sets++(valueSet r.2).toList) ⟨r.1,fileAfter r.2 s.file⟩ := by
  rw [← hr] at hsave ⊢
  exact .line h hsave

/-! ### One step -/

/-- A value that the file gives back: one line without blanks at its ends, a port of at most
seven characters, and not the level `none`. -/
structure Durable (p : Param) (value : List UInt8) : Prop where
  oneLine : OneLine value
  noNul : (0 : UInt8) ∉ value
  port : p = .serverPort → value.length ≤ 7
  level : p = .logLevel → decodeKeyword logLevelTable value ≠ some .none

instance (p : Param) (value : List UInt8) : Decidable (Durable p value) :=
  decidable_of_iff (OneLine value ∧ (0 : UInt8) ∉ value ∧ (p = .serverPort → value.length ≤ 7) ∧
    (p = .logLevel → decodeKeyword logLevelTable value ≠ some .none))
    ⟨fun ⟨h,h0,hport,hlevel⟩ => ⟨h,h0,hport,hlevel⟩,fun h => ⟨h.oneLine,h.noNul,h.port,h.level⟩⟩

/-- The text of a value once it is stored: a keyword has one spelling, any other text is
kept. -/
def shown (p : Param) (value : List UInt8) : List UInt8 :=
  match p with
  | .serverProtocol => ((decodeKeyword protocolTable value).map protocolSerializer).getD []
  | .logLevel => ((decodeKeyword logLevelTable value).map logLevelSerializer).getD []
  | .logOutput => ((decodeKeyword logOutputTable value).map logOutputSerializer).getD []
  | .gpsLogs => ((decodeKeyword boolTable value).map boolSerializer).getD []
  | .gpsPrintPos => ((decodeKeyword boolTable value).map boolSerializer).getD []
  | _ => value

def defaults (imei : Option (List UInt8)) (p : Param) : List UInt8 :=
  defaultOf imei (getImei imei (zeroDevice : Device Micros)).config p

/-- The store the console stands for: a map from the parameters to their values. -/
def assigned (imei : Option (List UInt8)) (sets : List (Param × List UInt8)) :
    Param → List UInt8 :=
  sets.foldl (fun m e => Function.update m e.1 e.2) (defaults imei)

/-- The fields hold the values of the map. -/
def Agrees (m : Param → List UInt8) (c : Config F) : Prop :=
  ∀ p, p ≠ Param.gpsUere → Durable p (m p) ∧ decode p (m p) = some (get p c)

theorem Agrees.oneLine {m : Param → List UInt8} {c : Config F} (h : Agrees m c) (p : Param)
    (hp : p ≠ .gpsUere) : OneLine (p.serializer c) := by
  obtain ⟨hdurable,hx⟩ := h p hp
  rw [serializer_eq]
  exact oneLine_encode hp hdurable.oneLine hdurable.noNul hx

def imeiText : Option (List UInt8) := some (lit "867959033012345")

theorem imeiText_answer : ImeiAnswer imeiText := by
  refine ⟨?_,?_,?_⟩ <;> decide

end PowerCycles
end A9GTracker
