import Mathlib.Data.List.Basic
import A9GTracker.GpsParse
import A9GTracker.SentenceCheck

/-! Every sentence of the eight kinds is stored as the frame its fields spell, whatever was
stored before. -/
namespace A9GTracker
namespace SentenceRoundTrip

open CString Utils ConfigStore Decimal Minmea GpsParse ScannedFields SentenceFields SentenceCheck

/-! ### Messages -/

/-- The frame that a sentence carries. -/
inductive Message
  | rmc (frame : Rmc)
  | gga (frame : Gga)
  | gsa (frame : Gsa)
  | gll (frame : Gll)
  | gst (frame : Gst)
  | gsv (frame : Gsv)
  | vtg (frame : Vtg)
  | zda (frame : Zda)
  deriving DecidableEq

def Message.format : Message → String
  | .rmc _ => rmcParser.format
  | .gga _ => ggaParser.format
  | .gsa _ => gsaParser.format
  | .gll _ => gllParser.format
  | .gst _ => gstParser.format
  | .gsv _ => gsvParser.format
  | .vtg _ => vtgParser.format
  | .zda _ => zdaParser.format

def Message.name : Message → List UInt8
  | .rmc _ => lit "RMC"
  | .gga _ => lit "GGA"
  | .gsa _ => lit "GSA"
  | .gll _ => lit "GLL"
  | .gst _ => lit "GST"
  | .gsv _ => lit "GSV"
  | .vtg _ => lit "VTG"
  | .zda _ => lit "ZDA"

/-- The values behind the type of a sentence. Directions turn the coordinates round, and the
letters behind the numbers of VTG are fixed. -/
inductive Says : Message → List ScanValue → Prop
  | rmc {time : MinmeaTime} {validity : UInt8} {latitude longitude speed course : MinmeaFloat}
      {date : MinmeaDate} {variation : MinmeaFloat} {ns ew we : ℤ} :
      Says (.rmc ⟨time,validity = 65,latitude.orient ns,longitude.orient ew,speed,course,date,
          variation.orient we⟩)
        [.time time,.char validity,.float latitude,.direction ns,.float longitude,.direction ew,
          .float speed,.float course,.date date,.float variation,.direction we]
  | gga {time : MinmeaTime} {latitude longitude hdop altitude height dgpsAge : MinmeaFloat}
      {ns ew fixQuality satellitesTracked : ℤ} {altitudeUnits heightUnits : UInt8} :
      Says (.gga ⟨time,latitude.orient ns,longitude.orient ew,fixQuality,satellitesTracked,hdop,
          altitude,altitudeUnits,height,heightUnits,dgpsAge⟩)
        [.time time,.float latitude,.direction ns,.float longitude,.direction ew,.int fixQuality,
          .int satellitesTracked,.float hdop,.float altitude,.char altitudeUnits,.float height,
          .char heightUnits,.float dgpsAge,.ignored]
  | gsa {frame : Gsa} :
      Says (.gsa frame) (.char frame.mode::.int frame.fixType::
        ((List.finRange 12).map (fun n => .int (frame.sats n))++
          [.float frame.pdop,.float frame.hdop,.float frame.vdop]))
  | gll {latitude longitude : MinmeaFloat} {ns ew : ℤ} {time : MinmeaTime} {status mode : UInt8} :
      Says (.gll ⟨latitude.orient ns,longitude.orient ew,time,status,mode⟩)
        [.float latitude,.direction ns,.float longitude,.direction ew,.time time,.char status,
          .char mode]
  | gst {frame : Gst} :
      Says (.gst frame) [.time frame.time,.float frame.rmsDeviation,
        .float frame.semiMajorDeviation,.float frame.semiMinorDeviation,
        .float frame.semiMajorOrientation,.float frame.latitudeErrorDeviation,
        .float frame.longitudeErrorDeviation,.float frame.altitudeErrorDeviation]
  | gsv {frame : Gsv} :
      Says (.gsv frame) (.int frame.totalMsgs::.int frame.msgNr::.int frame.totalSats::
        (List.finRange 4).flatMap fun n => [.int (frame.sats n).nr,.int (frame.sats n).elevation,
          .int (frame.sats n).azimuth,.int (frame.sats n).snr])
  | vtg {frame : Vtg} :
      Says (.vtg frame) [.float frame.trueTrackDegrees,.char 84,.float frame.magneticTrackDegrees,
        .char 77,.float frame.speedKnots,.char 78,.float frame.speedKph,.char 75,
        .char frame.faaMode]
  | zda {frame : Zda} (hhour : -13 ≤ frame.hourOffset ∧ frame.hourOffset ≤ 13)
      (hminute : 0 ≤ frame.minuteOffset ∧ frame.minuteOffset ≤ 59) :
      Says (.zda frame) [.time frame.time,.int frame.date.day,.int frame.date.month,
        .int frame.date.year,.int frame.hourOffset,.int frame.minuteOffset]

/-- Behind the fields: the checksum or none, and the line end. -/
inductive Tail (body : List UInt8) : List UInt8 → Prop
  | checked {upper lower : UInt8} {eol : List UInt8} (hsum : SumDigits body upper lower)
      (heol : LineEnd eol) : Tail body (42::upper::lower::eol)
  | unchecked {eol : List UInt8} (heol : LineEnd eol) : Tail body eol

/-- A sentence whose fields spell the values of a message, behind a talker of two letters. -/
structure Writes (m : Message) (sentence : List UInt8) : Prop where
  spelled : ∃ talker values fields tail, talker.length = 2 ∧ Says m values ∧
    Spelled false m.format.toList fields (.type (talker++m.name)::values) ∧
    (∀ text ∈ fields, ∀ c ∈ text, minmeaIsfield c = true) ∧
    Tail (joinFields fields).tail tail ∧ sentence = joinFields fields++tail
  short : sentence.length ≤ 83

/-- Where the frame of a message goes; the slots of repeated sentences are limited. -/
def stored (st : ParseState) : Message → ParseState
  | .rmc frame => { st with info := { st.info with rmc := frame } }
  | .gga frame => { st with info := { st.info with gga := frame } }
  | .gst frame => { st with info := { st.info with gst := frame } }
  | .vtg frame => { st with info := { st.info with vtg := frame } }
  | .zda frame => { st with info := { st.info with zda := frame } }
  | .gll frame => { st with info := { st.info with gll := frame } }
  | .gsv frame =>
    if h : st.gsvCount < 20 then
      { st with
        info := { st.info with gsv := Function.update st.info.gsv ⟨st.gsvCount,h⟩ frame }
        gsvCount := st.gsvCount+1 }
    else st
  | .gsa frame =>
    if h : st.gsaCount < 2 then
      { st with
        info := { st.info with gsa := Function.update st.info.gsa ⟨st.gsaCount,h⟩ frame }
        gsaCount := st.gsaCount+1 }
    else st

/-! ### Check and scan -/

theorem Tail.sentenceEnd {body tail : List UInt8} (h : Tail body tail) : SentenceEnd tail := by
  have hstar : ∀ rest, SentenceEnd (42::rest) := fun rest =>
    ⟨rfl,fun c hc => by
      have hspace : (42::rest).dropWhile isspace = 42::rest := rfl
      rw [hspace,List.head?_cons,Option.mem_def,Option.some.injEq] at hc
      exact hc.symm,by rw [List.headD_cons]; decide⟩
  cases h with
  | checked => exact hstar _
  | unchecked heol =>
    rcases heol with rfl | rfl | rfl
    · exact ⟨rfl,by simp,by decide⟩
    · exact ⟨rfl,by decide +kernel,by decide⟩
    · exact ⟨rfl,by decide +kernel,by decide⟩

theorem mem_joinFields {fields : List (List UInt8)} {c : UInt8} (h : c ∈ joinFields fields) :
    c = 44 ∨ ∃ text ∈ fields, c ∈ text := by
  induction fields with
  | nil => simp [joinFields] at h
  | cons text fields ih =>
    cases fields with
    | nil => exact Or.inr ⟨text,by simp,h⟩
    | cons next fields =>
      rw [joinFields,List.mem_append,List.mem_cons] at h
      · rcases h with h | rfl | h
        · exact Or.inr ⟨text,by simp,h⟩
        · exact Or.inl rfl
        · rcases ih h with hc | ⟨t,ht,hc⟩
          · exact Or.inl hc
          · exact Or.inr ⟨t,by simp only [List.mem_cons] at ht ⊢; exact Or.inr ht,hc⟩
      · exact List.cons_ne_nil _ _

theorem printable_joinFields {fields : List (List UInt8)}
    (h : ∀ text ∈ fields, ∀ c ∈ text, minmeaIsfield c = true) :
    ∀ c ∈ joinFields fields, Printable c := by
  intro c hc
  rcases mem_joinFields hc with rfl | ⟨text,htext,hc⟩
  · exact ⟨rfl,by decide⟩
  · have hfield := h text htext c hc
    simp only [minmeaIsfield,Bool.and_eq_true,bne_iff_ne] at hfield
    exact ⟨hfield.1.1,hfield.2⟩

theorem Message.format_eq (m : Message) : ∃ format, m.format.toList = 't'::format := by
  refine ⟨m.format.toList.tail,?_⟩
  cases m <;> (simp only [Message.format]; decide)

theorem joinFields_cons (first : UInt8) (text : List UInt8) (fields : List (List UInt8)) :
    ∃ body, joinFields ((first::text)::fields) = first::body := by
  cases fields with
  | nil => exact ⟨text,rfl⟩
  | cons next fields => exact ⟨text++44::joinFields (next::fields),rfl⟩

structure Read (m : Message) (values : List ScanValue) (sentence : List UInt8) : Prop where
  content : Says m values
  check : minmeaCheck sentence false = true
  type : ∃ talker, talker.length = 2 ∧
    minmeaScan sentence "t" = ([.type (talker++m.name)],true) ∧
    minmeaScan sentence m.format = (.type (talker++m.name)::values,true)

theorem Writes.read {m : Message} {sentence : List UInt8} (h : Writes m sentence) :
    ∃ values, Read m values sentence := by
  obtain ⟨talker,values,fields,tail,htalker,hcontent,hspelled,hfields,htail,rfl⟩ := h.spelled
  obtain ⟨format,hformat⟩ := m.format_eq
  rw [hformat] at hspelled
  have hend := htail.sentenceEnd
  have hscan := scanLoop_spelled hspelled hend
  cases hspelled with
  | @field _ _ _ text fields _ _ hv hrest =>
    have hfirst : Spelled false ['t'] (text::fields) [.type (talker++m.name)] :=
      .field hv .done
    have hname := scanLoop_spelled hfirst hend
    rw [if_neg (List.cons_ne_nil _ _)] at hscan hname
    refine ⟨values,hcontent,?_,talker,htalker,hname,?_⟩
    · cases hv with
      | type =>
        obtain ⟨body,hbody⟩ := joinFields_cons 36 (talker++m.name) fields
        have hprint := printable_joinFields hfields
        rw [hbody] at htail hprint ⊢
        have hp : ∀ c ∈ body, Printable c := fun c hc => hprint c (by simp [hc])
        have hshort := h.short
        rw [hbody] at hshort
        refine (minmeaCheck_iff _ _).2 ⟨hshort,?_⟩
        cases htail with
        | checked hsum heol => exact .checked hp hsum heol
        | unchecked heol => exact .unchecked rfl hp heol
    · rw [minmeaScan,hformat]
      exact hscan

theorem Read.parse_eq {m : Message} {values : List ScanValue} {sentence : List UInt8}
    (h : Read m values sentence) {S : Type} (p : SentenceParser S) (hformat : p.format = m.format)
    (before : S) : ∃ type, typeOf (.type type::values) = m.name ∧ p.parse before sentence =
      p.finish (.type type::values) (storeAll p.targets (.type type::values) before) := by
  obtain ⟨talker,htalker,-,hscan⟩ := h.type
  refine ⟨talker++m.name,?_,?_⟩
  · simp only [typeOf,List.head?_cons]
    exact List.drop_left' htalker
  · rw [SentenceParser.parse,hformat]
    simp only [hscan,not_true_eq_false,if_false]

def fixText : List UInt8 :=
  lit "$GPRMC,081836,A,3751.65,S,14507.36,E,000.0,360.0,130998,011.3,E*62\r\n"

def fixFields : List (List UInt8) :=
  [lit "$GPRMC",lit "081836",lit "A",lit "3751.65",lit "S",lit "14507.36",lit "E",lit "000.0",
    lit "360.0",lit "130998",lit "011.3",lit "E"]

/-- South counts down. -/
def fixFrame : Rmc :=
  ⟨⟨8,18,36,0⟩,(65 : UInt8) = 65,MinmeaFloat.orient ⟨375165,100⟩ (-1),
    MinmeaFloat.orient ⟨1450736,100⟩ 1,⟨0,10⟩,⟨3600,10⟩,⟨13,9,98⟩,MinmeaFloat.orient ⟨113,10⟩ 1⟩

theorem denotes_decimal (whole frac : List UInt8) {text : List UInt8} {f : MinmeaFloat}
    (h : text = whole++46::frac ∧ whole++frac ≠ [] ∧ IsDigits (whole++frac) ∧
      digitsValue (whole++frac) ≤ 2147483647 ∧ frac.length ≤ 9 ∧
      f = ⟨digitsValue (whole++frac),10^frac.length⟩) : Denotes 'f' text (.float f) := by
  obtain ⟨htext,hne,hdigits,hfit,hscale,rfl⟩ := h
  have hnumber : DecimalNumber [] whole frac text :=
    ⟨Or.inr htext,Or.inl rfl,hne,hdigits,hfit,hscale⟩
  simpa [signOf] using Denotes.float hnumber

theorem fix_writes : Writes (.rmc fixFrame) fixText where
  spelled := by
    have hletter : ∀ (c : UInt8) (d : ℤ), letterSign [c] = d ∧ d ≠ 0 →
        Denotes 'd' [c] (.direction d) := by
      rintro c d ⟨rfl,hd⟩
      exact .direction hd
    have hclock : TimeText [] (lit "081836") := ⟨Or.inl ⟨by decide,rfl⟩,by decide,by decide⟩
    have htime : Denotes 'T' (lit "081836") (.time ⟨8,18,36,0⟩) := .time hclock
    have hdate : Denotes 'D' (lit "130998") (.date ⟨13,9,98⟩) := .date (by decide) (by decide)
    refine ⟨lit "GP",_,fixFields,lit "*62\r\n",by decide,.rmc,?_,by decide +kernel,?_,by decide⟩
    · exact .field (.type (by decide) (by decide +kernel)) (.field htime (.field (.char (by decide))
        (.field (denotes_decimal (lit "3751") (lit "65") (by decide))
        (.field (hletter _ _ (by decide))
        (.field (denotes_decimal (lit "14507") (lit "36") (by decide))
        (.field (hletter _ _ (by decide))
        (.field (denotes_decimal (lit "000") (lit "0") (by decide))
        (.field (denotes_decimal (lit "360") (lit "0") (by decide)) (.field hdate
        (.field (denotes_decimal (lit "011") (lit "3") (by decide))
        (.field (hletter _ _ (by decide)) .done)))))))))))
    · exact .checked ⟨by decide,by decide,by decide⟩ (Or.inr (Or.inr rfl))
  short := by decide

end SentenceRoundTrip
end A9GTracker
