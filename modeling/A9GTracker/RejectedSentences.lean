import A9GTracker.GpsParse
import A9GTracker.Runs

/-! What a rejected sentence leaves in `g_gps_info`. The parsers store field by field, so
the first data field decides: if it scans, its value stays behind. -/
namespace A9GTracker
namespace RejectedSentences

open CString Minmea GpsParse Runs

/-! ### Scans -/

/-- The kind of value that a conversion delivers. -/
def HasKind : Char → ScanValue → Prop
  | 'c', .char _ => True
  | 'd', .direction _ => True
  | 'f', .float _ => True
  | 'i', .int _ => True
  | 's', .string _ => True
  | 't', .type _ => True
  | 'D', .date _ => True
  | 'T', .time _ => True
  | '_', .ignored => True
  | _, _ => False

theorem scanField_kind {c : Char} {field : Option (List UInt8)} {v : ScanValue}
    (h : scanField c field = some v) : HasKind c v := by
  unfold scanField at h
  split at h
  all_goals
    first
    | (obtain ⟨x,-,rfl⟩ := Option.map_eq_some_iff.1 h; trivial)
    | (obtain rfl := Option.some.inj h; trivial)
    | simp at h

def Stops (c : Char) (field : Option (List UInt8)) (optional : Bool) : Prop :=
  (field = none ∧ optional = false) ∨ scanField c field = none

theorem scanLoop_stops {c : Char} {field : Option (List UInt8)} {optional : Bool} (hc : c ≠ ';')
    (h : Stops c field optional) (format : List Char) (sentence : List UInt8) :
    scanLoop (c::format) sentence field optional = ([],false) := by
  rcases h with ⟨rfl,rfl⟩ | h
  · simp [scanLoop,hc]
  · simp [scanLoop,hc,h]

theorem scanLoop_scans {c : Char} {field : Option (List UInt8)} {optional : Bool} (hc : c ≠ ';')
    (h : ¬ Stops c field optional) :
    ∃ v, scanField c field = some v ∧ ∀ format sentence,
      scanLoop (c::format) sentence field optional =
        (v::(scanLoop format (nextField sentence).1 (nextField sentence).2 optional).1,
          (scanLoop format (nextField sentence).1 (nextField sentence).2 optional).2) := by
  simp only [Stops,not_or] at h
  obtain ⟨v,hv⟩ := Option.ne_none_iff_exists'.1 h.2
  refine ⟨v,hv,fun format sentence => ?_⟩
  have hfield : ¬ (field = none ∧ ¬ optional = true) := by simpa using h.1
  rw [scanLoop,if_neg hc,if_neg hfield,hv]

/-- A complete scan delivers one value of the right kind for every conversion. -/
theorem scanLoop_kinds {format : List Char} {sentence : List UInt8}
    {field : Option (List UInt8)} {optional : Bool}
    (h : (scanLoop format sentence field optional).2 = true) :
    List.Forall₂ HasKind (format.filter (· ≠ ';')) (scanLoop format sentence field optional).1 := by
  induction format generalizing sentence field optional with
  | nil => exact List.Forall₂.nil
  | cons c format ih =>
    by_cases hc : c = ';'
    · subst hc
      simp only [scanLoop,if_true] at h ⊢
      simpa using ih h
    · by_cases hstop : Stops c field optional
      · simp [scanLoop_stops hc hstop] at h
      · obtain ⟨v,hv,hscan⟩ := scanLoop_scans hc hstop
        rw [hscan] at h ⊢
        rw [List.filter_cons_of_pos (by simpa using hc)]
        exact List.Forall₂.cons (scanField_kind hv) (ih h)

/-- Whether the type and the first data field scan. -/
def FirstFieldScans (c : Char) (sentence : List UInt8) : Prop :=
  (scanLoop ['t',c] sentence (some sentence) false).2 = true

/-- They decide what a scan of the whole format stores at least, or at most. -/
theorem scanLoop_of_firstFieldScans {c : Char} (hc : c ≠ ';') (format : List Char)
    (sentence : List UInt8) :
    (FirstFieldScans c sentence ∧ ∃ t field v vs, scanField c field = some v ∧
      (scanLoop ('t'::c::format) sentence (some sentence) false).1 = t::v::vs) ∨
    (¬ FirstFieldScans c sentence ∧ ∃ vs, vs.length ≤ 1 ∧
      scanLoop ('t'::c::format) sentence (some sentence) false = (vs,false)) := by
  have ht : ('t' : Char) ≠ ';' := by decide
  unfold FirstFieldScans
  by_cases hstop : Stops 't' (some sentence) false
  · exact Or.inr ⟨by simp [scanLoop_stops ht hstop],[],by simp,scanLoop_stops ht hstop _ _⟩
  · obtain ⟨t,-,hscan⟩ := scanLoop_scans ht hstop
    simp only [hscan]
    by_cases hstop' : Stops c (nextField sentence).2 false
    · exact Or.inr ⟨by simp [scanLoop_stops hc hstop'],[t],by simp,
        by simp [scanLoop_stops hc hstop']⟩
    · obtain ⟨v,hv,hscan'⟩ := scanLoop_scans hc hstop'
      simp only [hscan']
      exact Or.inl ⟨rfl,t,_,v,_,hv,rfl⟩

/-! ### Parsers -/

/-- A parser of the library whose first data field, of conversion `c`, is stored where `get`
reads and is not touched again by a rejected sentence. -/
structure StoresFirst {S V : Type} (p : SentenceParser S) (c : Char) (get : S → V) : Prop where
  conversion : c ≠ ';'
  format : ∃ rest, p.format.toList = 't'::c::rest
  first : ∀ v, HasKind c v → ∃ x, ∀ t ∈ p.targets[1]?, ∀ s, get (t.store v s) = x
  targets : ∃ t ts, p.targets = .scratch::t::ts
  later : ∀ t ∈ p.targets.drop 2, ∀ v s, get (t.store v s) = get s
  rejects : ∀ values s, (p.finish values s).2 = false → (p.finish values s).1 = s
  verdict : ∀ values, List.Forall₂ HasKind (p.format.toList.filter (· ≠ ';')) values →
    ∀ s s', (p.finish values (storeAll p.targets values s)).2 =
      (p.finish values (storeAll p.targets values s')).2
  fresh : ∀ x, ∃ s, get s ≠ x

theorem storeAll_keeps {S V : Type} {get : S → V} {ts : List (Target S)}
    (h : ∀ t ∈ ts, ∀ v s, get (t.store v s) = get s) (vs : List ScanValue) (s : S) :
    get (storeAll ts vs s) = get s := by
  induction ts generalizing vs s with
  | nil => simp [storeAll]
  | cons t ts ih =>
    cases vs with
    | nil => simp [storeAll]
    | cons v vs =>
      rw [storeAll,ih (fun t' ht' => h t' (by simp [ht'])),h t (by simp)]

section parser
variable {S V : Type} {p : SentenceParser S} {c : Char} {get : S → V}

theorem parse_of_not_scans (hp : StoresFirst p c get) {sentence : List UInt8}
    (h : ¬ FirstFieldScans c sentence) (s : S) : p.parse s sentence = (s,false) := by
  obtain ⟨rest,hformat⟩ := hp.format
  obtain ⟨t,ts,htargets⟩ := hp.targets
  rcases scanLoop_of_firstFieldScans hp.conversion rest sentence with ⟨hscan,-⟩ | ⟨-,vs,hvs,heq⟩
  · exact absurd hscan h
  · have hstore : storeAll p.targets vs s = s := by
      rw [htargets]
      match vs, hvs with
      | [], _ => rfl
      | [v], _ => cases v <;> simp [storeAll,Target.store]
    simp [SentenceParser.parse,minmeaScan,hformat,heq,hstore]

/-- With one, a rejected sentence leaves its value behind, whatever was there before. -/
theorem parse_of_scans (hp : StoresFirst p c get) {sentence : List UInt8}
    (h : FirstFieldScans c sentence) :
    ∃ x, ∀ s, (p.parse s sentence).2 = false → get (p.parse s sentence).1 = x := by
  obtain ⟨rest,hformat⟩ := hp.format
  obtain ⟨t,ts,htargets⟩ := hp.targets
  rcases scanLoop_of_firstFieldScans hp.conversion rest sentence with
    ⟨-,w,field,v,vs,hv,heq⟩ | ⟨hnot,-⟩
  · obtain ⟨x,hx⟩ := hp.first v (scanField_kind hv)
    have hstore : ∀ s, get (storeAll p.targets (w::v::vs) s) = x := by
      intro s
      have hlater := hp.later
      rw [htargets] at hlater hx ⊢
      have hkeeps : ∀ t' ∈ ts, ∀ v s, get (t'.store v s) = get s := by simpa using! hlater
      rw [storeAll,storeAll,storeAll_keeps hkeeps]
      exact hx t (by simp) _
    refine ⟨x,fun s hrej => ?_⟩
    simp only [SentenceParser.parse,minmeaScan,hformat,heq] at hrej ⊢
    split_ifs at hrej ⊢ with hcomplete
    · rw [hp.rejects _ _ hrej]
      exact hstore s
    · exact hstore s
  · exact absurd h hnot

theorem parse_verdict (hp : StoresFirst p c get) (sentence : List UInt8) (s s' : S) :
    (p.parse s sentence).2 = (p.parse s' sentence).2 := by
  unfold SentenceParser.parse
  by_cases hcomplete : (minmeaScan sentence p.format).2 = true
  · simp only [hcomplete,not_true_eq_false,if_false]
    exact hp.verdict _ (scanLoop_kinds hcomplete) s s'
  · simp [hcomplete]

/-- Exactly the rejected sentences without a first data field change nothing for every
earlier content of the frame. -/
theorem parse_keeps_iff (hp : StoresFirst p c get) (sentence : List UInt8) (s₀ : S) :
    (∀ s, (p.parse s sentence).2 = false → (p.parse s sentence).1 = s) ↔
      ((p.parse s₀ sentence).2 = false → ¬ FirstFieldScans c sentence) := by
  constructor
  · intro hkeep hrej hscan
    obtain ⟨x,hx⟩ := parse_of_scans hp hscan
    obtain ⟨s,hs⟩ := hp.fresh x
    have hrej' : (p.parse s sentence).2 = false := (parse_verdict hp sentence s s₀).trans hrej
    exact hs (by rw [← hx s hrej',hkeep s hrej'])
  · intro h s hrej
    rw [parse_of_not_scans hp (h ((parse_verdict hp sentence s₀ s).trans hrej)) s]

end parser

/-! ### The eight parsers -/

instance : Nontrivial MinmeaTime := ⟨⟨0,0,0,0⟩,⟨1,0,0,0⟩,by decide⟩
instance : Nontrivial MinmeaFloat := ⟨⟨0,0⟩,⟨1,0⟩,by decide⟩
instance uint8Nontrivial : Nontrivial UInt8 := ⟨0,1,by decide⟩

theorem rmcParser_storesFirst : StoresFirst rmcParser 'T' Rmc.time where
  conversion := by decide
  format := ⟨_,rfl⟩
  first := by
    rintro (_ | _ | _ | _ | _ | _ | _ | t | _) hv
    all_goals first | exact absurd hv id | exact ⟨t,by simp [rmcParser,Target.store]⟩
  targets := ⟨_,_,rfl⟩
  later := by
    simp only [rmcParser,List.drop_succ_cons,List.drop_zero,List.forall_mem_cons]
    refine ⟨?_,?_,?_,?_,?_,?_,?_,?_,?_,?_,by simp⟩ <;> (intro v s; cases v <;> rfl)
  rejects := by
    intro values s
    simp only [rmcParser]
    split_ifs <;> simp
  verdict := by
    intro values _ s s'
    simp only [rmcParser]
    split_ifs <;> rfl
  fresh x := by
    obtain ⟨y,hy⟩ := exists_ne x
    exact ⟨{ (default : Rmc) with time := y },hy⟩

theorem ggaParser_storesFirst : StoresFirst ggaParser 'T' Gga.time where
  conversion := by decide
  format := ⟨_,rfl⟩
  first := by
    rintro (_ | _ | _ | _ | _ | _ | _ | t | _) hv
    all_goals first | exact absurd hv id | exact ⟨t,by simp [ggaParser,Target.store]⟩
  targets := ⟨_,_,rfl⟩
  later := by
    simp only [ggaParser,List.drop_succ_cons,List.drop_zero,List.forall_mem_cons]
    refine ⟨?_,?_,?_,?_,?_,?_,?_,?_,?_,?_,?_,?_,by simp⟩ <;> (intro v s; cases v <;> rfl)
  rejects := by
    intro values s
    simp only [ggaParser]
    split_ifs <;> simp
  verdict := by
    intro values _ s s'
    simp only [ggaParser]
    split_ifs <;> rfl
  fresh x := by
    obtain ⟨y,hy⟩ := exists_ne x
    exact ⟨{ (default : Gga) with time := y },hy⟩

theorem gsaParser_storesFirst : StoresFirst gsaParser 'c' Gsa.mode where
  conversion := by decide
  format := ⟨_,rfl⟩
  first := by
    rintro (c | _ | _ | _ | _ | _ | _ | _ | _) hv
    all_goals first | exact absurd hv id | exact ⟨c,by simp [gsaParser,Target.store]⟩
  targets := ⟨_,_,rfl⟩
  later := by
    simp only [gsaParser,List.cons_append,List.nil_append,List.drop_succ_cons,List.drop_zero,
      List.forall_mem_cons,List.forall_mem_append,List.forall_mem_map]
    refine ⟨?_,fun n _ => ?_,?_,?_,?_,by simp⟩ <;> (intro v s; cases v <;> rfl)
  rejects _ _ _ := rfl
  verdict _ _ _ _ := rfl
  fresh x := by
    obtain ⟨y,hy⟩ := exists_ne x
    exact ⟨{ (default : Gsa) with mode := y },hy⟩

theorem gllParser_storesFirst : StoresFirst gllParser 'f' Gll.latitude where
  conversion := by decide
  format := ⟨_,rfl⟩
  first := by
    rintro (_ | _ | f | _ | _ | _ | _ | _ | _) hv
    all_goals first | exact absurd hv id | exact ⟨f,by simp [gllParser,Target.store]⟩
  targets := ⟨_,_,rfl⟩
  later := by
    simp only [gllParser,List.drop_succ_cons,List.drop_zero,List.forall_mem_cons]
    refine ⟨?_,?_,?_,?_,?_,?_,by simp⟩ <;> (intro v s; cases v <;> rfl)
  rejects := by
    intro values s
    simp only [gllParser]
    split_ifs <;> simp
  verdict := by
    intro values _ s s'
    simp only [gllParser]
    split_ifs <;> rfl
  fresh x := by
    obtain ⟨y,hy⟩ := exists_ne x
    exact ⟨{ (default : Gll) with latitude := y },hy⟩

theorem gstParser_storesFirst : StoresFirst gstParser 'T' Gst.time where
  conversion := by decide
  format := ⟨_,rfl⟩
  first := by
    rintro (_ | _ | _ | _ | _ | _ | _ | t | _) hv
    all_goals first | exact absurd hv id | exact ⟨t,by simp [gstParser,Target.store]⟩
  targets := ⟨_,_,rfl⟩
  later := by
    simp only [gstParser,List.drop_succ_cons,List.drop_zero,List.forall_mem_cons]
    refine ⟨?_,?_,?_,?_,?_,?_,?_,by simp⟩ <;> (intro v s; cases v <;> rfl)
  rejects _ _ _ := rfl
  verdict _ _ _ _ := rfl
  fresh x := by
    obtain ⟨y,hy⟩ := exists_ne x
    exact ⟨{ (default : Gst) with time := y },hy⟩

theorem gsvParser_storesFirst : StoresFirst gsvParser 'i' Gsv.totalMsgs where
  conversion := by decide
  format := ⟨_,rfl⟩
  first := by
    rintro (_ | _ | _ | i | _ | _ | _ | _ | _) hv
    all_goals first | exact absurd hv id | exact ⟨i,by simp [gsvParser,Target.store]⟩
  targets := ⟨_,_,rfl⟩
  later := by
    simp only [gsvParser,List.cons_append,List.nil_append,List.drop_succ_cons,List.drop_zero,
      List.forall_mem_cons,List.mem_flatMap]
    refine ⟨?_,?_,?_⟩
    · intro v s
      cases v <;> rfl
    · intro v s
      cases v <;> rfl
    · rintro t ⟨n,-,ht⟩ v s
      simp only [List.mem_cons,List.not_mem_nil,or_false] at ht
      rcases ht with rfl | rfl | rfl | rfl <;> (cases v <;> rfl)
  rejects _ _ _ := rfl
  verdict _ _ _ _ := rfl
  fresh x := by
    obtain ⟨y,hy⟩ := exists_ne x
    exact ⟨{ (default : Gsv) with totalMsgs := y },hy⟩

theorem vtgParser_storesFirst : StoresFirst vtgParser 'f' Vtg.trueTrackDegrees where
  conversion := by decide
  format := ⟨_,rfl⟩
  first := by
    rintro (_ | _ | f | _ | _ | _ | _ | _ | _) hv
    all_goals first | exact absurd hv id | exact ⟨f,by simp [vtgParser,Target.store]⟩
  targets := ⟨_,_,rfl⟩
  later := by
    simp only [vtgParser,List.drop_succ_cons,List.drop_zero,List.forall_mem_cons]
    refine ⟨?_,?_,?_,?_,?_,?_,?_,?_,by simp⟩ <;> (intro v s; cases v <;> rfl)
  rejects := by
    intro values s
    simp only [vtgParser]
    split_ifs <;> simp
  verdict := by
    intro values _ s s'
    simp only [vtgParser]
    split_ifs <;> rfl
  fresh x := by
    obtain ⟨y,hy⟩ := exists_ne x
    exact ⟨{ (default : Vtg) with trueTrackDegrees := y },hy⟩

theorem zdaParser_storesFirst : StoresFirst zdaParser 'T' Zda.time where
  conversion := by decide
  format := ⟨_,rfl⟩
  first := by
    rintro (_ | _ | _ | _ | _ | _ | _ | t | _) hv
    all_goals first | exact absurd hv id | exact ⟨t,by simp [zdaParser,Target.store]⟩
  targets := ⟨_,_,rfl⟩
  later := by
    simp only [zdaParser,List.drop_succ_cons,List.drop_zero,List.forall_mem_cons]
    refine ⟨?_,?_,?_,?_,?_,by simp⟩ <;> (intro v s; cases v <;> rfl)
  rejects := by
    intro values s
    simp only [zdaParser]
    split_ifs <;> simp
  verdict := by
    -- the offsets that are checked have been stored by the scan
    intro values hkinds s s'
    have hformat : zdaParser.format.toList.filter (· ≠ ';') = ['t','T','i','i','i','i','i'] := by
      decide
    rw [hformat] at hkinds
    simp only [List.forall₂_cons_left_iff,List.forall₂_nil_left_iff] at hkinds
    obtain ⟨v₀,_,-,⟨v₁,_,-,⟨v₂,_,-,⟨v₃,_,-,⟨v₄,_,-,⟨v₅,_,h₅,⟨v₆,_,h₆,rfl,rfl⟩,rfl⟩,rfl⟩,rfl⟩,rfl⟩,
      rfl⟩,rfl⟩ := hkinds
    cases v₅ <;> try exact absurd h₅ id
    cases v₆ <;> try exact absurd h₆ id
    simp only [zdaParser,storeAll,Target.store]
    split_ifs <;> rfl
  fresh x := by
    obtain ⟨y,hy⟩ := exists_ne x
    exact ⟨{ (default : Zda) with time := y },hy⟩

/-! ### `ParseOneNmea` -/

def verdict (st : ParseState) (nmea : List UInt8) (flag : ℕ) : Option Bool :=
  (parseSelected (restartCounts st flag) nmea).2

/-- The conversion of the first data field in the format of each parser. -/
def firstConversion : SentenceId → Char
  | .gsa => 'c'
  | .gll => 'f'
  | .gsv => 'i'
  | .vtg => 'f'
  | _ => 'T'

/-- The same parser and the same slots with another content of `g_gps_info`. -/
def withInfo (st : ParseState) (info : GpsInfo) : ParseState := { st with info := info }

/-- One slot of `g_gps_info` whose parser stores its first data field first. -/
theorem slot_keeps_iff {S V : Type} {p : SentenceParser S} {c : Char} {get : S → V}
    (hp : StoresFirst p c get) (slot : GpsInfo → S) (set : S → GpsInfo → GpsInfo)
    (hself : ∀ info, set (slot info) info = info) (hset : ∀ s info, slot (set s info) = s)
    (line : List UInt8) (info₀ : GpsInfo) :
    (∀ info, some (p.parse (slot info) line).2 = some false →
        set (p.parse (slot info) line).1 info = info) ↔
      (some (p.parse (slot info₀) line).2 = some false → ¬ FirstFieldScans c line) := by
  simp only [Option.some.injEq]
  rw [← parse_keeps_iff hp line (slot info₀)]
  constructor
  · intro h s hrej
    have hinfo := h (set s info₀)
    rw [hset] at hinfo
    calc (p.parse s line).1
        = slot (set (p.parse s line).1 (set s info₀)) := (hset _ _).symm
      _ = slot (set s info₀) := by rw [hinfo hrej]
      _ = s := hset _ _
  · intro h info hrej
    rw [h (slot info) hrej,hself]

theorem parseOneNmea_keeps_iff (st : ParseState) (nmea : List UInt8) (flag : ℕ) :
    (∀ info, verdict (withInfo st info) nmea flag = some false →
        (parseOneNmea (withInfo st info) nmea flag).1.info = info) ↔
      (verdict st nmea flag = some false →
        ¬ FirstFieldScans (firstConversion (minmeaSentenceId nmea false)) nmea) := by
  have hinfo : ∀ info, restartCounts (withInfo st info) flag =
      withInfo (restartCounts st flag) info := by
    intro info
    unfold restartCounts withInfo
    split_ifs <;> rfl
  simp only [verdict,parseOneNmea,hinfo]
  generalize restartCounts st flag = st'
  cases hid : minmeaSentenceId nmea false with
  | invalid | unknown => simp [parseSelected,hid]
  | rmc =>
    simp only [parseSelected,hid,firstConversion]
    exact slot_keeps_iff rmcParser_storesFirst GpsInfo.rmc (fun s info => { info with rmc := s })
      (fun _ => rfl) (fun _ _ => rfl) nmea st'.info
  | gga =>
    simp only [parseSelected,hid,firstConversion]
    exact slot_keeps_iff ggaParser_storesFirst GpsInfo.gga (fun s info => { info with gga := s })
      (fun _ => rfl) (fun _ _ => rfl) nmea st'.info
  | gsa =>
    by_cases hslot : st'.gsaCount < 2
    · simp only [parseSelected,hid,firstConversion,withInfo,hslot,↓reduceDIte]
      exact slot_keeps_iff gsaParser_storesFirst (fun info => info.gsa ⟨st'.gsaCount,hslot⟩)
        (fun s info => { info with gsa := Function.update info.gsa ⟨st'.gsaCount,hslot⟩ s })
        (fun _ => by simp) (fun _ _ => by simp) nmea st'.info
    · simp [parseSelected,hid,withInfo,hslot]
  | gll =>
    simp only [parseSelected,hid,firstConversion]
    exact slot_keeps_iff gllParser_storesFirst GpsInfo.gll (fun s info => { info with gll := s })
      (fun _ => rfl) (fun _ _ => rfl) nmea st'.info
  | gst =>
    simp only [parseSelected,hid,firstConversion]
    exact slot_keeps_iff gstParser_storesFirst GpsInfo.gst (fun s info => { info with gst := s })
      (fun _ => rfl) (fun _ _ => rfl) nmea st'.info
  | gsv =>
    by_cases hslot : st'.gsvCount < 20
    · simp only [parseSelected,hid,firstConversion,withInfo,hslot,↓reduceDIte]
      exact slot_keeps_iff gsvParser_storesFirst (fun info => info.gsv ⟨st'.gsvCount,hslot⟩)
        (fun s info => { info with gsv := Function.update info.gsv ⟨st'.gsvCount,hslot⟩ s })
        (fun _ => by simp) (fun _ _ => by simp) nmea st'.info
    · simp [parseSelected,hid,withInfo,hslot]
  | vtg =>
    simp only [parseSelected,hid,firstConversion]
    exact slot_keeps_iff vtgParser_storesFirst GpsInfo.vtg (fun s info => { info with vtg := s })
      (fun _ => rfl) (fun _ _ => rfl) nmea st'.info
  | zda =>
    simp only [parseSelected,hid,firstConversion]
    exact slot_keeps_iff zdaParser_storesFirst GpsInfo.zda (fun s info => { info with zda := s })
      (fun _ => rfl) (fun _ _ => rfl) nmea st'.info

/-! ### Runs -/

def parseStep (st : ParseState) (e : List UInt8 × ℕ) : ParseState := (parseOneNmea st e.1 e.2).1

/-- What an accepted RMC sentence leaves in the frame, whatever was there before. -/
def Reports (sentence : List UInt8) (frame : Rmc) : Prop :=
  ∀ before, minmeaParseRmc before sentence = (frame,true)

theorem rmc_values {values : List ScanValue}
    (h : List.Forall₂ HasKind (rmcParser.format.toList.filter (· ≠ ';')) values) :
    ∃ type time validity latitude latitudeDir longitude longitudeDir speed course date variation
      variationDir, values = [.type type,.time time,.char validity,.float latitude,
        .direction latitudeDir,.float longitude,.direction longitudeDir,.float speed,
        .float course,.date date,.float variation,.direction variationDir] := by
  have hformat : rmcParser.format.toList.filter (· ≠ ';') =
      ['t','T','c','f','d','f','d','f','f','D','f','d'] := by decide
  rw [hformat] at h
  simp only [List.forall₂_cons_left_iff,List.forall₂_nil_left_iff] at h
  obtain ⟨v₀,_,h₀,⟨v₁,_,h₁,⟨v₂,_,h₂,⟨v₃,_,h₃,⟨v₄,_,h₄,⟨v₅,_,h₅,⟨v₆,_,h₆,⟨v₇,_,h₇,⟨v₈,_,h₈,⟨v₉,_,h₉,
    ⟨v₁₀,_,h₁₀,⟨v₁₁,_,h₁₁,rfl,rfl⟩,rfl⟩,rfl⟩,rfl⟩,rfl⟩,rfl⟩,rfl⟩,rfl⟩,rfl⟩,rfl⟩,rfl⟩,rfl⟩ := h
  cases v₀ <;> try exact absurd h₀ id
  cases v₁ <;> try exact absurd h₁ id
  cases v₂ <;> try exact absurd h₂ id
  cases v₃ <;> try exact absurd h₃ id
  cases v₄ <;> try exact absurd h₄ id
  cases v₅ <;> try exact absurd h₅ id
  cases v₆ <;> try exact absurd h₆ id
  cases v₇ <;> try exact absurd h₇ id
  cases v₈ <;> try exact absurd h₈ id
  cases v₉ <;> try exact absurd h₉ id
  cases v₁₀ <;> try exact absurd h₁₀ id
  cases v₁₁ <;> try exact absurd h₁₁ id
  exact ⟨_,_,_,_,_,_,_,_,_,_,_,_,rfl⟩

theorem rmc_accepted {before : Rmc} {sentence : List UInt8}
    (h : (minmeaParseRmc before sentence).2 = true) :
    Reports sentence (minmeaParseRmc before sentence).1 := by
  intro before'
  simp only [minmeaParseRmc,SentenceParser.parse] at h ⊢
  split_ifs at h ⊢ with hcomplete
  obtain ⟨type,time,validity,latitude,latitudeDir,longitude,longitudeDir,speed,course,date,
    variation,variationDir,hvalues⟩ := rmc_values (scanLoop_kinds hcomplete)
  rw [minmeaScan,hvalues] at h ⊢
  simp only [rmcParser,storeAll,Target.store] at h ⊢
  split_ifs at h ⊢
  rfl

/-- The frame is initial, or one accepted RMC sentence of the run accounts for all of it. -/
def FromOneSentence (es : List (List UInt8 × ℕ)) (frame : Rmc) : Prop :=
  frame = zeroInfo.rmc ∨ ∃ e ∈ es, minmeaSentenceId e.1 false = .rmc ∧ Reports e.1 frame

/-- A sentence that is rejected must not have a first data field. -/
def KeepsInfo (st : ParseState) (e : List UInt8 × ℕ) : Prop :=
  verdict st e.1 e.2 = some false →
    ¬ FirstFieldScans (firstConversion (minmeaSentenceId e.1 false)) e.1

/-- One sentence leaves the RMC frame alone or, accepted, accounts for all of it. -/
theorem parseStep_rmc {st : ParseState} {e : List UInt8 × ℕ} (h : KeepsInfo st e) :
    (parseStep st e).info.rmc = st.info.rmc ∨
      (minmeaSentenceId e.1 false = .rmc ∧ Reports e.1 (parseStep st e).info.rmc) := by
  by_cases hrej : verdict st e.1 e.2 = some false
  · have hkeep := (parseOneNmea_keeps_iff st e.1 e.2).2 h st.info hrej
    exact Or.inl (congrArg GpsInfo.rmc hkeep)
  · have hinfo : (restartCounts st e.2).info = st.info := by
      unfold restartCounts
      split_ifs <;> rfl
    simp only [parseStep,parseOneNmea]
    cases hid : minmeaSentenceId e.1 false with
    | rmc =>
      right
      have hacc : (minmeaParseRmc (restartCounts st e.2).info.rmc e.1).2 = true := by
        simpa [verdict,parseSelected,hid] using hrej
      simpa [parseSelected,hid] using rmc_accepted hacc
    | gsa | gsv =>
      left
      simp only [parseSelected,hid]
      split_ifs <;> simp [hinfo]
    | _ =>
      left
      simp [parseSelected,hid,hinfo]

/-- A rejected sentence changes nothing, for every earlier content of `g_gps_info`, exactly
when it has no first data field that scans; and in a run without other rejected sentences
the RMC frame is always initial or the work of one accepted RMC sentence. -/
theorem rejected_sentence_keeps_info (st : ParseState) (nmea : List UInt8) (flag : ℕ)
    (es : List (List UInt8 × ℕ)) :
    ((∀ info, verdict (withInfo st info) nmea flag = some false →
          (parseOneNmea (withInfo st info) nmea flag).1.info = info) ↔
        (verdict st nmea flag = some false →
          ¬ FirstFieldScans (firstConversion (minmeaSentenceId nmea false)) nmea)) ∧
    (EverySteps KeepsInfo parseStep parseInit es →
      FromOneSentence es (run parseStep parseInit es).info.rmc) := by
  refine ⟨parseOneNmea_keeps_iff st nmea flag,fun hes => ?_⟩
  refine run_invariant (fun st => FromOneSentence es st.info.rmc) ?_ (Or.inl rfl)
    (hes.imp_of_mem (Q := fun st e => KeepsInfo st e ∧ e ∈ es) fun _ e he hk => ⟨hk,he⟩)
  rintro st e hst ⟨hk,he⟩
  rcases parseStep_rmc hk with hsame | ⟨hid,hrep⟩
  · rwa [hsame]
  · exact Or.inr ⟨e,he,hid,hrep⟩

/-- A sentence cut after the time is rejected and leaves its time behind. -/
theorem cut_sentence_stores_time :
    ¬ ∀ (st : ParseState) (nmea : List UInt8) (flag : ℕ), verdict st nmea flag = some false →
      (parseOneNmea st nmea flag).1.info = st.info := by
  intro h
  have hinfo := congrArg (fun info => info.rmc.time.hours)
    (h parseInit (lit "$GPRMC,081836\r\n") 0 (by decide))
  exact absurd hinfo (by decide)

end RejectedSentences
end A9GTracker
