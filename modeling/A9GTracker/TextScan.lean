import Mathlib.Data.List.Basic
import Mathlib.Data.List.GetD
import Mathlib.Tactic.Common
import A9GTracker.GpsParse
import A9GTracker.Loop

/-! `GPS_Parse` on memory: each round ends a sentence with a NUL for `ParseOneNmea` and puts the
byte back. -/
namespace A9GTracker
namespace TextScan

open CString GpsParse Search

/-- The memory, the cursor in it and what `ParseOneNmea` leaves; the texts passed to it, each
with its address, are kept for the record. -/
structure ScanState where
  mem : List UInt8
  nmeas : ℕ
  parse : ParseState
  retFlag : Bool
  passed : List (ℕ × List UInt8)

def gpsParseBody (s : ScanState) : Loop.Step ScanState ScanState :=
  match strstr (cstring (s.mem.drop s.nmeas)) (lit "$") with
  | none => .done s
  | some offset =>
    let index1 := s.nmeas+offset
    match strstr (cstring (s.mem.drop index1)) (lit "\r\n") with
    | none => .done s
    | some length =>
      let index2 := index1+length
      let tmpStore := s.mem.getD (index2+2) 0
      let mem := s.mem.set (index2+2) 0
      let nmea := cstring (mem.drop index1)
      let r := parseOneNmea s.parse nmea s.parse.flag
      .next {
        mem := mem.set (index2+2) tmpStore
        nmeas := s.nmeas+(index2-index1+2)
        parse := r.1
        retFlag := r.2
        passed := s.passed++[(index1,nmea)] }

def scanStart (st : ParseState) (mem : List UInt8) : ScanState := ⟨mem,0,st,false,[]⟩

def gpsParseMem (fuel : ℕ) (st : ParseState) (mem : List UInt8) : Option ScanState :=
  (Loop.run gpsParseBody fuel (scanStart st mem)).map fun s =>
    { s with parse := { s.parse with flag := (s.parse.flag+1) % 256 } }

/-! ### One round -/

/-- A text passed on lies in the string, from a `$` through a line end. -/
structure PassedFrom (text : List UInt8) (p : ℕ × List UInt8) : Prop where
  inside : p.1+p.2.length ≤ text.length
  part : p.2 = (text.drop p.1).take p.2.length
  dollar : p.2.head? = some 36
  crlf : lit "\r\n" <:+ p.2

variable {text rest : List UInt8}

theorem cstring_drop (h0 : (0 : UInt8) ∉ text) {n : ℕ} (hn : n ≤ text.length) :
    cstring ((text++0::rest).drop n) = text.drop n := by
  rw [List.drop_append_of_le_length hn,
    cstring_append fun h => h0 (List.mem_of_mem_drop h)]
  simp [cstring]

theorem cstring_patched (h0 : (0 : UInt8) ∉ text) {start stop : ℕ} (hstart : start ≤ stop)
    (hstop : stop ≤ text.length) :
    cstring (((text++0::rest).set stop 0).drop start) = (text.drop start).take (stop-start) := by
  have hset : (text++0::rest).set stop 0 = text.take stop++0::(text++0::rest).drop (stop+1) := by
    rw [List.set_eq_take_append_cons_drop,
      if_pos (by rw [List.length_append,List.length_cons]; omega),
      List.take_append_of_le_length hstop]
  have hclean : (0 : UInt8) ∉ (text.take stop).drop start := fun h =>
    h0 (List.mem_of_mem_take (List.mem_of_mem_drop h))
  rw [hset,List.drop_append_of_le_length (by rw [List.length_take]; omega),
    cstring_append hclean,List.drop_take]
  simp [cstring]

/-- What one round does: it ends the loop, or it moves the cursor on inside the string, with the
memory as it was, and passes one text on. -/
theorem gpsParseBody_cases (h0 : (0 : UInt8) ∉ text) {s : ScanState}
    (hmem : s.mem = text++0::rest) (hcursor : s.nmeas ≤ text.length) :
    (gpsParseBody s = .done s ∧
      ∀ n, gpsParseLoop n s.parse (text.drop s.nmeas) s.retFlag = (s.parse,s.retFlag)) ∨
    ∃ s', gpsParseBody s = .next s' ∧ s'.mem = s.mem ∧ s.nmeas+2 ≤ s'.nmeas ∧
      s'.nmeas ≤ text.length ∧ (∃ p, s'.passed = s.passed++[p] ∧ PassedFrom text p) ∧
      ∀ n, gpsParseLoop (n+1) s.parse (text.drop s.nmeas) s.retFlag =
        gpsParseLoop n s'.parse (text.drop s'.nmeas) s'.retFlag := by
  have hdollarText := @cstring_drop _ rest h0 _ hcursor
  cases hdollar : strstr (text.drop s.nmeas) (lit "$") with
  | none =>
    refine Or.inl ⟨?_,fun n => ?_⟩
    · simp only [gpsParseBody,hmem,hdollarText,hdollar]
    · cases n with
      | zero => rfl
      | succ n => simp only [gpsParseLoop,hdollar]
  | some offset =>
    obtain ⟨gap,tail,htail,hgap,-⟩ := find_singleton_eq_some hdollar
    have hindex1 : s.nmeas+offset < text.length := by
      have hlen := congrArg List.length htail
      rw [List.length_drop,List.length_append,List.length_cons] at hlen
      omega
    have hrest : text.drop (s.nmeas+offset) = 36::tail := by
      rw [← List.drop_drop,htail,← hgap,List.drop_left]
      rfl
    have hcrlfText := @cstring_drop _ rest h0 _ hindex1.le
    cases hcrlf : strstr (text.drop (s.nmeas+offset)) (lit "\r\n") with
    | none =>
      refine Or.inl ⟨?_,fun n => ?_⟩
      · simp only [gpsParseBody,hmem,hdollarText,hdollar,hcrlfText,hcrlf]
      · cases n with
        | zero => rfl
        | succ n => simp only [gpsParseLoop,hdollar,List.drop_drop,hcrlf]
    | some length =>
      obtain ⟨line,behind,hline,hlength⟩ := (find_spec hcrlf).1.eq_append (by decide)
      have hindex2 : s.nmeas+offset+(length+2) ≤ text.length := by
        have hlen := congrArg List.length hline
        rw [List.length_drop,List.length_append,List.length_append,hlength] at hlen
        have htwo : (lit "\r\n").length = 2 := rfl
        omega
      have hnmea : (text.drop (s.nmeas+offset)).take (length+2) = line++lit "\r\n" := by
        rw [hline]
        exact List.take_left' (by rw [List.length_append,hlength]; rfl)
      have hpatched := @cstring_patched _ rest h0 _ _
        (by omega : s.nmeas+offset ≤ s.nmeas+offset+length+2) hindex2
      have htake : s.nmeas+offset+length+2-(s.nmeas+offset) = length+2 := by omega
      rw [htake,hnmea] at hpatched
      have hrestored : ((text++0::rest).set (s.nmeas+offset+length+2) 0).set
          (s.nmeas+offset+length+2) ((text++0::rest).getD (s.nmeas+offset+length+2) 0) =
          text++0::rest := by
        rw [List.set_set,List.getD_eq_getElem _ _ (by rw [List.length_append,List.length_cons]; omega)]
        exact List.set_getElem_self _
      refine Or.inr ⟨_,by
        simp only [gpsParseBody,hmem,hdollarText,hdollar,hcrlfText,hcrlf]
        rfl,?_,?_,?_,⟨(s.nmeas+offset,line++lit "\r\n"),?_,?_⟩,fun n => ?_⟩
      · exact hrestored.trans hmem.symm
      · simp only
        omega
      · simp only
        omega
      · simp only [hpatched]
      · constructor
        · rw [List.length_append,hlength]
          exact hindex2
        · rw [List.length_append,hlength]
          exact hnmea.symm
        · rw [← hnmea,hrest]
          rfl
        · exact List.suffix_append _ _
      · have hadvance : s.nmeas+offset+length-(s.nmeas+offset)+2 = length+2 := by omega
        simp only [gpsParseLoop,hdollar,List.drop_drop,hcrlf,hnmea,hpatched,hadvance]

/-! ### The run -/

/-- What holds at the head of the loop. -/
structure Scanning (text rest : List UInt8) (s : ScanState) : Prop where
  mem : s.mem = text++0::rest
  cursor : s.nmeas ≤ text.length
  passed : ∀ p ∈ s.passed, PassedFrom text p

theorem Scanning.next (h0 : (0 : UInt8) ∉ text) {s s' : ScanState} (h : Scanning text rest s)
    (hstep : gpsParseBody s = .next s') : Scanning text rest s' := by
  rcases gpsParseBody_cases h0 h.mem h.cursor with
    ⟨hdone,-⟩ | ⟨t,hnext,hmem,-,hcursor,⟨p,hpassed,hp⟩,-⟩
  · rw [hdone] at hstep
    cases hstep
  · rw [hnext] at hstep
    cases hstep
    refine ⟨hmem.trans h.mem,hcursor,fun q hq => ?_⟩
    rw [hpassed,List.mem_append,List.mem_singleton] at hq
    rcases hq with hq | rfl
    · exact h.passed q hq
    · exact hp

theorem run_gpsParseBody (h0 : (0 : UInt8) ∉ text) (n : ℕ) {s : ScanState}
    (h : Scanning text rest s) (hn : text.length-s.nmeas ≤ n) :
    ∃ final, Loop.run gpsParseBody (n+1) s = some final ∧ Scanning text rest final ∧
      (final.parse,final.retFlag) = gpsParseLoop n s.parse (text.drop s.nmeas) s.retFlag := by
  induction n generalizing s with
  | zero =>
    rcases gpsParseBody_cases h0 h.mem h.cursor with ⟨hdone,hloop⟩ | ⟨t,-,-,hmoved,hcursor,-,-⟩
    · exact ⟨s,Loop.run_done hdone 0,h,(hloop 0).symm⟩
    · omega
  | succ n ih =>
    rcases gpsParseBody_cases h0 h.mem h.cursor with
      ⟨hdone,hloop⟩ | ⟨t,hnext,-,hmoved,hcursor,-,hloop⟩
    · exact ⟨s,Loop.run_done hdone (n+1),h,(hloop (n+1)).symm⟩
    · obtain ⟨final,hrun,hfinal,hparse⟩ := ih (h.next h0 hnext) (by omega)
      refine ⟨final,?_,hfinal,?_⟩
      · rw [Loop.run_next hnext]
        exact hrun
      · rw [hloop n,hparse]

/-- On a string that ends with a NUL the scan returns, with the memory as it was; its cursor
stays in the string, and so does every text it passes on. -/
theorem gpsParse_scan (h0 : (0 : UInt8) ∉ text) (rest : List UInt8) (st : ParseState) :
    (∃ final, gpsParseMem (text.length+1) st (text++0::rest) = some final ∧
      final.mem = text++0::rest ∧ (∀ p ∈ final.passed, PassedFrom text p) ∧
      (final.parse,final.retFlag) = gpsParse st text) ∧
    ∀ s, Loop.Visits gpsParseBody (scanStart st (text++0::rest)) s →
      s.nmeas ≤ text.length ∧ s.mem = text++0::rest := by
  have hstart : Scanning text rest (scanStart st (text++0::rest)) :=
    ⟨rfl,Nat.zero_le _,by simp [scanStart]⟩
  constructor
  · obtain ⟨final,hrun,hfinal,hparse⟩ := run_gpsParseBody h0 text.length hstart (Nat.sub_le _ _)
    refine ⟨{ final with parse := { final.parse with flag := (final.parse.flag+1) % 256 } },?_,
      hfinal.mem,hfinal.passed,?_⟩
    · rw [gpsParseMem,hrun]
      rfl
    simp only [scanStart,List.drop_zero] at hparse
    simp only [gpsParse,← hparse]
  · intro s hvisit
    have hs := hvisit.invariant (fun _ _ hs hnext => hs.next h0 hnext) hstart
    exact ⟨hs.cursor,hs.mem⟩

/-- A complete sentence in front of a cut one. -/
theorem gpsParse_scan_two :
    ∃ final, gpsParseMem 13 parseInit (lit "x$GP*1\r\n$GPR"++[0,7]) = some final ∧
      final.mem = lit "x$GP*1\r\n$GPR"++[0,7] := by
  obtain ⟨⟨final,hrun,hmem,-⟩,-⟩ :=
    gpsParse_scan (by decide : (0 : UInt8) ∉ lit "x$GP*1\r\n$GPR") [7] parseInit
  exact ⟨final,hrun,hmem⟩

end TextScan
end A9GTracker
