import Mathlib.Data.List.Basic
import Mathlib.Tactic.Common
import A9GTracker.SentenceSplitting

/-! Where the cursor of `GPS_Parse` stands, and which sentences behind other bytes it comes to.
Behind each sentence the cursor moves by the length of the sentence alone. -/
namespace A9GTracker
namespace ParseCursor

open CString GpsParse Search SentenceSplitting

/-! ### Places of the cursor -/

inductive Cursor (text : List UInt8) : ℕ → Prop
  | start : Cursor text 0
  | next {c gap length : ℕ} (h : Cursor text c)
      (hfirst : firstSentence (text.drop c) = some (gap,length)) : Cursor text (c+length)

/-- The bytes from `offset` on are passed to `ParseOneNmea` as a sentence. -/
structure PassedAt (text : List UInt8) (offset : ℕ) (sentence : List UInt8) : Prop where
  found : ∃ c gap, Cursor text c ∧ firstSentence (text.drop c) = some (gap,sentence.length) ∧
    c+gap = offset
  sentence_eq : sentence = (text.drop offset).take sentence.length

theorem firstSentence_le {text : List UInt8} {gap length : ℕ}
    (h : firstSentence text = some (gap,length)) : 2 ≤ length ∧ gap+length ≤ text.length := by
  obtain ⟨g,s,r,hs,rfl,rfl⟩ := firstSentence_eq_some h
  refine ⟨hs.two_le,?_⟩
  rw [hs.text_eq,List.length_append,List.length_append]
  omega

theorem mem_passed_of_cursor {text s : List UInt8} {c : ℕ} (hc : Cursor text c)
    (h : s ∈ passed (text.drop c)) : s ∈ passed text := by
  induction hc with
  | start => exact h
  | next _ hfirst ih =>
    refine ih ?_
    rw [passed_some hfirst,List.drop_drop,List.drop_drop]
    exact List.mem_cons_of_mem _ h

theorem PassedAt.mem {text s : List UInt8} {offset : ℕ} (h : PassedAt text offset s) :
    s ∈ passed text := by
  obtain ⟨c,gap,hc,hfirst,rfl⟩ := h.found
  refine mem_passed_of_cursor hc ?_
  rw [passed_some hfirst,List.drop_drop,← h.sentence_eq]
  exact List.mem_cons_self

theorem exists_passedAt_of_cursor {text s : List UInt8} {c : ℕ} (hc : Cursor text c)
    (h : s ∈ passed (text.drop c)) : ∃ offset, PassedAt text offset s := by
  induction hn : (text.drop c).length using Nat.strong_induction_on generalizing c with
  | _ n ih =>
    cases hfirst : firstSentence (text.drop c) with
    | none =>
      rw [passed_none hfirst] at h
      exact absurd h List.not_mem_nil
    | some p =>
      obtain ⟨htwo,hle⟩ := firstSentence_le hfirst
      rw [passed_some hfirst,List.drop_drop,List.drop_drop] at h
      rcases List.mem_cons.1 h with rfl | h
      · have hlength : ((text.drop (c+p.1)).take p.2).length = p.2 := by
          rw [List.length_drop] at hle
          rw [List.length_take,List.length_drop]
          omega
        refine ⟨c+p.1,⟨c,p.1,hc,?_,rfl⟩,?_⟩
        · rw [hlength]
          exact hfirst
        · rw [hlength]
      · refine ih _ ?_ (.next hc hfirst) h rfl
        rw [← hn,← List.drop_drop,List.length_drop]
        omega

theorem mem_passed_iff {text s : List UInt8} :
    s ∈ passed text ↔ ∃ offset, PassedAt text offset s :=
  ⟨fun h => exists_passedAt_of_cursor .start h,fun ⟨_,h⟩ => h.mem⟩

theorem PassedAt.add_length_le {text s : List UInt8} {offset : ℕ} (h : PassedAt text offset s) :
    offset+s.length ≤ text.length := by
  obtain ⟨c,gap,-,hfirst,rfl⟩ := h.found
  obtain ⟨htwo,hle⟩ := firstSentence_le hfirst
  rw [List.length_drop] at hle
  omega

/-! ### Sentences one behind the other -/

/-- A sentence with its line end; the next `$` and the next CR LF belong to the next one. -/
structure SentenceLine (s : List UInt8) : Prop where
  spelled : ∃ body, s = 36::(body++crlf) ∧ 36 ∉ body ∧ 13 ∉ body ∧ 0 ∉ body

theorem SentenceLine.head {s : List UInt8} (h : SentenceLine s) : s.head? = some 36 := by
  obtain ⟨body,rfl,-⟩ := h.spelled
  rfl

theorem SentenceLine.two_le {s : List UInt8} (h : SentenceLine s) : 2 ≤ s.length := by
  obtain ⟨body,rfl,-⟩ := h.spelled
  simp [lit]

theorem SentenceLine.no_nul {s : List UInt8} (h : SentenceLine s) : 0 ∉ s := by
  obtain ⟨body,rfl,-,-,hnul⟩ := h.spelled
  simp [lit,hnul]

theorem SentenceLine.not_mem_drop {s : List UInt8} (h : SentenceLine s) {n : ℕ} (hn : 0 < n) :
    36 ∉ s.drop n := by
  obtain ⟨body,rfl,hdollar,-⟩ := h.spelled
  obtain ⟨m,rfl⟩ := Nat.exists_eq_add_of_lt hn
  rw [Nat.zero_add,List.drop_succ_cons]
  intro hmem
  have hin := List.mem_of_mem_drop hmem
  rw [List.mem_append] at hin
  exact hin.elim hdollar (by decide)

theorem SentenceLine.firstSentence {s : List UInt8} (h : SentenceLine s) {u : List UInt8}
    (hu : 36 ∉ u) (r : List UInt8) : firstSentence (u++s++r) = some (u.length,s.length) := by
  obtain ⟨body,rfl,hdollar,hcr,-⟩ := h.spelled
  have hfirst : SentenceSplitting.firstSentence (36::(body++crlf)++r) =
      some (0,(36::(body++crlf)).length) := by
    have hd : find (lit "$") (36::(body++crlf)++r) = some 0 := rfl
    have hclean : ∀ i, ¬ Occurs crlf (36::body) i := by
      intro i ho
      have hat := ho.getElem? (j := 0) (by decide)
      have hmem : (13 : UInt8) ∈ 36::body := List.mem_of_getElem? (hat.trans rfl)
      rcases List.mem_cons.1 hmem with h36 | hmem
      · exact absurd h36 (by decide)
      · exact hcr hmem
    have hc : find crlf (36::(body++crlf)++r) = some (36::body).length := by
      rw [List.cons_append,List.append_assoc,← List.cons_append]
      exact find_append_of_begins (by decide) (by decide) hclean (List.prefix_append _ _)
    simp only [SentenceSplitting.firstSentence,hd,List.drop_zero,hc,Option.map_some]
    simp [lit]
  rw [List.append_assoc,firstSentence_append hu,hfirst]
  rfl

/-- A cursor in front of a sentence passes it on and comes behind its `$` before any other. -/
theorem Cursor.passes {w s r : List UInt8} (hs : SentenceLine s) {c : ℕ}
    (hc : Cursor (w++s++r) c) (hle : c ≤ w.length) (hclean : 36 ∉ w.drop c) :
    PassedAt (w++s++r) w.length s ∧
      ∃ c', Cursor (w++s++r) c' ∧ c' ≤ (w++s).length ∧ 36 ∉ (w++s).drop c' := by
  have hfirst : firstSentence ((w++s++r).drop c) = some (w.length-c,s.length) := by
    rw [List.append_assoc,List.drop_append_of_le_length hle,← List.append_assoc,
      hs.firstSentence hclean,List.length_drop]
  constructor
  · refine ⟨⟨c,w.length-c,hc,hfirst,by omega⟩,?_⟩
    rw [List.append_assoc,List.drop_left,List.take_left]
  · have hpos := hs.two_le
    have hnext := Cursor.next hc hfirst
    -- As long as the cursor stays in front of the sentence, it is passed again.
    induction hn : w.length-c using Nat.strong_induction_on generalizing c with
    | _ n ih =>
      by_cases hin : c+s.length ≤ w.length
      · have hclean' : 36 ∉ w.drop (c+s.length) := by
          rw [← List.drop_drop]
          exact fun h => hclean (List.mem_of_mem_drop h)
        have hfirst' : SentenceSplitting.firstSentence ((w++s++r).drop (c+s.length)) =
            some (w.length-(c+s.length),s.length) := by
          rw [List.append_assoc,List.drop_append_of_le_length hin,← List.append_assoc,
            hs.firstSentence hclean',List.length_drop]
        exact ih _ (by omega) hnext hin hclean' hfirst' (.next hnext hfirst') rfl
      · refine ⟨c+s.length,hnext,by rw [List.length_append]; omega,?_⟩
        rw [List.drop_append,List.drop_eq_nil_of_le (by omega),List.nil_append]
        exact hs.not_mem_drop (by omega)

/-- Once the first of several sentences is reached, every one is passed on in its place. -/
theorem Cursor.passes_all {ss : List (List UInt8)} (hss : ∀ s ∈ ss, SentenceLine s)
    {w : List UInt8} {c : ℕ} (hc : Cursor (w++ss.flatten) c) (hle : c ≤ w.length)
    (hclean : 36 ∉ w.drop c) {pre post : List (List UInt8)} {s : List UInt8}
    (heq : ss = pre++s::post) : PassedAt (w++ss.flatten) (w.length+pre.flatten.length) s := by
  induction pre generalizing ss w c with
  | nil =>
    subst heq
    rw [List.nil_append,List.flatten_cons,← List.append_assoc] at hc ⊢
    exact (hc.passes (hss s (by simp)) hle hclean).1
  | cons t pre ih =>
    subst heq
    rw [List.cons_append,List.flatten_cons,← List.append_assoc] at hc ⊢
    obtain ⟨c',hc',hle',hclean'⟩ := (hc.passes (hss t (by simp)) hle hclean).2
    have hall := ih (fun u hu => hss u (List.mem_cons_of_mem t hu)) hc' hle' hclean' rfl
    rwa [List.length_append,Nat.add_assoc,← List.length_append,← List.flatten_cons] at hall

/-! ### Which bytes in front let the cursor come to a sentence -/

/-- The cursor comes to a place from which the `$` of the sentence behind the bytes is the next
one. -/
def Reaches (w s : List UInt8) : Prop := ∃ c, Cursor (w++s) c ∧ c ≤ w.length ∧ 36 ∉ w.drop c

/-- Every `$` is followed by a line end. -/
def DollarsClosed (w : List UInt8) : Prop :=
  ∀ i, Occurs (lit "$") w i → ∃ j ≥ i, Occurs crlf w j

theorem firstSentence_extend {text : List UInt8} {p : ℕ × ℕ} (h : firstSentence text = some p)
    (r : List UInt8) : firstSentence (text++r) = some p := by
  simp only [firstSentence] at h ⊢
  cases hd : find (lit "$") text with
  | none => simp [hd] at h
  | some gap =>
    simp only [hd,Option.map_eq_some_iff] at h
    obtain ⟨k,hc,rfl⟩ := h
    have hgap : gap ≤ text.length := by
      have hle := (find_spec hd).1.add_length_le (by decide)
      omega
    rw [find_append_of_some (by decide) hd]
    simp only [List.drop_append_of_le_length hgap,find_append_of_some (by decide) hc,
      Option.map_some]

theorem SentenceLine.exists_firstSentence {s : List UInt8} (h : SentenceLine s)
    (u : List UInt8) : ∃ p, SentenceSplitting.firstSentence (u++s) = some p := by
  by_cases hu : 36 ∈ u
  · have hends : EndsLine (u++s) := by
      obtain ⟨body,rfl,-⟩ := h.spelled
      exact ⟨u++36::body,by simp⟩
    obtain ⟨g,l,hfirst,-,-⟩ :=
      firstSentence_of_mem (List.mem_append_left s hu) hends []
    rw [List.append_nil] at hfirst
    exact ⟨_,hfirst⟩
  · have hfirst := h.firstSentence hu []
    rw [List.append_nil] at hfirst
    exact ⟨_,hfirst⟩

theorem Cursor.append {w s : List UInt8} {c : ℕ} (h : Cursor (w++s) c) (r : List UInt8)
    (hle : c ≤ (w++s).length) : Cursor (w++s++r) c := by
  induction h with
  | start => exact .start
  | @next c gap length h hfirst ih =>
    refine @Cursor.next _ c gap _ (ih (by omega)) ?_
    rw [List.drop_append_of_le_length (by omega)]
    exact firstSentence_extend hfirst r

theorem Cursor.of_append {w s r : List UInt8} (hs : SentenceLine s) {c : ℕ}
    (h : Cursor (w++s++r) c) (hle : c ≤ w.length) : Cursor (w++s) c := by
  induction h with
  | start => exact .start
  | @next c gap length h hfirst ih =>
    obtain ⟨p,hp⟩ := hs.exists_firstSentence (w.drop c)
    have hwhole := firstSentence_extend hp r
    rw [← List.drop_append_of_le_length (by omega : c ≤ w.length),
      ← List.drop_append_of_le_length (by rw [List.length_append]; omega),hfirst] at hwhole
    obtain rfl := Option.some.inj hwhole
    refine @Cursor.next _ c gap _ (ih (by omega)) ?_
    rw [List.drop_append_of_le_length (by omega)]
    exact hp

/-- The sentence behind the bytes is passed on in its place just when the cursor reaches it. -/
theorem passedAt_iff_reaches {w s : List UInt8} (hs : SentenceLine s) (r : List UInt8) :
    PassedAt (w++s++r) w.length s ↔ Reaches w s := by
  constructor
  · intro h
    obtain ⟨c,gap,hc,hfirst,hoffset⟩ := h.found
    refine ⟨c,hc.of_append hs (by omega),by omega,fun hmem => ?_⟩
    obtain ⟨a,b,hab,ha⟩ := List.eq_append_cons_of_mem hmem
    -- A `$` in front of the sentence would be found first.
    have hd : find (lit "$") ((w++s++r).drop c) = some a.length := by
      rw [List.append_assoc,List.drop_append_of_le_length (by omega),hab,List.append_assoc,
        List.cons_append]
      exact find_singleton_append ha _
    have hlength := congrArg List.length hab
    rw [List.length_drop,List.length_append,List.length_cons] at hlength
    simp only [SentenceSplitting.firstSentence,hd,Option.map_eq_some_iff,Prod.mk.injEq] at hfirst
    obtain ⟨k,-,hgap,-⟩ := hfirst
    omega
  · rintro ⟨c,hc,hle,hclean⟩
    exact ((hc.append r (by rw [List.length_append]; omega)).passes hs hle hclean).1

theorem Reaches.passes_all {ss : List (List UInt8)} {s₁ w : List UInt8} (h : Reaches w s₁)
    (hss : ∀ s ∈ s₁::ss, SentenceLine s) {pre post : List (List UInt8)} {s : List UInt8}
    (heq : s₁::ss = pre++s::post) :
    PassedAt (w++(s₁::ss).flatten) (w.length+pre.flatten.length) s := by
  obtain ⟨c,hc,hle,hclean⟩ := h
  refine Cursor.passes_all hss ?_ hle hclean heq
  rw [List.flatten_cons,← List.append_assoc]
  exact hc.append _ (by rw [List.length_append]; omega)

/-- Bytes whose sentences are complete do not keep the cursor from the next one. -/
theorem reaches_of_closed {w : List UInt8} (h : DollarsClosed w) (s : List UInt8) :
    Reaches w s := by
  have hfrom : ∀ c, Cursor (w++s) c → c ≤ w.length → Reaches w s := by
    intro c hc hle
    induction hn : w.length-c using Nat.strong_induction_on generalizing c with
    | _ n ih =>
      by_cases hmem : 36 ∈ w.drop c
      · obtain ⟨a,b,hab,ha⟩ := List.eq_append_cons_of_mem hmem
        have hd : find (lit "$") (w.drop c) = some a.length := by
          rw [hab]
          exact find_singleton_append ha b
        obtain ⟨j,hj,hcrlf⟩ := h (c+a.length) (occurs_drop.1 (find_spec hd).1)
        obtain ⟨k,hk⟩ : ∃ k, find crlf ((w.drop c).drop a.length) = some k := by
          cases hf : find crlf ((w.drop c).drop a.length) with
          | some k => exact ⟨k,rfl⟩
          | none =>
            refine absurd (occurs_drop.2 ?_) (find_none hf (j-(c+a.length)))
            refine occurs_drop.2 ?_
            rwa [show c+(a.length+(j-(c+a.length))) = j by omega]
        have hfirst : firstSentence (w.drop c) = some (a.length,k+2) := by
          simp only [firstSentence,hd,hk,Option.map_some]
        obtain ⟨-,hlength⟩ := firstSentence_le hfirst
        rw [List.length_drop] at hlength
        have hnext : Cursor (w++s) (c+(k+2)) := by
          refine @Cursor.next _ c a.length _ hc ?_
          rw [List.drop_append_of_le_length hle]
          exact firstSentence_extend hfirst s
        exact ih _ (by omega) _ hnext (by omega) rfl
      · exact ⟨c,hc,hle,hmem⟩
  exact hfrom 0 .start (Nat.zero_le _)

example : ¬ Reaches (lit "$GPRMC,0818") (lit "$GNVTG,,T\r\n") := by
  have hs : SentenceLine (lit "$GNVTG,,T\r\n") := ⟨lit "GNVTG,,T",by decide⟩
  intro h
  have hpassed := ((passedAt_iff_reaches hs []).2 h).mem
  exact absurd hpassed (by decide)

end ParseCursor
end A9GTracker
