import A9GTracker.SavedFile

/-! Isolation of the parameters: through the file a parameter can be changed by another one
only where the text of that one has a line of its own for it. -/
namespace A9GTracker
namespace ParameterIsolation

open CString Utils ConfigStore ConfigLoad ConfigFile ConfigCommands ConfigFields ConfigInvariant
open ChunkedLoading Lines SavedFile

variable {F : Type} [FloatLib F]

/-! ### Foreign lines -/

def before (p : Param) : List Param := gConfigMap.takeWhile (· ≠ p)
def behind (p : Param) : List Param := (gConfigMap.dropWhile (· ≠ p)).tail

theorem gConfigMap_eq (p : Param) : gConfigMap = before p++p::behind p := by
  cases p <;> rfl

theorem mem_gConfigMap (p : Param) : p ∈ gConfigMap := by
  cases p <;> decide

theorem notMem_before (p : Param) : p ∉ before p := by
  cases p <;> decide

theorem notMem_behind (p : Param) : p ∉ behind p := by
  cases p <;> decide

/-- Behind a line end in the text of `q` stands a line that is accepted for `p`. -/
def Injects (c : Config F) (q p : Param) : Prop :=
  ∃ l ∈ leftover (q.serializer c), assigns (F := F) p l ≠ none

/-- A line of its own entry is accepted for `p`. -/
def Restored (c : Config F) (p : Param) : Prop :=
  ∃ l ∈ entryLines c p, assigns (F := F) p l ≠ none

/-- The text of a parameter saved behind `p` has a line for `p`, or, if the own entry is
rejected, the text of any other. -/
def Overwritten (c : Config F) (p : Param) : Prop :=
  (∃ q ∈ behind p, Injects c q p) ∨ ¬ Restored c p ∧ ∃ q ∈ before p, Injects c q p

def assigned (c : Config F) (p q : Param) : List (Content F p) :=
  (entryLines c q).filterMap (assigns p)

theorem assigned_own (c : Config F) (p : Param) : assigned c p p ≠ [] ↔ Restored c p := by
  simp [assigned,Restored,List.filterMap_eq_nil_iff]

/-- The header of another entry does not assign `p`, so only its leftover can. -/
theorem assigned_of_ne {p q : Param} (hq : q ≠ p) (c : Config F) :
    assigned c p q = (leftover (q.serializer c)).filterMap (assigns p) := by
  obtain ⟨l,-,-,hl⟩ := entryLines_eq c q
  have hheader : assigns (F := F) p (header q++l) = none := by
    rw [assigns_header,if_neg hq]
  rw [assigned,hl,List.filterMap_cons_none hheader]

theorem assigned_ne_nil {p q : Param} (hq : q ≠ p) {c : Config F} :
    assigned c p q ≠ [] ↔ Injects c q p := by
  rw [assigned_of_ne hq]
  simp [Injects,List.filterMap_eq_nil_iff]

theorem flatMap_assigned_eq_nil {p : Param} {c : Config F} {qs : List Param} (hp : p ∉ qs)
    (h : ¬ ∃ q ∈ qs, Injects c q p) : qs.flatMap (assigned c p) = [] := by
  rw [List.flatMap_eq_nil_iff]
  intro q hq
  by_contra hne
  have hqp : q ≠ p := fun heq => hp (heq ▸ hq)
  exact h ⟨q,hq,(assigned_ne_nil hqp).1 hne⟩

theorem exists_of_getLast?_flatMap {p : Param} {c : Config F} {qs : List Param} (hp : p ∉ qs)
    {y : Content F p} (h : (qs.flatMap (assigned c p)).getLast? = some y) :
    ∃ q, q ≠ p ∧ ∃ l ∈ leftover (q.serializer c), assigns p l = some y := by
  obtain ⟨q,hq,hy⟩ := List.mem_flatMap.1 (List.mem_of_getLast? h)
  have hne : q ≠ p := fun heq => hp (heq ▸ hq)
  rw [assigned_of_ne hne,List.mem_filterMap] at hy
  exact ⟨q,hne,hy⟩

/-- The field after the reboot: the entries behind `p` come first, then its own, then those
in front of it, and last the default. -/
theorem get_reboot_eq (imei : Option (List UInt8)) (p : Param) (c : Config F) :
    get p (reboot imei c).config =
      ((((behind p).flatMap (assigned c p)).getLast?.or (assigned c p p).getLast?).or
        ((before p).flatMap (assigned c p)).getLast?).getD
          (get p (initDefaults imei : Device F).config) := by
  rw [get_reboot,List.filterMap_flatMap,gConfigMap_eq p,List.flatMap_append,List.flatMap_cons,
    List.getLast?_append,List.getLast?_append]
  rfl

theorem get_reboot_of_isolated {p : Param} {c : Config F} (h : ¬ Overwritten c p)
    (imei : Option (List UInt8)) :
    get p (reboot imei c).config =
      (assigned c p p).getLast?.getD (get p (initDefaults imei : Device F).config) := by
  have hbehind := flatMap_assigned_eq_nil (notMem_behind p) fun hq => h (Or.inl hq)
  rw [get_reboot_eq,hbehind]
  by_cases hown : Restored c p
  · cases hlast : (assigned c p p).getLast? with
    | none => exact absurd (List.getLast?_eq_none_iff.1 hlast) ((assigned_own c p).2 hown)
    | some y => rfl
  · have hbefore := flatMap_assigned_eq_nil (notMem_before p) fun hq => h (Or.inr ⟨hown,hq⟩)
    rw [hbefore]
    cases (assigned c p p).getLast? <;> rfl

theorem exists_getLast?_flatMap {p : Param} {c : Config F} {qs : List Param} (hp : p ∉ qs)
    (h : ∃ q ∈ qs, Injects c q p) : ∃ y, (qs.flatMap (assigned c p)).getLast? = some y := by
  obtain ⟨q,hq,hinj⟩ := h
  have hqp : q ≠ p := fun heq => hp (heq ▸ hq)
  rw [← Option.ne_none_iff_exists',Ne,List.getLast?_eq_none_iff,List.flatMap_eq_nil_iff]
  exact fun hnil => (assigned_ne_nil hqp).2 hinj (hnil q hq)

/-- An overwritten parameter has a value from the text of another one. -/
theorem get_reboot_of_overwritten {p : Param} {c : Config F} (h : Overwritten c p)
    (imei : Option (List UInt8)) :
    ∃ q, q ≠ p ∧ ∃ l ∈ leftover (q.serializer c),
      assigns p l = some (get p (reboot imei c).config) := by
  rw [get_reboot_eq]
  rcases h with h | ⟨hown,h⟩
  · obtain ⟨y,hy⟩ := exists_getLast?_flatMap (notMem_behind p) h
    rw [hy]
    exact exists_of_getLast?_flatMap (notMem_behind p) hy
  · obtain ⟨y,hy⟩ := exists_getLast?_flatMap (notMem_before p) h
    have hnil : assigned c p p = [] := by
      by_contra hne
      exact hown ((assigned_own c p).1 hne)
    rw [hnil,hy]
    cases hlast : ((behind p).flatMap (assigned c p)).getLast? with
    | none => exact exists_of_getLast?_flatMap (notMem_before p) hy
    | some z => exact exists_of_getLast?_flatMap (notMem_behind p) hlast

theorem not_overwritten_of_notMem {c : Config F} (h : ∀ q : Param, (10 : UInt8) ∉ q.serializer c)
    (p : Param) : ¬ Overwritten c p := by
  have hno : ∀ q, ¬ Injects c q p := by
    rintro q ⟨l,hl,-⟩
    simp [leftover_of_notMem (h q)] at hl
  rintro (⟨q,-,hq⟩ | ⟨-,q,-,hq⟩)
  · exact hno q hq
  · exact hno q hq

/-! ### Two devices -/

theorem assigned_congr {p : Param} {c c' : Config F} (h : get p c = get p c') :
    assigned c p p = assigned c' p p := by
  have htext : p.serializer c = p.serializer c' := by rw [serializer_eq,serializer_eq,h]
  rw [assigned,assigned,entryLines,entryLines,saveLine_eq,saveLine_eq,htext]

/-- Two devices that agree on a parameter still agree on it after they have come up from
their files, if it is overwritten in neither; and where it is overwritten, its value is one
that the text of another parameter holds. -/
theorem parameter_isolated (imei : Option (List UInt8)) (p : Param) :
    (∀ d₁ d₂ : Device F, get p d₁.config = get p d₂.config →
      ¬ Overwritten d₁.config p → ¬ Overwritten d₂.config p →
      AfterReboot imei d₁ fun d₁' => AfterReboot imei d₂ fun d₂' =>
        get p d₁'.config = get p d₂'.config) ∧
    ∀ d : Device F, Overwritten d.config p →
      AfterReboot imei d fun d' => ∃ q, q ≠ p ∧ ∃ l ∈ leftover (q.serializer d.config),
        assigns p l = some (get p d'.config) := by
  constructor
  · intro d₁ d₂ hagree h₁ h₂
    rw [afterReboot_iff,afterReboot_iff,get_reboot_of_isolated h₁,get_reboot_of_isolated h₂,
      assigned_congr hagree]
  · intro d h
    rw [afterReboot_iff]
    exact get_reboot_of_overwritten h imei

theorem parameter_isolated_pass :
    let imei := some (lit "867959033012345")
    let d : Device Micros := initDefaults imei
    let d' := (handleUartCommand ⟨false,fun _ => 0⟩ (lit "set apn_pass secret") d).1
    AfterReboot imei d fun r => AfterReboot imei d' fun r' =>
      r.config.serverAddr = r'.config.serverAddr := by
  intro imei d d'
  have hset : d' = (handleSetCommand ⟨false,fun _ => 0⟩ (lit " apn_pass secret") d).1 :=
    handleUartCommand_set (by decide +kernel) _ _
  have hd : ∀ q ∈ gConfigMap, (10 : UInt8) ∉ q.serializer d.config := by decide +kernel
  have hd' : ∀ q ∈ gConfigMap, (10 : UInt8) ∉ q.serializer d'.config := by
    rw [hset]
    decide +kernel
  have hagree : d.config.serverAddr = d'.config.serverAddr := by
    rw [hset]
    decide +kernel
  exact (parameter_isolated imei .serverAddr).1 d d' hagree (not_overwritten_of_notMem (fun q => hd q (mem_gConfigMap q)) _)
    (not_overwritten_of_notMem (fun q => hd' q (mem_gConfigMap q)) _)

/-- A password with a line end in it brings a server address along. -/
theorem apnPass_changes_server :
    let imei := some (lit "867959033012345")
    let d : Device Micros := initDefaults imei
    let d' := (handleUartCommand ⟨false,fun _ => 0⟩ (lit "set apn_pass x\nserver=evil") d).1
    Reachable imei d ∧ Reachable imei d' ∧
      get .serverAddr d.config = get .serverAddr d'.config ∧
      ¬ AfterReboot imei d fun r => AfterReboot imei d' fun r' =>
        get .serverAddr r.config = get .serverAddr r'.config := by
  intro imei d d'
  have hd : Reachable imei d := .init fileRead ⟨false,0,⟨[],fun _ => 1,0⟩⟩ 0 rfl
  have hset : d' = (handleSetCommand ⟨false,fun _ => 0⟩ (lit " apn_pass x\nserver=evil") d).1 :=
    handleUartCommand_set (by decide +kernel) _ _
  obtain ⟨hagree,hreboot⟩ : d.config.serverAddr = d'.config.serverAddr ∧
      (reboot imei d.config).config.serverAddr ≠ (reboot imei d'.config).config.serverAddr := by
    rw [hset]
    decide +kernel
  refine ⟨hd,.uart _ _ hd,hagree,?_⟩
  rw [afterReboot_iff,afterReboot_iff]
  exact hreboot

end ParameterIsolation
end A9GTracker
