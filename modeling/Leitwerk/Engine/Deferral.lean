import Leitwerk.Engine.Creates
/-!
# What the deferral of a start keeps

`deferTurnWaitStarts` runs twice before every commit. `Pointer` says where the
writes of a decision leave the execution, `WaitOk` what a decision's writes say
of the pending wait and `Gated` what they say of it after a deferral: a process
that waits has no execution, and its wait is for a turn with a predicate.
-/

namespace Leitwerk.Engine

variable {d : ProcessDefinition} {p : Process} {w v : Writes} {exempt asked : TurnId → Prop}

/-! ## Where a decision leaves the execution -/

/-- The writes keep the execution, clear it, or leave the process at a start they create. Such
a start is of the selected turn, but for a startup retry (`exempt`), and is not ready for a
worker in a process they stop, but where somebody asked for that (`asked`). -/
inductive Pointer (exempt asked : TurnId → Prop) (p : Process) (w : Writes) : Prop
  | kept (hs : w.creates = []) (hx : (w.candidate p).currentExecution = p.currentExecution)
  | cleared (hs : w.llmCreates = []) (hx : (w.candidate p).currentExecution = none)
  | reserved (s : TurnStartInput) (hs : s ∈ w.creates)
      (hllm : w.llmCreates = if s.turnType = .llm then [s] else [])
      (hx : (w.candidate p).currentExecution = some s.id)
      (hsel : (w.candidate p).selectedTurnId = some s.turnId ∨
        exempt s.turnId ∧ p.currentExecution.isSome = true ∧ w.creates = [s] ∧
          (w.candidate p).selectedTurnId = p.selectedTurnId)
      (hst : s.begins = true → (w.candidate p).lifecycleStatus = .error → asked s.turnId)

/-- The created starts of one turn are of one type. -/
def Typed (d : ProcessDefinition) (w : Writes) : Prop :=
  w.creates.length ≤ 1 ∨ ∀ s ∈ w.creates, d.workerTurnType s.turnId = some s.turnType

/-- What a decision's writes say of the pending wait: it is gated, it is not made up, and an
admission leaves none and no start that is ready in a process it stops. -/
structure WaitOk (d : ProcessDefinition) (p : Process) (w : Writes) : Prop where
  gated : ∀ x, (w.candidate p).metadata.turnWait = some x → turnWaitPredicate d (some x.turnId) = true
  old : (w.candidate p).metadata.turnWait.isSome = true → p.metadata.turnWait.isSome = true
  admission : ∀ s ∈ w.creates, startAdmitted p w s = true → (w.candidate p).metadata.turnWait = none ∧
    ∀ r ∈ w.creates, r.begins = true → (w.candidate p).lifecycleStatus ≠ .error

/-- A process the writes leave waiting has no execution, and waits for a predicate. -/
def Gated (d : ProcessDefinition) (q : Process) : Prop :=
  ∀ x, q.metadata.turnWait = some x → turnWaitPredicate d (some x.turnId) = true ∧ q.currentExecution = none

theorem Pointer.of_sameMove (h : Pointer exempt asked p w) (hm : SameMove w v) : Pointer exempt asked p v := by
  have hc : v.creates = w.creates := hm.creates
  have hl : v.llmCreates = w.llmCreates := llmCreates_of_creates hc
  cases h with
  | kept hs hx => exact .kept (hc.trans hs) ((hm.current p).trans hx)
  | cleared hs hx => exact .cleared (hl.trans hs) ((hm.current p).trans hx)
  | reserved s hs hllm hx hsel hst =>
    refine .reserved s (hc ▸ hs) (hl.trans hllm) ((hm.current p).trans hx) ?_ ?_
    · rw [hm.selected, hc]
      exact hsel
    · rw [hm.lifecycle]
      exact hst

theorem Typed.of_creates (h : Typed d w) (hc : v.creates = w.creates) : Typed d v := by
  unfold Typed
  rw [hc]
  exact h

/-! ## Writing the wait -/

theorem candidate_writeTurnWait (w : Writes) (p : Process) (wait : Option PendingTurnWait) :
    ((writeTurnWait w p wait).candidate p).metadata = { (w.candidate p).metadata with turnWait := wait } ∨
      (writeTurnWait w p wait).candidate p = w.candidate p ∧
        p.metadata = { (w.candidate p).metadata with turnWait := wait } := by
  unfold writeTurnWait applyMetadataPatch
  rcases get_apply_or (f := Field.metadata) (q := p) (p := p) (w := w)
    { w.processPatch.metadata.getD p.metadata with turnWait := wait } with h | ⟨h, hw⟩
  · exact .inl h
  · refine .inr ⟨by rw [hw], h.symm⟩

theorem wait_writeTurnWait (w : Writes) (p : Process) (wait : Option PendingTurnWait) :
    ((writeTurnWait w p wait).candidate p).metadata.turnWait = wait ∨
      (writeTurnWait w p wait).candidate p = w.candidate p := by
  rcases candidate_writeTurnWait w p wait with h | ⟨h, -⟩
  · left
    rw [h]
  · exact .inr h

section
variable (w : Writes) (q : Process) (wait : Option PendingTurnWait)

@[simp] theorem selected_writeTurnWait (p : Process) :
    ((writeTurnWait w q wait).candidate p).selectedTurnId = (w.candidate p).selectedTurnId :=
  selectedTurnId_applyMetadata _

@[simp] theorem current_writeTurnWait (p : Process) :
    ((writeTurnWait w q wait).candidate p).currentExecution = (w.candidate p).currentExecution :=
  currentExecution_applyMetadata _

@[simp] theorem lifecycle_writeTurnWait (p : Process) :
    ((writeTurnWait w q wait).candidate p).lifecycleStatus = (w.candidate p).lifecycleStatus :=
  lifecycleStatus_applyMetadata _

@[simp] theorem starts_writeTurnWait : (writeTurnWait w q wait).turnStartWrites = w.turnStartWrites :=
  turnStartWrites_apply _ _ _ _

@[simp] theorem records_writeTurnWait : (writeTurnWait w q wait).turnRecordWrites = w.turnRecordWrites :=
  turnRecordWrites_apply _ _ _ _

@[simp] theorem admission_writeTurnWait : (writeTurnWait w q wait).waitForAdmission = w.waitForAdmission :=
  waitForAdmission_apply _ _ _ _

theorem tracked_writeTurnWait {p : Process} (h : Tracked p w) : Tracked p (writeTurnWait w q wait) := h.apply _
end

/-! ## One deferral, by its cases -/

section
variable (d : ProcessDefinition) (p : Process) (metadata : Option DecisionMetadata) (waitId : String) (w : Writes)

/-- A deferral drops a stale wait, admits a start or puts one off. -/
inductive Deferral (v : Writes) : Prop
  | drops (hv : v = dropStaleTurnWait p w) (h : ∀ s ∈ w.creates, (w.candidate p).selectedTurnId = some s.turnId →
      turnWaitPredicate d (w.candidate p).selectedTurnId = false)
  | admits (hv : v = w) (start : TurnStartInput) (hs : start ∈ w.creates)
      (hsel : (w.candidate p).selectedTurnId = some start.turnId)
      (hg : turnWaitPredicate d (w.candidate p).selectedTurnId = true) (ha : startAdmitted p w start = true)
  | defers (start : TurnStartInput)
      (hf : w.creates.find? (fun s => some s.turnId == (w.candidate p).selectedTurnId) = some start)
      (hsel : (w.candidate p).selectedTurnId = some start.turnId)
      (hg : turnWaitPredicate d (w.candidate p).selectedTurnId = true) (ha : startAdmitted p w start = false)
      (hv : v = deferStart p metadata waitId w start)

theorem deferral_cases : Deferral d p metadata waitId w (deferTurnWaitStarts d p metadata waitId w) := by
  unfold deferTurnWaitStarts
  dsimp only
  split
  · rename_i start hg hf
    have hsel : (w.candidate p).selectedTurnId = some start.turnId := by
      have := List.find?_some hf
      exact (beq_iff_eq.1 this).symm
    split
    · rename_i ha
      exact .admits rfl start (List.mem_of_find?_eq_some hf) hsel hg ha
    · rename_i ha
      exact .defers start hf hsel hg (by simpa using ha) rfl
  · rename_i hnot
    refine .drops rfl fun s hs hsel => ?_
    by_contra hg
    rw [Bool.not_eq_false] at hg
    cases hf : w.creates.find? (fun s => some s.turnId == (w.candidate p).selectedTurnId) with
    | none => exact absurd (beq_iff_eq.2 hsel.symm) (by simpa using List.find?_eq_none.1 hf s hs)
    | some start => exact hnot start hg hf

theorem candidate_deferStart (start : TurnStartInput) :
    (deferStart p metadata waitId w start).candidate p =
      { (writeTurnWait (w.removeCreate fun s => some s.turnId == (w.candidate p).selectedTurnId) p
          (some (deferredWait p start metadata waitId))).candidate p with
        currentExecution := none, lifecycleStatus := .waiting } := rfl

theorem creates_deferStart (start : TurnStartInput) :
    (deferStart p metadata waitId w start).creates =
      w.creates.eraseP fun s => some s.turnId == (w.candidate p).selectedTurnId := by
  rw [← creates_removeCreate]
  exact creates_of_starts (starts_writeTurnWait _ _ _)

theorem turnId_deferredWait (start : TurnStartInput) : (deferredWait p start metadata waitId).turnId = start.turnId := by
  unfold deferredWait
  dsimp only
  split
  · split
    · rename_i h
      exact h.1
    · rfl
  · rfl

theorem dropStale_cases : dropStaleTurnWait p w = w ∧
      (∀ x, (w.candidate p).metadata.turnWait = some x → (w.candidate p).selectedTurnId = some x.turnId ∧
        (w.candidate p).lifecycleStatus ≠ .completed ∧ (w.candidate p).lifecycleStatus ≠ .aborted) ∨
    dropStaleTurnWait p w = writeTurnWait w p none ∧ ∃ x, (w.candidate p).metadata.turnWait = some x := by
  unfold dropStaleTurnWait
  dsimp only
  split
  · rename_i x hx
    split
    · exact .inr ⟨rfl, x, hx⟩
    · rename_i h
      push Not at h
      refine .inl ⟨rfl, fun y hy => ?_⟩
      rw [hx] at hy
      cases hy
      exact ⟨h.1, h.2.1, h.2.2⟩
  · rename_i hx
    refine .inl ⟨rfl, fun y hy => ?_⟩
    exact absurd hy (by simp [hx])
end

/-! ## What every deferral keeps -/

/-- What a deferral leaves alone. -/
structure DeferKeeps (p : Process) (w v : Writes) : Prop where
  selected : (v.candidate p).selectedTurnId = (w.candidate p).selectedTurnId
  creates : v.creates.Sublist w.creates
  cas : v.casWrites = w.casWrites
  records : v.turnRecordWrites = w.turnRecordWrites
  admission : v.waitForAdmission = w.waitForAdmission
  mapped : v.mappedRunWrites = w.mappedRunWrites
  tracked : Tracked p w → Tracked p v

theorem deferKeeps_refl (p : Process) (w : Writes) : DeferKeeps p w w :=
  ⟨rfl, List.Sublist.refl _, rfl, rfl, rfl, rfl, id⟩

theorem mapped_apply {α : Type} (w : Writes) (q : Process) (f : Field α) (x : α) :
    (applyProcessPatchField w q f x).mappedRunWrites = w.mappedRunWrites := by
  unfold applyProcessPatchField; split <;> rfl

theorem deferKeeps_writeTurnWait (w : Writes) (p : Process) (wait : Option PendingTurnWait) :
    DeferKeeps p w (writeTurnWait w p wait) where
  selected := selected_writeTurnWait _ _ _ _
  creates := by rw [creates_of_starts (starts_writeTurnWait w p wait)]
  cas := by rw [Writes.casWrites, starts_writeTurnWait]; rfl
  records := records_writeTurnWait _ _ _
  admission := admission_writeTurnWait _ _ _
  mapped := mapped_apply _ _ _ _
  tracked := tracked_writeTurnWait _ _ _

theorem deferKeeps_dropStale (p : Process) (w : Writes) : DeferKeeps p w (dropStaleTurnWait p w) := by
  rcases dropStale_cases p w with ⟨h, -⟩ | ⟨h, -⟩
  · rw [h]
    exact deferKeeps_refl p w
  · rw [h]
    exact deferKeeps_writeTurnWait w p none

theorem deferKeeps (d : ProcessDefinition) (p : Process) (metadata : Option DecisionMetadata) (waitId : String) (w : Writes) :
    DeferKeeps p w (deferTurnWaitStarts d p metadata waitId w) := by
  rcases deferral_cases d p metadata waitId w with ⟨hv, -⟩ | ⟨hv, -⟩ | ⟨start, -, -, -, -, hv⟩ <;> rw [hv]
  · exact deferKeeps_dropStale p w
  · exact deferKeeps_refl p w
  · refine ⟨?_, ?_, ?_, ?_, ?_, ?_, fun _ => ?_⟩
    · rw [candidate_deferStart]
      exact selected_writeTurnWait _ _ _ _
    · rw [creates_deferStart]
      exact List.eraseP_sublist
    · exact ((deferKeeps_writeTurnWait _ _ _).cas).trans (cas_removeCreate _ _)
    · exact (deferKeeps_writeTurnWait _ _ _).records
    · exact (deferKeeps_writeTurnWait _ _ _).admission
    · exact (deferKeeps_writeTurnWait _ _ _).mapped
    · exact Tracked.of_changed (addField_ne_nil _ _)

/-- Writes without a start are only relieved of a stale wait. -/
theorem defer_kept (hs : w.creates = []) (metadata : Option DecisionMetadata) (waitId : String) :
    deferTurnWaitStarts d p metadata waitId w = dropStaleTurnWait p w := by
  rcases deferral_cases d p metadata waitId w with ⟨hv, -⟩ | ⟨-, start, hmem, -⟩ | ⟨start, hf, -⟩
  · exact hv
  · rw [hs] at hmem
    cases hmem
  · rw [hs] at hf
    cases hf

theorem llmCreates_sublist (h : v.creates.Sublist w.creates) : v.llmCreates.Sublist w.llmCreates := h.filter _

theorem current_dropStale (p : Process) (w : Writes) :
    ((dropStaleTurnWait p w).candidate p).currentExecution = (w.candidate p).currentExecution := by
  rcases dropStale_cases p w with ⟨h, -⟩ | ⟨h, -⟩ <;> rw [h]
  exact current_writeTurnWait _ _ _ _

theorem lifecycle_dropStale (p : Process) (w : Writes) :
    ((dropStaleTurnWait p w).candidate p).lifecycleStatus = (w.candidate p).lifecycleStatus := by
  rcases dropStale_cases p w with ⟨h, -⟩ | ⟨h, -⟩ <;> rw [h]
  exact lifecycle_writeTurnWait _ _ _ _

theorem creates_dropStale (p : Process) (w : Writes) : (dropStaleTurnWait p w).creates = w.creates := by
  rcases dropStale_cases p w with ⟨h, -⟩ | ⟨h, -⟩ <;> rw [h]
  exact creates_of_starts (starts_writeTurnWait _ _ _)

theorem eq_of_length_le_one {α : Type} {l : List α} {a b : α} (h : l.length ≤ 1) (ha : a ∈ l) (hb : b ∈ l) : a = b := by
  rcases l with _ | ⟨x, _ | ⟨y, l⟩⟩
  · cases ha
  · rw [List.mem_singleton.1 ha, List.mem_singleton.1 hb]
  · simp at h

/-- Taking the LLM start of the selected turn out of typed writes leaves no LLM start. -/
theorem llm_eraseP {l : List TurnStartInput} {s start : TurnStartInput} {turnId : Option TurnId}
    (ht : l.length ≤ 1 ∨ ∀ x ∈ l, d.workerTurnType x.turnId = some x.turnType)
    (hl : l.filter (·.turnType = .llm) = if s.turnType = .llm then [s] else [])
    (hf : l.find? (fun x => some x.turnId == turnId) = some start) (hs : s ∈ l) (hsel : turnId = some s.turnId) :
    (l.eraseP fun x => some x.turnId == turnId).filter (·.turnType = .llm) = [] := by
  by_cases hllm : s.turnType = .llm
  · rw [if_pos hllm] at hl
    -- the first start of the selected turn is of the type of `s`, so it is `s`
    have hstart : start = s := by
      have hmem := List.mem_of_find?_eq_some hf
      have hid : start.turnId = s.turnId := by
        have hp : (some start.turnId == turnId) = true := List.find?_some (p := fun x : TurnStartInput => some x.turnId == turnId) hf
        rw [hsel] at hp
        exact Option.some.inj (beq_iff_eq.1 hp)
      rcases ht with hlen | htyped
      · exact eq_of_length_le_one hlen hmem hs
      · have hty : start.turnType = .llm := by
          have h₁ := htyped start hmem
          have h₂ := htyped s hs
          rw [hid, h₂, hllm] at h₁
          exact (Option.some.inj h₁).symm
        have : start ∈ l.filter (·.turnType = .llm) := List.mem_filter.2 ⟨hmem, by simpa using hty⟩
        rw [hl] at this
        exact List.mem_singleton.1 this
    subst hstart
    obtain ⟨hp, a, b, rfl, ha⟩ := List.find?_eq_some_iff_append.1 hf
    have herase : (a ++ start :: b).eraseP (fun x => some x.turnId == turnId) = a ++ b := by
      rw [List.eraseP_append_right _ (fun x hx => by simpa using ha x hx),
        List.eraseP_cons_of_pos (p := fun x : TurnStartInput => some x.turnId == turnId) hp]
    rw [herase]
    rw [List.filter_append, List.filter_cons_of_pos (by simpa using hllm)] at hl
    have hlen := congrArg List.length hl
    simp only [List.length_append, List.length_cons, List.length_nil] at hlen
    rw [List.filter_append, List.append_eq_nil_iff]
    exact ⟨List.length_eq_zero_iff.1 (by omega), List.length_eq_zero_iff.1 (by omega)⟩
  · rw [if_neg hllm] at hl
    have := (List.eraseP_sublist (p := fun x : TurnStartInput => some x.turnId == turnId) (l := l)).filter (·.turnType = .llm)
    rw [hl] at this
    exact List.sublist_nil.1 this

theorem defer_pointer (h : Pointer exempt asked p w) (ht : Typed d w) (metadata : Option DecisionMetadata)
    (waitId : String) : Pointer exempt asked p (deferTurnWaitStarts d p metadata waitId w) := by
  have hdrop : Pointer exempt asked p (dropStaleTurnWait p w) := by
    have hc := creates_dropStale p w
    have hl := llmCreates_of_creates hc
    cases h with
    | kept hs hx => exact .kept (hc.trans hs) ((current_dropStale p w).trans hx)
    | cleared hs hx => exact .cleared (hl.trans hs) ((current_dropStale p w).trans hx)
    | reserved s hs hllm hx hsel hst =>
      refine .reserved s (hc ▸ hs) (hl.trans hllm) ((current_dropStale p w).trans hx) ?_ ?_
      · rw [(deferKeeps_dropStale p w).selected, hc]
        exact hsel
      · rw [lifecycle_dropStale]
        exact hst
  rcases deferral_cases d p metadata waitId w with ⟨hv, -⟩ | ⟨hv, -⟩ | ⟨start, hf, hsel, -, -, hv⟩ <;> rw [hv]
  · exact hdrop
  · exact h
  · refine .cleared ?_ (by rw [candidate_deferStart])
    rw [Writes.llmCreates, creates_deferStart]
    cases h with
    | kept hs => rw [hs] at hf; cases hf
    | cleared hs =>
      have hsub := (List.eraseP_sublist (p := fun x : TurnStartInput => some x.turnId == (w.candidate p).selectedTurnId)
        (l := w.creates)).filter (·.turnType = .llm)
      have hs : w.creates.filter (·.turnType = .llm) = [] := hs
      rw [hs] at hsub
      exact List.sublist_nil.1 hsub
    | reserved s hs hllm hx hs' =>
      rcases hs' with hs' | ⟨-, -, hone, -⟩
      · exact llm_eraseP ht hllm hf hs hs'
      · rw [hone] at hf ⊢
        have hp : (some start.turnId == (w.candidate p).selectedTurnId) = true :=
          List.find?_some (p := fun x : TurnStartInput => some x.turnId == (w.candidate p).selectedTurnId) hf
        obtain rfl : start = s := by simpa using List.mem_of_find?_eq_some hf
        rw [List.eraseP_cons_of_pos
          (p := fun x : TurnStartInput => some x.turnId == (w.candidate p).selectedTurnId) hp]
        rfl

/-- After the first deferral a start that is ready in a process it stops is of an ungated turn. -/
theorem defer_pointer_first (h : Pointer exempt asked p w) (ht : Typed d w) (hw : WaitOk d p w)
    (hex : ∀ t, exempt t → ¬ asked t) (metadata : Option DecisionMetadata) (waitId : String) :
    Pointer exempt (fun t => asked t ∧ turnWaitPredicate d (some t) = false) p
      (deferTurnWaitStarts d p metadata waitId w) := by
  have hp := defer_pointer h ht metadata waitId
  generalize hv : deferTurnWaitStarts d p metadata waitId w = v at hp
  cases hp with
  | kept hs hx => exact .kept hs hx
  | cleared hs hx => exact .cleared hs hx
  | reserved s hs hllm hx hsel hst =>
    refine .reserved s hs hllm hx hsel fun hb he => ⟨hst hb he, ?_⟩
    rcases hsel with hsel | ⟨hexempt, -⟩
    · have hk := deferKeeps d p metadata waitId w
      rw [hv] at hk
      rcases deferral_cases d p metadata waitId w with
        ⟨hd, hno⟩ | ⟨hd, start, hmem, -, -, ha⟩ | ⟨start, -, -, -, -, hd⟩
      · rw [← hsel, hk.selected]
        exact hno s (hk.creates.subset hs) (hk.selected ▸ hsel)
      · rw [hv] at hd
        subst hd
        exact absurd he ((hw.admission start hmem ha).2 s hs hb)
      · -- a deferral leaves the process without an execution
        rw [hv] at hd
        rw [hd, candidate_deferStart] at hx
        cases hx
    · exact absurd (hst hb he) (hex _ hexempt)

theorem defer_typed (h : Typed d w) (metadata : Option DecisionMetadata) (waitId : String) :
    Typed d (deferTurnWaitStarts d p metadata waitId w) := by
  have hsub := (deferKeeps d p metadata waitId w).creates
  exact h.imp (fun h => Nat.le_trans hsub.length_le h) fun h s hs => h s (hsub.subset hs)

/-- Once a process is gated it stays so. -/
theorem gated_defer (h : Gated d (w.candidate p)) (metadata : Option DecisionMetadata) (waitId : String) :
    Gated d ((deferTurnWaitStarts d p metadata waitId w).candidate p) := by
  rcases deferral_cases d p metadata waitId w with ⟨hv, -⟩ | ⟨hv, -⟩ | ⟨start, -, hsel, hg, -, hv⟩ <;> rw [hv]
  · rcases dropStale_cases p w with ⟨hw, -⟩ | ⟨hw, -⟩
    · rw [hw]
      exact h
    · rw [hw]
      rcases wait_writeTurnWait w p none with hn | hsame
      · intro x hx
        rw [hn] at hx
        cases hx
      · rw [hsame]
        exact h
  · exact h
  · intro x hx
    rw [candidate_deferStart] at hx ⊢
    refine ⟨?_, rfl⟩
    rcases wait_writeTurnWait (w.removeCreate fun s => some s.turnId == (w.candidate p).selectedTurnId) p
      (some (deferredWait p start metadata waitId)) with hn | hsame
    · rw [hn] at hx
      cases hx
      rw [turnId_deferredWait, ← hsel]
      exact hg
    · rw [hsame] at hx
      exact (h x hx).1

/-- The first deferral gates a decision's process. -/
theorem defer_gated (hp : p.metadata.turnWait.isSome = true → p.currentExecution = none)
    (h : Pointer exempt asked p w) (hw : WaitOk d p w) (metadata : Option DecisionMetadata) (waitId : String) :
    Gated d ((deferTurnWaitStarts d p metadata waitId w).candidate p) := by
  rcases deferral_cases d p metadata waitId w with
    ⟨hv, hno⟩ | ⟨hv, start, hs, -, -, ha⟩ | ⟨start, -, hsel, hg, -, hv⟩ <;> rw [hv]
  · rcases dropStale_cases p w with ⟨hsame, hstale⟩ | ⟨hsame, x, hx⟩
    · rw [hsame]
      intro x hx
      refine ⟨hw.gated x hx, ?_⟩
      have hpw : p.metadata.turnWait.isSome = true := hw.old (by rw [hx]; rfl)
      cases h with
      | kept hs hxc => rw [hxc]; exact hp hpw
      | cleared hs hxc => exact hxc
      | reserved s hs hllm hxc hsel =>
        rcases hsel with hsel | ⟨-, hcur, -⟩
        · -- the start of the waiting turn would have been put off
          have hg := hw.gated x hx
          rw [← (hstale x hx).1, hno s hs hsel] at hg
          cases hg
        · rw [hp hpw] at hcur
          cases hcur
    · rw [hsame]
      rcases wait_writeTurnWait w p none with hn | hsame'
      · intro y hy
        rw [hn] at hy
        cases hy
      · -- the metadata is the process's own, without a wait
        rcases candidate_writeTurnWait w p none with hn | ⟨-, hm⟩
        · intro y hy
          rw [hn] at hy
          cases hy
        · have hold := hw.old (by rw [hx]; rfl)
          rw [hm] at hold
          cases hold
  · intro x hx
    rw [(hw.admission start hs ha).1] at hx
    cases hx
  · intro x hx
    rw [candidate_deferStart] at hx ⊢
    refine ⟨?_, rfl⟩
    rcases wait_writeTurnWait (w.removeCreate fun s => some s.turnId == (w.candidate p).selectedTurnId) p
      (some (deferredWait p start metadata waitId)) with hn | hsame
    · rw [hn] at hx
      cases hx
      rw [turnId_deferredWait, ← hsel]
      exact hg
    · rw [hsame] at hx
      exact hw.gated x hx

end Leitwerk.Engine
