import Leitwerk.Engine.Deferral
/-!
# From a decision to its commit

`record` defers starts, enters mapped turns, defers again, settles the model and
begins episodes. `planMappedEntries_inv` is the rule for the loop of mapped
entries, `Prepared` what the whole of it keeps of a decision: where the
execution is left, the state changes of existing starts, and the turn records.
-/

namespace Leitwerk.Engine

open Results (ok_of_bind)

variable {d : ProcessDefinition} {ctx : Context} {p : Process} {w v base : Writes} {exempt asked : TurnId → Prop}

/-! ## The loop of mapped entries -/

/-- What one round of `planMappedEntries` keeps holds of the writes it returns. -/
theorem planMappedEntries_inv (I : Bool → Writes → Prop) (J : Writes → Prop) {active : Option MappedRun}
    (hdefer : ∀ b w, I b w → I b (deferTurnWaitStarts d p none ctx.waitId w))
    (hleave : ∀ b w, I b w → J (leaveActiveRun (w.candidate p) active b w))
    (henter : ∀ b w start spec runId (frozen : MappedFreezeResult) first rest, I b w →
      mappedEntry d (w.candidate p) w = some (start, spec) → spec.freezeItems (w.candidate p) = .ok frozen →
      frozen.items = first :: rest → J ((freezeRun active b (w.candidate p) start.turnId runId frozen w).setIteration
        (w.candidate p).selectedTurnId { runId, itemKey := first.itemKey, itemIndex := 0 }))
    (hroute : ∀ b w start spec runId (frozen : MappedFreezeResult) k routed, I b w →
      mappedEntry d (w.candidate p) w = some (start, spec) → spec.freezeItems (w.candidate p) = .ok frozen →
      frozen.items = [] →
      collectAndRoute d (((freezeRun active b (w.candidate p) start.turnId runId frozen w).removeCreate
        (entersTurn (w.candidate p).selectedTurnId)).candidate p) spec [] (ctx.fresh k) = .ok routed →
      I true (mergeWrites ((freezeRun active b (w.candidate p) start.turnId runId frozen w).removeCreate
        (entersTurn (w.candidate p).selectedTurnId)) routed))
    {left : Nat} {b : Bool} (hI : I b w) (h : planMappedEntries d ctx p active left b w = .ok v) : J v := by
  induction left generalizing b w with
  | zero =>
    unfold planMappedEntries at h
    dsimp only at h
    split at h
    · cases h
      exact hleave b _ (hdefer b w hI)
    · cases h
    · rename_i hleft
      cases hleft
  | succ left ih =>
    unfold planMappedEntries at h
    dsimp only at h
    split at h
    · cases h
      exact hleave b _ (hdefer b w hI)
    · rename_i hleft
      cases hleft
    · rename_i start spec left' hentry hleft
      cases hleft
      have hI' := hdefer b w hI
      generalize deferTurnWaitStarts d p none ctx.waitId w = u at h hentry hI'
      cases hf : spec.freezeItems (u.candidate p) with
      | error e => rw [hf] at h; cases h
      | ok frozen =>
        rw [hf] at h
        dsimp only [bind, Except.bind] at h
        cases hitems : frozen.items with
        | cons first rest =>
          rw [hitems] at h
          cases h
          exact henter b u start spec _ frozen first rest hI' hentry hf hitems
        | nil =>
          rw [hitems] at h
          dsimp only at h
          cases hr : collectAndRoute d (((freezeRun active b (u.candidate p) start.turnId
              (ctx.runId (maxEmptyMappedEntries - (left + 1))) frozen u).removeCreate
                (entersTurn (u.candidate p).selectedTurnId)).candidate p) spec []
              (ctx.fresh (2 + (maxEmptyMappedEntries - (left + 1)))) with
          | error e => rw [hr] at h; cases h
          | ok routed =>
            rw [hr] at h
            exact ih (hroute b u start spec _ frozen _ routed hI' hentry hf hitems hr) h

/-! ## The entering start -/

theorem mem_of_find {α : Type} {l : List α} {q : α → Bool} {a : α} (h : l.find? q = some a) : a ∈ l ∧ q a = true :=
  ⟨List.mem_of_find?_eq_some h, List.find?_some h⟩

/-- The start that enters a mapped turn is an LLM start of the selected turn. -/
theorem mappedEntry_some {start : TurnStartInput} {spec : MappedLlmTurnSpec}
    (h : mappedEntry d (w.candidate p) w = some (start, spec)) :
    w.creates.find? (entersTurn (w.candidate p).selectedTurnId) = some start ∧ start ∈ w.creates ∧
      start.turnType = .llm ∧ start.startKind = .selectedTurn ∧ start.iteration = none ∧
      (w.candidate p).selectedTurnId = some start.turnId ∧ getMappedTurnSpec d start.turnId = some spec := by
  unfold mappedEntry at h
  cases hf : w.creates.find? (entersTurn (w.candidate p).selectedTurnId) with
  | none =>
    rw [hf] at h
    cases h
  | some s =>
    rw [hf, Option.bind_some] at h
    obtain ⟨spec', hspec, heq⟩ := Option.map_eq_some_iff.1 h
    cases heq
    obtain ⟨hmem, hp⟩ := mem_of_find hf
    simp only [entersTurn, Bool.and_eq_true, beq_iff_eq, Option.isNone_iff_eq_none] at hp
    exact ⟨rfl, hmem, hp.1.1.1, hp.1.1.2, hp.1.2, hp.2.symm, hspec⟩

/-- The target of an accepted selection is declared, given that a selected turn is. -/
theorem declared_of_check {q : Process} {input : TurnSelectionWritesInput} {target turnId : TurnId}
    (h : checkTurnSelection d q input = .ok ()) (hto : input.toTurnId = some target) (hq : q.selectedTurnId = some turnId)
    (hd : (d.turns turnId).isSome = true) : (d.turns target).isSome = true := by
  unfold checkTurnSelection at h
  simp only [hto, hq] at h
  split at h
  · cases h
  split at h
  · cases h
  split at h
  · rename_i hsame
    cases hsame
    exact hd
  · unfold tryTransition at h
    dsimp only at h
    split at h
    · cases h
    split at h
    · cases h
    · rename_i hne
      rwa [Option.isNone_iff_eq_none, ← ne_eq, ← Option.isSome_iff_ne_none] at hne

/-- Selecting a declared turn with the status derived for it moves the execution. -/
theorem replaces_of_derived {q : Process} {input : TurnSelectionWritesInput} {target : TurnId}
    (hto : input.toTurnId = some target) (hl : input.lifecycleStatus = none) (hd : (d.turns target).isSome = true) :
    input.replacesExecution d q = true := by
  obtain ⟨turn, hturn⟩ := Option.isSome_iff_exists.1 hd
  have hstatus : input.targetLifecycleStatus d q = lifecycleStatusForSelectedTurnType turn.turnType := by
    unfold TurnSelectionWritesInput.targetLifecycleStatus deriveLifecycleStatusForSelectedTurn
    rw [hl, hto, Option.getD_none]
    dsimp only
    rw [hturn]
  unfold TurnSelectionWritesInput.replacesExecution
  rw [hstatus, hto]
  cases ht : turn.turnType <;> simp [lifecycleStatusForSelectedTurnType, ProcessDefinition.workerTurnType, hturn, ht,
    workerTurnType?]

/-- The route of a mapped turn moves the execution, also back to that turn. -/
theorem collectAndRoute_ok {q : Process} {spec : MappedLlmTurnSpec} {results : List Json} {ids : FreshIds}
    (h : collectAndRoute d q spec results ids = .ok w) {turnId : TurnId} (hq : q.selectedTurnId = some turnId)
    (hspec : getMappedTurnSpec d turnId = some spec) :
    ∃ request, Transits d q ids request w ∧ request.replacesExecution d q = true := by
  have hmapped : (d.turns turnId).isSome = true := by
    unfold getMappedTurnSpec at hspec
    cases hd : d.turns turnId with
    | none => rw [hd] at hspec; cases hspec
    | some turn => rfl
  unfold collectAndRoute at h
  cases hc : spec.collectResults q results with
  | error e => rw [hc] at h; cases h
  | ok collected =>
    rw [hc] at h
    replace h : buildServerTransitionWrites d q
      { turnId := some collected.nextTurnId
        lifecycleStatus := collected.lifecycleStatus.map TerminalStatus.toLifecycle
        trigger := some collected.trigger, state := some collected.state } ids = .ok w := h
    have ht := buildServerTransitionWrites_ok h
    refine ⟨_, ht, ?_⟩
    have hcheck := ht.checked _ rfl
    show TurnSelectionWritesInput.replacesExecution d q _ = true
    cases hl : collected.lifecycleStatus with
    | some status =>
      apply replaces_of_status
      cases status with
      | completed => exact .inr (.inl rfl)
      | aborted => exact .inr (.inr rfl)
    | none =>
      cases hto : collected.nextTurnId with
      | none => rfl
      | some target =>
        exact replaces_of_derived rfl rfl (declared_of_check hcheck hto hq hmapped)

/-! ## What the pipeline keeps of a decision -/

/-- What `record` made so far of the decision's writes `base`. -/
structure Prepared (d : ProcessDefinition) (exempt asked : TurnId → Prop) (p : Process) (base w : Writes) : Prop where
  pointer : Pointer exempt asked p w
  typed : Typed d w
  gated : Gated d (w.candidate p)
  reach : Reach d (base.candidate p).selectedTurnId (w.candidate p).selectedTurnId
  cas : w.casWrites = base.casWrites
  records : w.turnRecordWrites = base.turnRecordWrites
  admission : w.waitForAdmission = base.waitForAdmission
  tracked : Tracked p w
  idle : base.creates = [] → w.creates = [] ∧ (w.candidate p).lifecycleStatus = (base.candidate p).lifecycleStatus ∧
    (w.candidate p).selectedTurnId = (base.candidate p).selectedTurnId ∧
    (w.candidate p).currentExecution = (base.candidate p).currentExecution
  moved : base.creates ≠ [] → w.creates = [] → (w.candidate p).currentExecution = none

theorem Prepared.of_sameMove (h : Prepared d exempt asked p base w) (hm : SameMove w v)
    (ht : Tracked p w → Tracked p v) : Prepared d exempt asked p base v where
  pointer := h.pointer.of_sameMove hm
  typed := h.typed.of_creates hm.creates
  gated := by
    unfold Gated
    rw [hm.metadata, hm.current]
    exact h.gated
  reach := by
    rw [hm.selected]
    exact h.reach
  cas := by
    rw [Writes.casWrites, hm.starts]
    exact h.cas
  records := hm.records.trans h.records
  admission := hm.admission.trans h.admission
  tracked := ht h.tracked
  idle := by
    rw [hm.creates, hm.lifecycle, hm.selected, hm.current]
    exact h.idle
  moved := by
    rw [hm.creates, hm.current]
    exact h.moved

/-- A deferral leaves no execution where it leaves no start. -/
theorem defer_moved (h : w.creates = [] → (w.candidate p).currentExecution = none) (metadata : Option DecisionMetadata)
    (waitId : String) : (deferTurnWaitStarts d p metadata waitId w).creates = [] →
      ((deferTurnWaitStarts d p metadata waitId w).candidate p).currentExecution = none := by
  rcases deferral_cases d p metadata waitId w with ⟨hv, -⟩ | ⟨hv, -⟩ | ⟨start, -, -, -, -, hv⟩ <;> rw [hv]
  · rw [creates_dropStale, current_dropStale]
    exact h
  · exact h
  · intro _
    rw [candidate_deferStart]

/-- The first deferral gates the decision. -/
theorem prepared_first (hp : p.metadata.turnWait.isSome = true → p.currentExecution = none)
    (hpt : Pointer exempt asked p w) (hty : Typed d w) (hw : WaitOk d p w) (ht : Tracked p w)
    (hex : ∀ t, exempt t → ¬ asked t) (metadata : Option DecisionMetadata) (waitId : String) :
    Prepared d exempt (fun t => asked t ∧ turnWaitPredicate d (some t) = false) p w
      (deferTurnWaitStarts d p metadata waitId w) := by
  have hk := deferKeeps d p metadata waitId w
  refine ⟨defer_pointer_first hpt hty hw hex _ _, defer_typed hty _ _, defer_gated hp hpt hw _ _, ?_, hk.cas, hk.records,
    hk.admission, hk.tracked ht, fun hs => ?_, fun hne => defer_moved (fun h0 => absurd h0 hne) _ _⟩
  · rw [hk.selected]
    exact Reach.refl d _
  · rw [defer_kept hs]
    exact ⟨(creates_dropStale p w).trans hs, lifecycle_dropStale p w, (deferKeeps_dropStale p w).selected,
      current_dropStale p w⟩

theorem Prepared.defer (h : Prepared d exempt asked p base w) (metadata : Option DecisionMetadata) (waitId : String) :
    Prepared d exempt asked p base (deferTurnWaitStarts d p metadata waitId w) := by
  have hk := deferKeeps d p metadata waitId w
  refine ⟨defer_pointer h.pointer h.typed _ _, defer_typed h.typed _ _, gated_defer h.gated _ _, ?_, hk.cas.trans h.cas,
    hk.records.trans h.records, hk.admission.trans h.admission, hk.tracked h.tracked, fun hs => ?_,
    fun hne => defer_moved (h.moved hne) _ _⟩
  · rw [hk.selected]
    exact h.reach
  · obtain ⟨hc, hl, hsel, hx⟩ := h.idle hs
    rw [defer_kept hc]
    exact ⟨(creates_dropStale p w).trans hc, (lifecycle_dropStale p w).trans hl,
      (deferKeeps_dropStale p w).selected.trans hsel, (current_dropStale p w).trans hx⟩

/-! ## Leaving a run, and freezing one -/

theorem sameMove_mapped (w : Writes) (l : List MappedRunWrite) : SameMove w { w with mappedRunWrites := l } :=
  ⟨fun _ => rfl, fun _ => rfl, fun _ => rfl, fun _ => rfl, rfl, rfl, rfl⟩

theorem sameMove_leaveActiveRun (q : Process) (active : Option MappedRun) (b : Bool) (w : Writes) :
    SameMove w (leaveActiveRun q active b w) := by
  unfold leaveActiveRun
  cases active with
  | none => exact .refl
  | some run =>
    dsimp only
    split
    · exact sameMove_mapped _ _
    · exact .refl

theorem tracked_leaveActiveRun {q : Process} {active : Option MappedRun} {b : Bool} (h : Tracked p w) :
    Tracked p (leaveActiveRun q active b w) := by
  unfold leaveActiveRun
  cases active with
  | none => exact h
  | some run =>
    dsimp only
    split <;> exact h

section
variable (active : Option MappedRun) (b : Bool) (q : Process) (turnId : TurnId) (runId : String)
  (frozen : MappedFreezeResult) (w : Writes)

theorem sameMove_freezeRun : SameMove w (freezeRun active b q turnId runId frozen w) := by
  unfold freezeRun
  dsimp only
  split
  · refine SameMove.trans ?_ (SameMove.apply quiet_stateJson _)
    split
    · exact (sameMove_mapped _ _).trans (sameMove_mapped _ _)
    · exact sameMove_mapped _ _
  · split
    · exact (sameMove_mapped _ _).trans (sameMove_mapped _ _)
    · exact sameMove_mapped _ _

theorem changed_freezeRun (h : w.changedFields ≠ []) :
    (freezeRun active b q turnId runId frozen w).changedFields ≠ [] := by
  unfold freezeRun
  dsimp only
  split
  · apply changed_apply
    split <;> exact h
  · split <;> exact h
end

/-- Writes that create a start list a changed field. -/
theorem Tracked.changed {s : TurnStartInput} (h : Tracked p w) (hs : s ∈ w.creates) : w.changedFields ≠ [] := by
  intro h0
  rw [(h h0).2] at hs
  cases hs

/-! ## Replacing the one LLM start -/

/-- The LLM start of a decision is the one it leaves the process at. -/
theorem Pointer.llm {s : TurnStartInput} (h : Pointer exempt asked p w) (hs : s ∈ w.creates) (hty : s.turnType = .llm) :
    w.llmCreates = [s] ∧ (w.candidate p).currentExecution = some s.id ∧
      ((w.candidate p).selectedTurnId = some s.turnId ∨
        exempt s.turnId ∧ p.currentExecution.isSome = true ∧ w.creates = [s] ∧
          (w.candidate p).selectedTurnId = p.selectedTurnId) ∧
      (s.begins = true → (w.candidate p).lifecycleStatus = .error → asked s.turnId) := by
  have hmem : s ∈ w.llmCreates := mem_llmCreates.2 ⟨hs, hty⟩
  cases h with
  | kept h0 => rw [h0] at hs; cases hs
  | cleared h0 => rw [h0] at hmem; cases hmem
  | reserved r hr hllm hx hsel hst =>
    rw [hllm] at hmem
    split at hmem
    · rename_i hrty
      obtain rfl := List.mem_singleton.1 hmem
      rw [if_pos hrty] at hllm
      exact ⟨hllm, hx, hsel, hst⟩
    · cases hmem

section
variable {f : TurnStartInput → Option TurnStartInput} {s s' : TurnStartInput}

theorem Pointer.replace (h : Pointer exempt asked p w) (hs : s ∈ w.creates) (hty : s.turnType = .llm)
    (hf : ∀ x ∈ w.creates, x.turnType ≠ .llm → f x = none) (hfs : f s = some s') (hid : s'.id = s.id)
    (hturn : s'.turnId = s.turnId) (hty' : s'.turnType = .llm) (hc : v.creates = w.creates.replaceF f)
    (hx : (v.candidate p).currentExecution = (w.candidate p).currentExecution)
    (hsel : (v.candidate p).selectedTurnId = (w.candidate p).selectedTurnId)
    (hst : s'.begins = true → (v.candidate p).lifecycleStatus = .error → asked s.turnId) : Pointer exempt asked p v := by
  obtain ⟨hllm, hxw, hselw, -⟩ := h.llm hs hty
  obtain ⟨hl, hmem, -⟩ := replaceF_llm hllm hf hfs hty'
  refine .reserved s' (hc ▸ hmem) ?_ ((hx.trans hxw).trans (congrArg some hid.symm)) ?_ ?_
  · rw [if_pos hty', Writes.llmCreates, hc]
    exact hl
  · rw [hsel, hturn]
    refine hselw.imp_right fun hitem => ⟨hitem.1, hitem.2.1, ?_, hitem.2.2.2⟩
    rw [hc, hitem.2.2.1, List.replaceF, hfs]
  · rw [hturn]
    exact hst

theorem Typed.replace (h : Typed d w) (hs : w.llmCreates = [s]) (hmem : s ∈ w.creates)
    (hf : ∀ x ∈ w.creates, x.turnType ≠ .llm → f x = none) (hfs : f s = some s') (hturn : s'.turnId = s.turnId)
    (hty : s.turnType = .llm) (hty' : s'.turnType = .llm) (hc : v.creates = w.creates.replaceF f) : Typed d v := by
  obtain ⟨-, -, hall⟩ := replaceF_llm hs hf hfs hty'
  unfold Typed
  rw [hc]
  refine h.imp (fun h => ?_) fun h x hx => ?_
  · rwa [List.length_replaceF]
  · rcases hall x hx with rfl | ⟨hx, -⟩
    · rw [hturn, hty', ← hty]
      exact h s hmem
    · exact h x hx
end

/-! ## One mapped entry -/

section
variable {start : TurnStartInput} {spec : MappedLlmTurnSpec} {active : Option MappedRun} {b : Bool} {runId : String}
  {frozen : MappedFreezeResult}

/-- Freezing a run gives the entering start its first item. -/
theorem Prepared.enter (h : Prepared d exempt asked p base w) (he : mappedEntry d (w.candidate p) w = some (start, spec))
    (item : MappedTurnItemRef) :
    Prepared d exempt asked p base ((freezeRun active b (w.candidate p) start.turnId runId frozen w).setIteration
      (w.candidate p).selectedTurnId item) := by
  obtain ⟨-, hmem, hty, hkind, hiter, hsel, -⟩ := mappedEntry_some he
  have hm := sameMove_freezeRun active b (w.candidate p) start.turnId runId frozen w
  have hf := h.of_sameMove hm fun ht => Tracked.of_changed (changed_freezeRun active b (w.candidate p) start.turnId
    runId frozen w (ht.changed hmem))
  have hmem' : start ∈ (freezeRun active b (w.candidate p) start.turnId runId frozen w).creates := by
    rw [hm.creates]
    exact hmem
  have hchanged := changed_freezeRun active b (w.candidate p) start.turnId runId frozen w (h.tracked.changed hmem)
  generalize freezeRun active b (w.candidate p) start.turnId runId frozen w = u at hf hmem' hm hchanged
  have hnone : ∀ x ∈ u.creates, x.turnType ≠ .llm →
      (if entersTurn (w.candidate p).selectedTurnId x = true then some { x with iteration := some item } else none) =
        none := by
    intro x _ hx
    exact if_neg (by simp [entersTurn, hx])
  have hsome : (if entersTurn (w.candidate p).selectedTurnId start = true
      then some { start with iteration := some item } else none) = some { start with iteration := some item } := by
    exact if_pos (by simp [entersTurn, hty, hkind, hiter, hsel])
  have hc := creates_replaceCreate u fun s =>
    if entersTurn (w.candidate p).selectedTurnId s then some { s with iteration := some item } else none
  obtain ⟨hllm, -, -, hst⟩ := hf.pointer.llm hmem' hty
  refine ⟨hf.pointer.replace hmem' hty hnone hsome rfl rfl hty hc rfl rfl hst,
    hf.typed.replace hllm hmem' hnone hsome rfl hty hty hc, hf.gated, hf.reach, ?_, hf.records, hf.admission,
    Tracked.of_changed hchanged, fun h0 => ?_, fun _ h0 => ?_⟩
  · exact (cas_replaceCreate _ _).trans hf.cas
  · rw [(hf.idle h0).1] at hmem'
    cases hmem'
  · have hlen := congrArg List.length (hc.symm.trans h0)
    rw [List.length_replaceF] at hlen
    exact absurd (List.length_eq_zero_iff.1 hlen) (List.ne_nil_of_mem hmem')

/-- Taking out the entering start leaves no LLM start. -/
theorem llm_remove_entering {u : Writes} {sel : Option TurnId} (hllm : u.llmCreates = [start])
    (hf : u.creates.find? (entersTurn sel) = some start) :
    (u.removeCreate (entersTurn sel)).llmCreates = [] ∧ (u.removeCreate (entersTurn sel)).creates.length + 1 = u.creates.length := by
  have hty : start.turnType = .llm := (mem_llmCreates.1 (hllm ▸ List.mem_singleton_self start)).2
  obtain ⟨hp, a, b, hab, ha⟩ := List.find?_eq_some_iff_append.1 hf
  have herase : u.creates.eraseP (entersTurn sel) = a ++ b := by
    rw [hab, List.eraseP_append_right _ (fun x hx => by simpa using ha x hx), List.eraseP_cons_of_pos hp]
  have hl : (a ++ start :: b).filter (·.turnType = .llm) = [start] := hab ▸ hllm
  rw [List.filter_append, List.filter_cons_of_pos (by simpa using hty)] at hl
  have hlen := congrArg List.length hl
  simp only [List.length_append, List.length_cons, List.length_nil] at hlen
  constructor
  · rw [Writes.llmCreates, creates_removeCreate, herase, List.filter_append, List.append_eq_nil_iff]
    exact ⟨List.length_eq_zero_iff.1 (by omega), List.length_eq_zero_iff.1 (by omega)⟩
  · rw [creates_removeCreate, herase, hab]
    simp only [List.length_append, List.length_cons]
    omega

/-- An empty run routes on: its start is taken out, and the process left where the route leads. -/
theorem Prepared.route {routed : Writes} {ids : FreshIds} (h : Prepared d exempt asked p base w)
    (he : mappedEntry d (w.candidate p) w = some (start, spec))
    (hr : collectAndRoute d (((freezeRun active b (w.candidate p) start.turnId runId frozen w).removeCreate
      (entersTurn (w.candidate p).selectedTurnId)).candidate p) spec [] ids = .ok routed) :
    Prepared d exempt asked p base (mergeWrites ((freezeRun active b (w.candidate p) start.turnId runId frozen w).removeCreate
      (entersTurn (w.candidate p).selectedTurnId)) routed) := by
  obtain ⟨hfind, hmem, hty, -, -, hsel, hspec⟩ := mappedEntry_some he
  have hm := sameMove_freezeRun active b (w.candidate p) start.turnId runId frozen w
  have hchanged := changed_freezeRun active b (w.candidate p) start.turnId runId frozen w (h.tracked.changed hmem)
  have hf := h.of_sameMove hm fun _ => Tracked.of_changed hchanged
  have hfind' : (freezeRun active b (w.candidate p) start.turnId runId frozen w).creates.find?
      (entersTurn (w.candidate p).selectedTurnId) = some start := by
    rw [hm.creates]
    exact hfind
  have hselu : ((freezeRun active b (w.candidate p) start.turnId runId frozen w).candidate p).selectedTurnId =
      some start.turnId := by
    rw [hm.selected]
    exact hsel
  generalize freezeRun active b (w.candidate p) start.turnId runId frozen w = u at *
  have hmem' : start ∈ u.creates := List.mem_of_find?_eq_some hfind'
  obtain ⟨hllm, hxu, -, -⟩ := hf.pointer.llm hmem' hty
  obtain ⟨hnone, hlen⟩ := llm_remove_entering hllm hfind'
  have hcas := cas_removeCreate u (entersTurn (w.candidate p).selectedTurnId)
  have hsub : (u.removeCreate (entersTurn (w.candidate p).selectedTurnId)).creates.Sublist u.creates := by
    rw [creates_removeCreate]
    exact List.eraseP_sublist
  have hcand : (u.removeCreate (entersTurn (w.candidate p).selectedTurnId)).candidate p = u.candidate p := rfl
  have hchanged' : (u.removeCreate (entersTurn (w.candidate p).selectedTurnId)).changedFields ≠ [] := hchanged
  have hrec : (u.removeCreate (entersTurn (w.candidate p).selectedTurnId)).turnRecordWrites = u.turnRecordWrites := rfl
  have hadm : (u.removeCreate (entersTurn (w.candidate p).selectedTurnId)).waitForAdmission = u.waitForAdmission := rfl
  generalize u.removeCreate (entersTurn (w.candidate p).selectedTurnId) = x at *
  obtain ⟨request, ht, hrep⟩ := collectAndRoute_ok hr (by rw [hcand]; exact hselu) hspec
  have hmerge : (mergeWrites x routed).candidate p = routed.candidate (x.candidate p) := candidate_merge x routed p
  -- the process has an execution, so it waits for nothing
  have hgated : Gated d ((mergeWrites x routed).candidate p) := by
    intro y hy
    rw [hmerge, ht.metadata, hcand] at hy
    have := (hf.gated y hy).2
    rw [hxu] at this
    cases this
  have hchangedm : (mergeWrites x routed).changedFields ≠ [] := fun h0 => hchanged' (foldl_addField_nil h0).1
  have hreach : Reach d (base.candidate p).selectedTurnId ((mergeWrites x routed).candidate p).selectedTurnId := by
    have := ht.reach (by rw [hcand, hselu]; rfl)
    rw [hcand] at this
    rw [hmerge, hcand]
    exact hf.reach.trans this
  have hllmm : (mergeWrites x routed).llmCreates = routed.llmCreates := by
    rw [Writes.llmCreates, creates_merge, List.filter_append]
    show x.llmCreates ++ _ = _
    rw [hnone]
    rfl
  have hcasm : routed.casWrites = [] → (mergeWrites x routed).casWrites = base.casWrites := by
    intro h0
    rw [Writes.casWrites, turnStartWrites_merge, List.filter_append]
    show x.casWrites ++ routed.casWrites = _
    rw [h0, List.append_nil, hcas, hf.cas]
  have hidle : base.creates = [] → False := by
    intro h0
    rw [(hf.idle h0).1] at hmem'
    cases hmem'
  have hrecm : (mergeWrites x routed).turnRecordWrites = base.turnRecordWrites := by
    rw [turnRecordWrites_merge, ht.routes.records, List.append_nil, hrec, hf.records]
  have hadmm : (mergeWrites x routed).waitForAdmission = base.waitForAdmission := by
    rw [waitForAdmission_merge, ht.routes.admission, Option.none_or, hadm, hf.admission]
  rcases ht.replaced hrep with ⟨hs, hx⟩ | ⟨s, hs, hx⟩
  · have hcr : routed.creates = [] := by simp [Writes.creates, hs]
    refine ⟨.cleared ?_ (by rw [hmerge]; exact hx), ?_, hgated, hreach, hcasm ?_, hrecm, hadmm,
      Tracked.of_changed hchangedm, fun h0 => (hidle h0).elim, fun _ _ => by rw [hmerge]; exact hx⟩
    · rw [hllmm, Writes.llmCreates, hcr]
      rfl
    · unfold Typed
      rw [creates_merge, hcr, List.append_nil]
      exact hf.typed.imp (fun h1 => by omega) fun h1 y hy => h1 y (hsub.subset hy)
    · simp [Writes.casWrites, hs]
  · have hcr : routed.creates = [s] := by simp [Writes.creates, hs]
    cases ht.routed with
    | kept h0 => rw [h0] at hs; cases hs
    | cleared h0 => rw [h0] at hs; cases hs
    | reserved s' hs' hx' hsel' hty' hst' =>
      rw [hs'] at hs
      cases hs
      refine ⟨.reserved s ?_ ?_ (by rw [hmerge]; exact hx) (.inl (by rw [hmerge]; exact hsel')) ?_, ?_, hgated, hreach,
        hcasm ?_, hrecm, hadmm, Tracked.of_changed hchangedm, fun h0 => (hidle h0).elim, fun _ h0 => ?_⟩
      · rw [creates_merge, hcr]
        simp
      · rw [hllmm, Writes.llmCreates, hcr, List.filter_singleton]
        simp
      · intro hb he
        rw [hmerge] at he
        exact (hst' hb he).elim
      · unfold Typed
        rw [creates_merge, hcr]
        refine hf.typed.imp (fun h1 => ?_) fun h1 y hy => ?_
        · rw [List.length_append]
          simp only [List.length_cons, List.length_nil]
          omega
        · rcases List.mem_append.1 hy with hy | hy
          · exact h1 y (hsub.subset hy)
          · rw [List.mem_singleton.1 hy]
            exact hty'
      · simp [Writes.casWrites, hs']
      · rw [creates_merge, hcr] at h0
        simp at h0
end

/-- The mapped entries keep what the first deferral prepared. -/
theorem Prepared.mapped {st : Store} (h : Prepared d exempt asked st.process base w)
    (hv : planMappedTurnEntries d ctx st w = .ok v) : Prepared d exempt asked st.process base v := by
  refine planMappedEntries_inv (fun _ w => Prepared d exempt asked st.process base w)
    (Prepared d exempt asked st.process base) ?_ ?_ ?_ ?_ h hv
  · intro _ w hw
    exact hw.defer none ctx.waitId
  · intro b w hw
    exact hw.of_sameMove (sameMove_leaveActiveRun _ _ _ _) tracked_leaveActiveRun
  · intro b w start spec runId frozen first rest hw he _ _
    exact hw.enter he _
  · intro b w start spec runId frozen k routed hw he _ _ hr
    exact hw.route he hr

end Leitwerk.Engine
