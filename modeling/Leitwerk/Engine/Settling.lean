import Leitwerk.Engine.Pipeline
/-!
# Settling the starts of a decision

Model selection and preflight change the states of created LLM starts, the model
columns and the lifecycle status of the process; the begun episodes change
nothing else. `prepareWrites_ok` puts all stages of `record` together.
-/

namespace Leitwerk.Engine

variable {d : ProcessDefinition} {ctx : Context} {p : Process} {w v base : Writes} {exempt asked : TurnId → Prop}

/-! ## Preflight -/

/-- How preflight settles one start write: only an LLM start's state changes. -/
inductive Settles : TurnStartWrite → TurnStartWrite → Prop
  | same (x : TurnStartWrite) : Settles x x
  | state (s : TurnStartInput) (state : InitialStartState) (hty : s.turnType = .llm) :
    Settles (.create s) (.create { s with state := state })

/-- What preflight leaves alone. -/
structure Settled (w v : Writes) : Prop where
  records : v.turnRecordWrites = w.turnRecordWrites
  admission : v.waitForAdmission = w.waitForAdmission
  mapped : v.mappedRunWrites = w.mappedRunWrites
  selected : ∀ p, (v.candidate p).selectedTurnId = (w.candidate p).selectedTurnId
  current : ∀ p, (v.candidate p).currentExecution = (w.candidate p).currentExecution
  metadata : ∀ p, (v.candidate p).metadata = (w.candidate p).metadata
  changed : v.changedFields = w.changedFields

theorem Settled.refl (w : Writes) : Settled w w := ⟨rfl, rfl, rfl, fun _ => rfl, fun _ => rfl, fun _ => rfl, rfl⟩

theorem Settled.trans {u : Writes} (h : Settled w v) (h' : Settled v u) : Settled w u where
  records := h'.records.trans h.records
  admission := h'.admission.trans h.admission
  mapped := h'.mapped.trans h.mapped
  selected p := (h'.selected p).trans (h.selected p)
  current p := (h'.current p).trans (h.current p)
  metadata p := (h'.metadata p).trans (h.metadata p)
  changed := h'.changed.trans h.changed

theorem settled_write (s : PreparedStart) (w : Writes) : Settled w (s.write w) := by
  cases hs : s.selection with
  | none => refine ⟨rfl, rfl, rfl, fun p => ?_, fun p => ?_, fun p => ?_, rfl⟩ <;>
      simp [PreparedStart.write, selectionPatch, hs, Writes.candidate, ProcessPatch.apply, ProcessPatch.assign]
  | some sel => refine ⟨rfl, rfl, rfl, fun p => ?_, fun p => ?_, fun p => ?_, rfl⟩ <;>
      simp [PreparedStart.write, selectionPatch, hs, Writes.candidate, ProcessPatch.apply, ProcessPatch.assign]

variable {pf : Process → TurnStartInput → PreflightVerdict} {next : Process} {done ws : List TurnStartWrite}

theorem prepareTurnStarts_ok (h : prepareTurnStarts pf next done w ws = .ok v) :
    Settled w v ∧ ∃ ws', v.turnStartWrites = done ++ ws' ∧ List.Forall₂ Settles ws ws' := by
  induction ws generalizing next done w with
  | nil =>
    cases h
    exact ⟨⟨rfl, rfl, rfl, fun _ => rfl, fun _ => rfl, fun _ => rfl, rfl⟩, [], (List.append_nil _).symm, .nil⟩
  | cons x ws ih =>
    cases x with
    | create s =>
      unfold prepareTurnStarts at h
      by_cases hty : s.turnType = .llm
      · rw [if_pos hty] at h
        cases hp : prepareStart (pf next s) s with
        | error e => rw [hp] at h; cases h
        | ok prepared =>
          rw [hp] at h
          obtain ⟨hset, ws', hv, hall⟩ := ih h
          refine ⟨(settled_write prepared w).trans hset, _, by rw [hv, List.append_assoc]; rfl, .cons ?_ hall⟩
          cases hq : pf next s with
          | parkFailure failure selection => rw [hq] at hp; cases hp; exact .state s _ hty
          | prepared start selection => rw [hq] at hp; cases hp; exact .state s _ hty
          | reject why => rw [hq] at hp; cases hp
      · rw [if_neg hty] at h
        obtain ⟨hset, ws', hv, hall⟩ := ih h
        exact ⟨hset, _, by rw [hv, List.append_assoc]; rfl, .cons (.same _) hall⟩
    | casState id kind state retry =>
      obtain ⟨hset, ws', hv, hall⟩ := ih (by unfold prepareTurnStarts at h; exact h)
      exact ⟨hset, _, by rw [hv, List.append_assoc]; rfl, .cons (.same _) hall⟩

/-- Without an LLM start, preflight has nothing to do. -/
theorem prepareTurnStarts_none (hno : ∀ s, .create s ∈ ws → s.turnType ≠ .llm) :
    prepareTurnStarts pf next done w ws = .ok { w with turnStartWrites := done ++ ws } := by
  induction ws generalizing done with
  | nil =>
    rw [List.append_nil]
    rfl
  | cons x ws ih =>
    have hrest : prepareTurnStarts pf next (done ++ [x]) w ws = .ok { w with turnStartWrites := done ++ [x] ++ ws } :=
      ih fun s hs => hno s (List.mem_cons_of_mem _ hs)
    rw [List.append_assoc] at hrest
    cases x with
    | create s =>
      unfold prepareTurnStarts
      rw [if_neg (hno s List.mem_cons_self)]
      exact hrest
    | casState id kind state retry =>
      unfold prepareTurnStarts
      exact hrest

/-- The one LLM start is settled, and its lifecycle status with it. -/
theorem prepareTurnStarts_one {s : TurnStartInput} (hl : (ws.filterMap (·.create?)).filter (·.turnType = .llm) = [s])
    (h : prepareTurnStarts pf next done w ws = .ok v) :
    ∃ s', prepareStart (pf next s) s = .ok s' ∧ (v.candidate p).lifecycleStatus = s'.lifecycleStatus ∧
      .create s'.start ∈ v.turnStartWrites := by
  induction ws generalizing next done with
  | nil => cases hl
  | cons x ws ih =>
    cases x with
    | create r =>
      rw [List.filterMap_cons_some (create?_create r)] at hl
      unfold prepareTurnStarts at h
      by_cases hty : r.turnType = .llm
      · rw [if_pos hty] at h
        rw [List.filter_cons_of_pos (by simpa using hty)] at hl
        obtain ⟨rfl, hnil⟩ := List.cons_eq_cons.1 hl
        cases hp : prepareStart (pf next r) r with
        | error e => rw [hp] at h; cases h
        | ok prepared =>
          rw [hp] at h
          replace h : prepareTurnStarts pf _ _ _ ws = Except.ok v := h
          have hno : ∀ y, .create y ∈ ws → y.turnType ≠ .llm := by
            intro y hy hyty
            have : y ∈ (ws.filterMap (·.create?)).filter (·.turnType = .llm) :=
              List.mem_filter.2 ⟨List.mem_filterMap.2 ⟨_, hy, rfl⟩, by simpa using hyty⟩
            rw [hnil] at this
            cases this
          rw [prepareTurnStarts_none hno] at h
          cases h
          exact ⟨prepared, rfl, rfl, List.mem_append_left _ (List.mem_append_right _ List.mem_cons_self)⟩
      · rw [if_neg hty] at h
        rw [List.filter_cons_of_neg (by simpa using hty)] at hl
        exact ih hl h
    | casState id kind state retry =>
      unfold prepareTurnStarts at h
      exact ih hl h

/-! ## The prepared starts -/

/-- A start before and after preflight. -/
def SettledStart (s s' : TurnStartInput) : Prop :=
  s' = s ∨ s.turnType = .llm ∧ ∃ state, s' = { s with state := state }

theorem SettledStart.key {s s' : TurnStartInput} (h : SettledStart s s') :
    s'.id = s.id ∧ s'.turnId = s.turnId ∧ s'.turnType = s.turnType := by
  rcases h with rfl | ⟨-, state, rfl⟩ <;> exact ⟨rfl, rfl, rfl⟩

theorem exists_of_forall₂ {α : Type} {R : α → α → Prop} {l l' : List α} {b : α} (h : List.Forall₂ R l l') (hb : b ∈ l') :
    ∃ a ∈ l, R a b := by
  induction h with
  | nil => cases hb
  | @cons x y l l' hxy _ ih =>
    rcases List.mem_cons.1 hb with rfl | hb
    · exact ⟨x, List.mem_cons_self, hxy⟩
    · obtain ⟨a, ha, hab⟩ := ih hb
      exact ⟨a, List.mem_cons_of_mem _ ha, hab⟩

theorem creates_settles {ws ws' : List TurnStartWrite} (h : List.Forall₂ Settles ws ws') :
    List.Forall₂ SettledStart (ws.filterMap (·.create?)) (ws'.filterMap (·.create?)) ∧
      ws'.filter (·.create?.isNone) = ws.filter (·.create?.isNone) := by
  induction h with
  | nil => exact ⟨.nil, rfl⟩
  | cons hx _ ih =>
    cases hx with
    | same =>
      rename_i x _ _ _
      cases x with
      | create s => exact ⟨.cons (.inl rfl) ih.1, ih.2⟩
      | casState => exact ⟨ih.1, congrArg (_ :: ·) ih.2⟩
    | state s state hty => exact ⟨.cons (.inr ⟨hty, state, rfl⟩) ih.1, ih.2⟩

theorem llm_settles {l l' : List TurnStartInput} (h : List.Forall₂ SettledStart l l') :
    List.Forall₂ SettledStart (l.filter (·.turnType = .llm)) (l'.filter (·.turnType = .llm)) := by
  induction h with
  | nil => exact .nil
  | @cons s s' l l' hs _ ih =>
    have hty : s'.turnType = s.turnType := hs.key.2.2
    by_cases hl : s.turnType = .llm
    · rw [List.filter_cons_of_pos (by simpa using hl), List.filter_cons_of_pos (by simpa [hty] using hl)]
      exact .cons hs ih
    · rw [List.filter_cons_of_neg (by simpa using hl), List.filter_cons_of_neg (by simpa [hty] using hl)]
      exact ih

theorem typed_settles (h : List.Forall₂ SettledStart w.creates v.creates) (ht : Typed d w) : Typed d v := by
  refine ht.imp (fun h1 => by rwa [← h.length_eq]) fun h1 s hs => ?_
  obtain ⟨r, hr, hrs⟩ := exists_of_forall₂ h hs
  rw [hrs.key.2.1, hrs.key.2.2]
  exact h1 r hr

theorem prepareStart_ok {verdict : PreflightVerdict} {s : TurnStartInput} {s' : PreparedStart}
    (h : prepareStart verdict s = .ok s') :
    (∃ state, s'.start = { s with state := state }) ∧ (s'.start.begins = true → s'.lifecycleStatus = .active) := by
  cases verdict with
  | parkFailure failure selection =>
    cases h
    exact ⟨⟨_, rfl⟩, nofun⟩
  | prepared start selection =>
    cases h
    exact ⟨⟨_, rfl⟩, fun _ => rfl⟩
  | reject why => cases h

/-- Preflight settles the one LLM start of a decision. -/
theorem Prepared.preflight {next : Process} (h : Prepared d exempt asked p base w)
    (hv : prepareTurnStarts pf next [] w w.turnStartWrites = .ok v) : Prepared d exempt asked p base v := by
  by_cases hno : w.llmCreates = []
  · have : ∀ s, .create s ∈ w.turnStartWrites → s.turnType ≠ .llm := by
      intro s hs hty
      have : s ∈ w.llmCreates := mem_llmCreates.2 ⟨mem_creates.2 hs, hty⟩
      rw [hno] at this
      cases this
    rw [prepareTurnStarts_none this] at hv
    cases hv
    exact h
  · obtain ⟨s, hs⟩ := List.exists_mem_of_ne_nil _ hno
    obtain ⟨hmem, hty⟩ := mem_llmCreates.1 hs
    obtain ⟨hllm, hx, hsel, -⟩ := h.pointer.llm hmem hty
    obtain ⟨hset, ws', hws, hall⟩ := prepareTurnStarts_ok hv
    rw [List.nil_append] at hws
    rw [← hws] at hall
    obtain ⟨hcreates, hcas⟩ := creates_settles hall
    obtain ⟨s', hprep, hlife, hmem'⟩ := prepareTurnStarts_one (p := p) hllm hv
    obtain ⟨hstate, hbegins⟩ := prepareStart_ok hprep
    have hkey : SettledStart s s'.start := .inr ⟨hty, hstate⟩
    -- the one LLM start of the settled writes is the one that was settled
    have hl' : List.Forall₂ SettledStart [s] v.llmCreates := hllm ▸ llm_settles hcreates
    have hstart : s'.start ∈ v.llmCreates :=
      mem_llmCreates.2 ⟨mem_creates.2 hmem', hkey.key.2.2.trans hty⟩
    have hone : v.llmCreates = [s'.start] := by
      obtain ⟨r, hr⟩ := List.length_eq_one_iff.1 hl'.length_eq.symm
      rw [hr] at hstart ⊢
      rw [List.mem_singleton.1 hstart]
    refine ⟨.reserved s'.start (mem_llmCreates.1 hstart).1 ?_ ?_ ?_ ?_, typed_settles hcreates h.typed, ?_, ?_,
      hcas.trans h.cas, hset.records.trans h.records, hset.admission.trans h.admission,
      Tracked.of_changed ?_, fun h0 => ?_, fun _ h0 => ?_⟩
    · rw [if_pos (hkey.key.2.2.trans hty)]
      exact hone
    · rw [hset.current, hx, hkey.key.1]
    · rw [hset.selected, hkey.key.2.1]
      refine hsel.imp_right fun ⟨h1, h2, h3, h4⟩ => ⟨h1, h2, ?_, h4⟩
      have hlen := hcreates.length_eq
      rw [← Writes.creates, h3] at hlen
      obtain ⟨r, hr⟩ := List.length_eq_one_iff.1 hlen.symm
      have hmem'' := (mem_llmCreates.1 hstart).1
      rw [Writes.creates, hr] at hmem'' ⊢
      rw [List.mem_singleton.1 hmem'']
    · intro hb he
      rw [hlife, hbegins hb] at he
      cases he
    · unfold Gated
      rw [hset.metadata, hset.current]
      exact h.gated
    · rw [hset.selected]
      exact h.reach
    · rw [hset.changed]
      exact h.tracked.changed hmem
    · rw [(h.idle h0).1] at hmem
      cases hmem
    · exact absurd h0 (List.ne_nil_of_mem (mem_llmCreates.1 hstart).1)

/-! ## Model preparation -/

theorem tracked_writeModelSelection (h : Tracked p w) (q : Process) (id : Option String)
    (provenance : Option ModelSelectionProvenance) : Tracked p (writeModelSelection w q id provenance) :=
  ((h.apply _).apply _).apply _

theorem Prepared.select (h : Prepared d exempt asked p base w) (q : Process) (id : Option String)
    (provenance : Option ModelSelectionProvenance) :
    Prepared d exempt asked p base (writeModelSelection w q id provenance) :=
  h.of_sameMove (.modelSelection q id provenance) fun ht => tracked_writeModelSelection ht q id provenance

/-- An invalid model configuration parks the one LLM start. -/
theorem Prepared.parkInvalid {s : TurnStartInput} (h : Prepared d exempt asked p base w) (hs : w.createdLlmStart = some s)
    (summary : String) :
    Prepared d exempt asked p base (parkInvalidModelConfiguration w (w.candidate p) summary) := by
  obtain ⟨hmem, hty⟩ := mem_of_find hs
  rw [beq_iff_eq] at hty
  obtain ⟨hllm, -, -, -⟩ := h.pointer.llm hmem hty
  have hfs : ∃ failure, invalidModelStart (w.candidate p) summary s = some { s with state := .preparationFailed failure } :=
    ⟨_, if_pos hty⟩
  obtain ⟨failure, hfs⟩ := hfs
  have hnone : ∀ x ∈ w.creates, x.turnType ≠ .llm → invalidModelStart (w.candidate p) summary x = none :=
    fun x _ hx => if_neg hx
  generalize hf : invalidModelStart (w.candidate p) summary = f at hfs hnone
  generalize hv : parkInvalidModelConfiguration w (w.candidate p) summary = v
  unfold parkInvalidModelConfiguration at hv
  rw [hf] at hv
  have hstarts : v.turnStartWrites = (w.replaceCreate f).turnStartWrites := by
    rw [← hv]
    exact turnStartWrites_apply _ _ _ _
  have hc : v.creates = w.creates.replaceF f := (creates_of_starts hstarts).trans (creates_replaceCreate w f)
  have hx : (v.candidate p).currentExecution = (w.candidate p).currentExecution := by
    rw [← hv]
    exact currentExecution_applyLifecycle _
  have hsel : (v.candidate p).selectedTurnId = (w.candidate p).selectedTurnId := by
    rw [← hv]
    exact selectedTurnId_applyLifecycle _
  have hmeta : (v.candidate p).metadata = (w.candidate p).metadata := by
    rw [← hv]
    exact metadata_applyLifecycle _
  refine ⟨h.pointer.replace hmem hty hnone hfs rfl rfl hty hc hx hsel nofun,
    h.typed.replace hllm hmem hnone hfs rfl hty hty hc, ?_, ?_, ?_, ?_, ?_, Tracked.of_changed ?_, fun h0 => ?_,
    fun _ h0 => ?_⟩
  · unfold Gated
    rw [hmeta, hx]
    exact h.gated
  · rw [hsel]
    exact h.reach
  · rw [Writes.casWrites, hstarts]
    exact (cas_replaceCreate w f).trans h.cas
  · rw [← hv]
    exact (turnRecordWrites_apply _ _ _ _).trans h.records
  · rw [← hv]
    exact (waitForAdmission_apply _ _ _ _).trans h.admission
  · rw [← hv]
    exact changed_apply (w := w.replaceCreate f) (h.tracked.changed hmem) LifecycleStatus.error
  · rw [(h.idle h0).1] at hmem
    cases hmem
  · have hlen := congrArg List.length (hc.symm.trans h0)
    rw [List.length_replaceF] at hlen
    exact absurd (List.length_eq_zero_iff.1 hlen) (List.ne_nil_of_mem hmem)

theorem Prepared.model {metadata : Option DecisionMetadata} (h : Prepared d exempt asked p base w)
    (hv : runModelPreparation d ctx p metadata w = .ok v) : Prepared d exempt asked p base v := by
  have hflight : ∀ {u : Writes}, Prepared d exempt asked p base u → Preflighted ctx p u v → Prepared d exempt asked p base v := by
    intro u hu huv
    cases huv with
    | skipped hp hv => exact hv ▸ hu
    | prepared preflight hp hv => exact hu.preflight hv
  cases runModelPreparation_ok hv with
  | kept hv => exact hflight h hv
  | selected id provenance hv => exact hflight (h.select p id provenance) hv
  | parked s hs summary hv => exact hv ▸ h.parkInvalid hs summary

/-! ## Episodes -/

/-- A start with its recovery episode. -/
def beginEpisode (s : TurnStartInput) : TurnStartInput :=
  { s with automaticRetry := s.automaticRetry.or (some ⟨s.id, 1, none⟩) }

theorem startEpisodes_eq (w : Writes) : startEpisodes w = w.mapCreates beginEpisode := rfl

theorem creates_startEpisodes (w : Writes) : (startEpisodes w).creates = w.creates.map beginEpisode :=
  creates_mapCreates w beginEpisode

theorem llm_startEpisodes (w : Writes) : (startEpisodes w).llmCreates = w.llmCreates.map beginEpisode := by
  rw [Writes.llmCreates, creates_startEpisodes, List.filter_map]
  rfl

theorem Prepared.episodes (h : Prepared d exempt asked p base w) : Prepared d exempt asked p base (startEpisodes w) := by
  have hc := creates_startEpisodes w
  refine ⟨?_, ?_, h.gated, h.reach, (cas_mapCreates w _).trans h.cas, h.records, h.admission, ?_, fun h0 => ?_,
    fun hne h0 => h.moved hne (List.map_eq_nil_iff.1 (hc.symm.trans h0))⟩
  · cases h.pointer with
    | kept hs hx => exact .kept (by rw [hc, hs]; rfl) hx
    | cleared hs hx => exact .cleared (by rw [llm_startEpisodes, hs]; rfl) hx
    | reserved s hs hllm hx hsel hst =>
      refine .reserved (beginEpisode s) (by rw [hc]; exact List.mem_map_of_mem hs) ?_ hx ?_ hst
      · rw [llm_startEpisodes, hllm]
        show _ = if s.turnType = .llm then [beginEpisode s] else []
        split <;> rfl
      · refine hsel.imp_right fun ⟨h1, h2, h3, h4⟩ => ⟨h1, h2, ?_, h4⟩
        rw [hc, h3]
        rfl
  · unfold Typed
    rw [hc, List.length_map]
    refine h.typed.imp_right fun h1 s hs => ?_
    obtain ⟨r, hr, rfl⟩ := List.mem_map.1 hs
    exact h1 r hr
  · intro h0
    obtain ⟨hp, hw⟩ := h.tracked h0
    exact ⟨hp, by rw [hc, hw]; rfl⟩
  · obtain ⟨h1, h2⟩ := h.idle h0
    exact ⟨by rw [hc, h1]; rfl, h2⟩

/-! ## All stages -/

/-- What `record` commits for a decision. -/
theorem prepareWrites_ok {st : Store} {decision : Decision} (h : prepareWrites d ctx st decision = .ok v)
    (hp : st.process.metadata.turnWait.isSome = true → st.process.currentExecution = none)
    (hpt : Pointer exempt asked st.process decision.writes) (hty : Typed d decision.writes)
    (hw : WaitOk d st.process decision.writes) (ht : Tracked st.process decision.writes)
    (hex : ∀ t, exempt t → ¬ asked t) :
    Prepared d exempt (fun t => asked t ∧ turnWaitPredicate d (some t) = false) st.process decision.writes v := by
  obtain ⟨w₂, w₄, hm, hr, rfl⟩ := prepareWrites_steps h
  have h₁ := prepared_first hp hpt hty hw ht hex decision.metadata ctx.waitId
  have h₂ := (h₁.mapped hm).defer decision.metadata ctx.waitId
  exact (h₂.model hr).episodes

end Leitwerk.Engine
