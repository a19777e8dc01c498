import Leitwerk.Engine.Movement
/-!
# What is known of a start from its origin on

`record` puts starts off, takes them out again, gives them an item and prepares
their model, and empty mapped turns route on to new starts. What the preparation
of a start leaves alone is decided where the start comes from: in the operation
that creates it, or in a wait that an earlier one left (`prepareWrites_sourced`).
-/

namespace Leitwerk.Engine

variable {d : ProcessDefinition} {ctx : Context} {st : Store} {p : Process} {w v : Writes} {ids : FreshIds}
  {P : TurnStartInput → Prop}

/-- A property of starts that neither their state nor their item decides, and that a start
reserved for a selected turn has. -/
structure Sourceable (P : TurnStartInput → Prop) : Prop where
  state : ∀ s state, P s → P { s with state := state }
  item : ∀ s iteration, P s → P { s with iteration := iteration }
  reserved : ∀ ids s, Reserved ids s → P s

/-- Every start the writes create or put off has the property. -/
structure Sourced (P : TurnStartInput → Prop) (p : Process) (w : Writes) : Prop where
  creates : ∀ s ∈ w.creates, P s
  wait : ∀ x, (w.candidate p).metadata.turnWait = some x → P x.start

theorem Sourced.of_same (h : Sourced P p w) (hs : v.turnStartWrites = w.turnStartWrites)
    (hm : (v.candidate p).metadata = (w.candidate p).metadata) : Sourced P p v where
  creates := by rw [creates_of_starts hs]; exact h.creates
  wait := by rw [hm]; exact h.wait

theorem Sourced.of_sameMove (h : Sourced P p w) (hm : SameMove w v) : Sourced P p v := h.of_same hm.starts (hm.metadata p)

theorem Sourced.of_wait (h : Sourced P p w) {x : PendingTurnWait} (hs : ∀ s ∈ v.creates, s ∈ w.creates)
    (hw : (v.candidate p).metadata.turnWait = some x ∨ (v.candidate p).metadata.turnWait = (w.candidate p).metadata.turnWait)
    (hx : P x.start) : Sourced P p v := by
  refine ⟨fun s hs' => h.creates s (hs s hs'), fun y hy => ?_⟩
  rcases hw with hw | hw
  · rw [hw, Option.some.injEq] at hy
    subst hy
    exact hx
  · exact h.wait y (hw ▸ hy)

theorem Sourced.dropStale (h : Sourced P p w) : Sourced P p (dropStaleTurnWait p w) := by
  rcases dropStale_cases p w with ⟨hv, -⟩ | ⟨hv, -⟩
  · rw [hv]
    exact h
  · rw [hv]
    refine ⟨by rw [creates_of_starts (starts_writeTurnWait w p none)]; exact h.creates, fun x hx => ?_⟩
    rcases wait_writeTurnWait w p none with hn | hn
    · rw [hn] at hx
      cases hx
    · exact h.wait x (hn ▸ hx)

/-- A deferral keeps the old wait or puts off a start of the writes. -/
theorem Sourced.defer (h : Sourced P p w) (hp : ∀ x, p.metadata.turnWait = some x → P x.start)
    (metadata : Option DecisionMetadata) (waitId : String) : Sourced P p (deferTurnWaitStarts d p metadata waitId w) := by
  rcases deferral_cases d p metadata waitId w with ⟨hv, -⟩ | ⟨hv, -⟩ | ⟨start, hf, -, -, -, hv⟩ <;> rw [hv]
  · exact h.dropStale
  · exact h
  · refine h.of_wait (x := deferredWait p start metadata waitId) (fun s hs => ?_) ?_ ?_
    · rw [creates_deferStart] at hs
      exact List.mem_of_mem_eraseP hs
    · rw [candidate_deferStart]
      rcases wait_writeTurnWait (w.removeCreate fun s => some s.turnId == (w.candidate p).selectedTurnId) p
        (some (deferredWait p start metadata waitId)) with h | h
      · exact .inl h
      · exact .inr (congrArg (·.metadata.turnWait) h)
    · unfold deferredWait
      dsimp only
      split
      · rename_i previous hprev
        split
        · exact hp previous hprev
        · exact h.creates start (List.mem_of_find?_eq_some hf)
      · exact h.creates start (List.mem_of_find?_eq_some hf)

theorem mem_replaceF {α : Type} {f : α → Option α} {l : List α} {a : α} (h : a ∈ l.replaceF f) :
    a ∈ l ∨ ∃ b ∈ l, f b = some a := by
  induction l with
  | nil => cases h
  | cons b l ih =>
    rw [List.replaceF] at h
    split at h
    · rcases List.mem_cons.1 h with rfl | h
      · exact .inl List.mem_cons_self
      · rcases ih h with h | ⟨c, hc, hf⟩
        · exact .inl (List.mem_cons_of_mem _ h)
        · exact .inr ⟨c, List.mem_cons_of_mem _ hc, hf⟩
    · rename_i b' hb
      rcases List.mem_cons.1 h with rfl | h
      · exact .inr ⟨b, List.mem_cons_self, hb⟩
      · exact .inl (List.mem_cons_of_mem _ h)

/-- Replacing a start by one with the property. -/
theorem Sourced.replace (h : Sourced P p w) {f : TurnStartInput → Option TurnStartInput}
    (hf : ∀ s s', P s → f s = some s' → P s') : Sourced P p (w.replaceCreate f) := by
  refine ⟨fun s hs => ?_, h.wait⟩
  rw [creates_replaceCreate] at hs
  rcases mem_replaceF hs with hs | ⟨s', hs', hfs⟩
  · exact h.creates s hs
  · exact hf s' s (h.creates s' hs') hfs

/-- The route of an empty mapped turn reserves starts of its own. -/
theorem Sourced.route (hP : Sourceable P) {u routed : Writes} (h : Sourced P p u) (hr : Routes (u.candidate p) ids routed) :
    Sourced P p (mergeWrites u routed) := by
  refine ⟨fun s hs => ?_, fun x hx => ?_⟩
  · rw [creates_merge] at hs
    rcases List.mem_append.1 hs with hs | hs
    · exact h.creates s hs
    · exact hP.reserved ids s (hr.starts s hs)
  · rw [candidate_merge] at hx
    rcases hr.wait with hw | hw <;> rw [hw] at hx
    · exact h.wait x hx
    · cases hx

theorem Sourced.mapped (hP : Sourceable P) (h : Sourced P st.process w)
    (hp : ∀ x, st.process.metadata.turnWait = some x → P x.start) (hv : planMappedTurnEntries d ctx st w = .ok v) :
    Sourced P st.process v := by
  refine planMappedEntries_inv (fun _ w => Sourced P st.process w) (Sourced P st.process) ?_ ?_ ?_ ?_ h hv
  · intro _ w hw
    exact hw.defer hp none ctx.waitId
  · intro b w hw
    exact hw.of_sameMove (sameMove_leaveActiveRun _ _ _ _)
  · intro b w start spec runId frozen first rest hw _ _ _
    apply (hw.of_sameMove (sameMove_freezeRun st.activeMappedRun b (w.candidate st.process) start.turnId runId frozen w)).replace
    intro s s' hs hs'
    split at hs'
    · cases hs'
      exact hP.item s _ hs
    · cases hs'
  · intro b w start spec runId frozen k routed hw he hf hnil hr
    obtain ⟨-, -, -, -, -, hsel, hspec⟩ := mappedEntry_some he
    have hm := sameMove_freezeRun st.activeMappedRun b (w.candidate st.process) start.turnId runId frozen w
    have hu := hw.of_sameMove hm
    -- the entering start goes, and the route of the empty run comes
    have hu' : Sourced P st.process
        ((freezeRun st.activeMappedRun b (w.candidate st.process) start.turnId runId frozen w).removeCreate
          (entersTurn (w.candidate st.process).selectedTurnId)) := by
      refine ⟨fun s hs => ?_, hu.wait⟩
      rw [creates_removeCreate] at hs
      exact hu.creates s (List.mem_of_mem_eraseP hs)
    obtain ⟨request, ht, -⟩ := collectAndRoute_ok hr ((hm.selected _).trans hsel) hspec
    exact hu'.route hP ht.routes

/-- Model preparation changes only the states of starts. -/
theorem Sourced.model (hP : Sourceable P) {metadata : Option DecisionMetadata} (h : Sourced P p w)
    (hv : runModelPreparation d ctx p metadata w = .ok v) : Sourced P p v := by
  have hflight : ∀ {u : Writes}, SameMove w u → Preflighted ctx p u v → Sourced P p v := by
    intro u hu huv
    have hu' := h.of_sameMove hu
    cases huv with
    | skipped hp hv => exact hv ▸ hu'
    | prepared pf hp hv =>
      obtain ⟨hset, ws, hws, hsettles⟩ := prepareTurnStarts_ok hv
      refine ⟨fun s hs => ?_, by rw [hset.metadata]; exact hu'.wait⟩
      rw [Writes.creates, hws, List.nil_append] at hs
      obtain ⟨s', hs', hsame⟩ := exists_of_forall₂ (creates_settles hsettles).1 hs
      rcases hsame with rfl | ⟨-, state, rfl⟩
      · exact hu'.creates s hs'
      · exact hP.state s' state (hu'.creates s' hs')
  cases runModelPreparation_ok hv with
  | kept hv => exact hflight .refl hv
  | selected id provenance hv => exact hflight (.modelSelection p id provenance) hv
  | parked s hs summary hv =>
    subst hv
    have hr := h.replace (f := invalidModelStart (w.candidate p) summary) (by
      intro s s' hs hs'
      unfold invalidModelStart at hs'
      dsimp only at hs'
      split at hs'
      · cases hs'
        exact hP.state s _ hs
      · cases hs')
    refine hr.of_same ?_ ?_
    · exact turnStartWrites_apply _ _ _ _
    · exact metadata_applyLifecycle _

/-- What holds of the starts of a decision and of the wait that is pending holds of the starts
that `record` commits, which have begun their episode, and of the wait that is left. -/
theorem prepareWrites_sourced (hP : Sourceable P) {decision : Decision} (hv : prepareWrites d ctx st decision = .ok v)
    (hp : ∀ x, st.process.metadata.turnWait = some x → P x.start) (h : Sourced P st.process decision.writes) :
    ∃ w, Sourced P st.process w ∧ v = startEpisodes w := by
  obtain ⟨w₂, w₄, hm, hr, rfl⟩ := prepareWrites_steps hv
  have h₂ := (h.defer hp decision.metadata ctx.waitId).mapped hP hp hm
  exact ⟨w₄, (h₂.defer hp decision.metadata ctx.waitId).model hP hr, rfl⟩

end Leitwerk.Engine
