import Leitwerk.Protocol.LiveTurnReplay
/-!
# Replay and restore agree with direct application

`Alike.next` is the step: two projections of one turn stay alike when an event
is recorded under calls at the same place. Canonical data names the call, so the
runs of `Alike.canonical` never part. Events as they arrived are recorded at the
same place while no event names an identity that only one side has made up.
-/

namespace Leitwerk.Protocol.LiveTurn

open JsString (lit)

variable {α : Type} {P : Presentation α} {M : JsString → JsString → Prop}

/-! ## One event -/

/-- `e'` is `e`, up to the call its payload names. -/
structure Follows (e e' : Event) : Prop where
  eventType : e'.eventType = e.eventType
  fallback : e'.fallbackTimestamp = e.fallbackTimestamp
  data : ∀ key, key ≠ "toolCallId" → e'.data.lookup key = e.data.lookup key
  same : isToolEvent e.eventType = false → e'.data = e.data

theorem Follows.refl (e : Event) : Follows e e := ⟨rfl, rfl, fun _ _ => rfl, fun _ => rfl⟩

theorem canonicalData_lookup (s : State) (e : Event) {key : String} (h : key ≠ "toolCallId") :
    (s.canonicalData e).lookup key = e.data.lookup key := by
  unfold State.canonicalData
  split
  · split
    · rfl
    · exact lookup_set_ne _ _ h
  · rfl

theorem follows_canonical (s : State) (e : Event) : Follows e { e with data := s.canonicalData e } := by
  refine ⟨rfl, rfl, fun key h => canonicalData_lookup s e h, ?_⟩
  intro h
  simp [State.canonicalData, h]

/-- Canonical data names the call, for every projection that reads it. -/
theorem canonical_target {s : State} (hs : s.WellFormed) {e : Event} (he : isToolEvent e.eventType) (t : State) :
    (t.target { e with data := s.canonicalData e }).1 = (s.target e).1 := by
  have hread : readToolCallId (s.canonicalData e) = some (s.target e).1 := by
    unfold State.canonicalData
    rw [if_pos he]
    split
    · assumption
    · exact readToolCallId_set _ (hs.target he).1
  simp [State.target, canonicalizeToolCallId, hread]

theorem Follows.reads {e e' : Event} (h : Follows e e') :
    readTimestamp e'.data e'.fallbackTimestamp = readTimestamp e.data e.fallbackTimestamp ∧
      readToolName e'.data = readToolName e.data := by
  unfold readTimestamp readToolName
  rw [h.data "timestamp" (by decide), h.data "name" (by decide), h.data "toolName" (by decide), h.fallback]
  exact ⟨rfl, rfl⟩

/-- An event that is recorded under calls at the same place keeps two
projections alike. -/
theorem Alike.next {s t : State} (h : Alike P M s t) (hs : s.WellFormed) (ht : t.WellFormed) (host : Host) {e e' : Event}
    (hf : Follows e e')
    (htarget : isToolEvent e.eventType → M (s.target e).1 (t.target e').1 ∧ SamePlace (s.target e).1 (t.target e').1 s t) :
    Alike P M (s.next host e) (t.next host e') := by
  obtain ⟨htime, hname⟩ := hf.reads
  unfold State.next
  simp only [hf.eventType, htime, hname]
  by_cases htool : isToolEvent e.eventType
  · have hdelta : e.eventType ≠ "pi.stream.delta" := by
      intro heq
      rw [heq] at htool
      exact absurd htool (by decide)
    rw [if_neg hdelta, if_neg hdelta, if_pos htool, if_pos htool]
    obtain ⟨hM, hplace⟩ := htarget htool
    have hs' : { s with nextFallbackOrdinal := (s.target e).2 }.WellFormed :=
      ⟨hs.unique, hs.items, hs.trimmed, (hs.target htool).2⟩
    have ht' : { t with nextFallbackOrdinal := (t.target e').2 }.WellFormed :=
      ⟨ht.unique, ht.items, ht.trimmed, (ht.target (by rw [hf.eventType]; exact htool)).2⟩
    have hdata : ∀ key, key ≠ "toolCallId" → (s.canonicalData e).lookup key = (t.canonicalData e').lookup key := by
      intro key hkey
      rw [canonicalData_lookup s e hkey, canonicalData_lookup t e' hkey, hf.data key hkey]
    have hcounted : Alike P M { s with nextFallbackOrdinal := (s.target e).2 }
        { t with nextFallbackOrdinal := (t.target e').2 } := ⟨h.assistant, h.usage, h.calls, h.items⟩
    apply hcounted.recordTool hs' ht' _ hplace hM
    · unfold readToolArguments
      rw [hdata "arguments" (by decide), hdata "args" (by decide)]
    · exact hdata "result" (by decide)
    · exact hdata "isError" (by decide)
  · have hsame : e'.data = e.data := hf.same (by simpa using htool)
    simp only [hsame, hf.fallback, htool, if_false, Bool.false_eq_true]
    split
    · exact h.recordDelta _ _
    · split
      · exact ⟨h.assistant, by simp only [h.usage], h.calls, h.items⟩
      · split
        · exact ⟨h.assistant, h.usage, h.calls, by simp only [List.map_append, h.items]⟩
        · exact h

/-! ## Canonical events -/

theorem samePlace_of_eq {s t : State} (h : Alike P Eq s t) (id : JsString) : SamePlace id id s t :=
  h.calls.imp fun a b hab => by rw [hab.2]

/-- A replay of canonical events follows the original. -/
theorem Alike.canonical {s t : State} (h : Alike P Eq s t) (hs : s.WellFormed) (ht : t.WellFormed) (host : Host)
    (events : List Event) : Alike P Eq (s.run host events) (t.run host (s.canonical host events)) := by
  induction events generalizing s t with
  | nil => exact h
  | cons e events ih =>
    refine ih ?_ (hs.next host e) (ht.next host _)
    apply h.next hs ht host (follows_canonical s e)
    intro he
    rw [canonical_target hs he]
    exact ⟨rfl, samePlace_of_eq h _⟩

theorem items_ext {items items' : List TraceItem} (h : items.map TraceItem.unnamed = items'.map TraceItem.unnamed)
    (hids : toolItemIds items = toolItemIds items') : items = items' := by
  induction items generalizing items' with
  | nil => exact (List.map_eq_nil_iff.1 h.symm).symm
  | cons item items ih =>
    obtain ⟨item', items'', rfl, hitem, hrest⟩ := List.map_eq_cons_iff.1 h.symm
    cases item <;> cases item' <;> simp [TraceItem.unnamed] at hitem
    · rw [hitem, ih hrest.symm hids]
    · simp only [toolItemIds, List.filterMap_cons, TraceItem.toolId?, List.cons.injEq] at hids
      rw [hids.1, ih hrest.symm hids.2]
    · rw [hitem, ih hrest.symm hids]

theorem Alike.ids_eq {s t : State} (h : Alike P Eq s t) : s.ids = t.ids := by
  have heq : List.Forall₂ Eq s.ids t.ids := by
    unfold State.ids
    rw [List.forall₂_map_left_iff, List.forall₂_map_right_iff]
    exact h.calls.imp fun _ _ hab => hab.2
  rwa [List.forall₂_eq_eq_eq] at heq

theorem Alike.traceItems_eq {s t : State} (h : Alike P Eq s t) (hs : s.WellFormed) (ht : t.WellFormed) :
    s.traceItems = t.traceItems :=
  items_ext h.items (by rw [hs.items, ht.items, h.ids_eq])

/-- What is shown of the calls, once their identities agree. -/
theorem Alike.map_eq {β : Type} {s t : State} (h : Alike P Eq s t) (f : ToolCall → β)
    (hf : ∀ a b, P.of a = P.of b → a.toolCallId = b.toolCallId → f a = f b) : s.toolCalls.map f = t.toolCalls.map f := by
  have heq : List.Forall₂ Eq (s.toolCalls.map f) (t.toolCalls.map f) := by
    rw [List.forall₂_map_left_iff, List.forall₂_map_right_iff]
    exact h.calls.imp fun a b hab => hf a b hab.1 hab.2
  rwa [List.forall₂_eq_eq_eq] at heq

theorem recorded_ext {a b : ToolCall} (h : recorded.of a = recorded.of b) (hid : a.toolCallId = b.toolCallId) : a = b := by
  have ha : a = { a.unnamed with toolCallId := a.toolCallId } := rfl
  have hb : b = { b.unnamed with toolCallId := b.toolCallId } := rfl
  have hof : a.unnamed = b.unnamed := h
  rw [ha, hb, hof, hid]

theorem displayed_ext {host : Host} {a b : ToolCall} (h : (displayed host).of a = (displayed host).of b)
    (hid : a.toolCallId = b.toolCallId) : a.trace host = b.trace host := by
  have ha : a.trace host = { a.unnamed.trace host with toolCallId := a.toolCallId } := rfl
  have hb : b.trace host = { b.unnamed.trace host with toolCallId := b.toolCallId } := rfl
  have hof : a.unnamed.trace host = b.unnamed.trace host := h
  rw [ha, hb, hof, hid]

theorem Alike.refl (P : Presentation α) (s : State) : Alike P Eq s s :=
  ⟨rfl, rfl, List.forall₂_same.2 fun _ _ => ⟨rfl, rfl⟩, rfl⟩

/-- A restored projection shows what the projection showed. -/
theorem Alike.restored {p : Projection} (h : p.state.ids.Nodup) (host : Host) (piInput : Option Value) :
    Alike (displayed host) Eq p.state (restoreTurnTraceProjection (p.snapshot host piInput)).state := by
  refine ⟨rfl, rfl, ?_, rfl⟩
  rw [restored_calls host p piInput h, List.forall₂_map_right_iff, List.forall₂_same]
  intro tool _
  exact ⟨rfl, rfl⟩

theorem Alike.snapshot_eq {host : Host} {p q : Projection} {x y : Option Value} (h : Alike (displayed host) Eq p.state q.state)
    (hp : p.state.WellFormed) (hq : q.state.WellFormed) (hpi : x.getD p.retainedPiInput = y.getD q.retainedPiInput) :
    q.snapshot host y = p.snapshot host x := by
  unfold Projection.snapshot
  rw [h.assistant, h.usage, h.traceItems_eq hp hq, h.map_eq _ (fun a b => displayed_ext), hpi]

/-! ## Events as they arrived -/

theorem find_paired {β γ : Type} {R : β → γ → Prop} {p : β → Bool} {q : γ → Bool} {l : List β} {l' : List γ}
    (h : List.Forall₂ R l l') (hpq : ∀ a b, R a b → p a = q b) :
    (l.find? p = none ∧ l'.find? q = none) ∨ ∃ l₁ a l₂ l₁' b l₂', l = l₁ ++ a :: l₂ ∧ l' = l₁' ++ b :: l₂' ∧
      l₁.length = l₁'.length ∧ l₂.length = l₂'.length ∧ R a b ∧ l.find? p = some a ∧ l'.find? q = some b := by
  induction h with
  | nil => exact .inl ⟨rfl, rfl⟩
  | @cons a b l l' hab htail ih =>
    by_cases hp : p a
    · right
      have hq : q b := by rw [← hpq a b hab]; exact hp
      exact ⟨[], a, l, [], b, l', rfl, rfl, rfl, htail.length_eq, hab, by simp [hp], by simp [hq]⟩
    · have hq : ¬ q b := by rw [← hpq a b hab]; exact hp
      rcases ih with ⟨hl, hl'⟩ | ⟨l₁, x, l₂, l₁', y, l₂', rfl, rfl, hlen, hlen', hxy, hl, hl'⟩
      · left
        simp [hp, hq, hl, hl']
      · right
        exact ⟨a :: l₁, x, l₂, b :: l₁', y, l₂', rfl, rfl, by simp [hlen], hlen', hxy, by simp [hp, hl],
          by simp [hq, hl']⟩

/-- The latest running call of a name is at the same place in both. -/
theorem Alike.openCall {s t : State} (h : Alike P M s t) (hs : s.WellFormed) (ht : t.WellFormed) (toolName : JsString) :
    (s.openCall toolName = none ∧ t.openCall toolName = none) ∨ ∃ a b, s.openCall toolName = some a ∧
      t.openCall toolName = some b ∧ M a.toolCallId b.toolCallId ∧ SamePlace a.toolCallId b.toolCallId s t := by
  have hrev := List.forall₂_reverse_iff.2 h.calls
  have hns : (s.toolCalls.reverse.map (·.toolCallId)).Nodup := by
    rw [List.map_reverse, List.nodup_reverse]
    exact hs.unique
  have hnt : (t.toolCalls.reverse.map (·.toolCallId)).Nodup := by
    rw [List.map_reverse, List.nodup_reverse]
    exact ht.unique
  let running : ToolCall → Bool := fun tool => tool.status = .running ∧ tool.toolName = toolName
  have hrunning : ∀ a b : ToolCall, P.of a = P.of b ∧ M a.toolCallId b.toolCallId → running a = running b := by
    rintro a b ⟨hP, -⟩
    obtain ⟨hname, hstatus⟩ := P.correlates hP
    simp only [running, hname, hstatus]
  rcases find_paired hrev hrunning with
    hnone | ⟨l₁, a, l₂, l₁', b, l₂', hl, hl', hlen, hlen', hab, ha, hb⟩
  · exact .inl hnone
  · right
    refine ⟨a, b, ha, hb, hab.2, ?_⟩
    unfold SamePlace
    rw [← List.forall₂_reverse_iff, hl, hl']
    rw [hl] at hns
    rw [hl'] at hnt
    -- the identity of the call found occurs nowhere else
    have hother : ∀ (c : ToolCall) (k₁ k₂ : List ToolCall), ((k₁ ++ c :: k₂).map (·.toolCallId)).Nodup →
        (∀ x ∈ k₁, x.toolCallId ≠ c.toolCallId) ∧ ∀ x ∈ k₂, x.toolCallId ≠ c.toolCallId := by
      intro c k₁ k₂ hnd
      rw [List.map_append, List.map_cons, List.nodup_append, List.nodup_cons] at hnd
      constructor
      · intro x hx
        exact hnd.2.2 _ (List.mem_map_of_mem hx) _ List.mem_cons_self
      · intro x hx heq
        exact hnd.2.1.1 (List.mem_map.2 ⟨x, hx, heq⟩)
    obtain ⟨hs₁, hs₂⟩ := hother a l₁ l₂ hns
    obtain ⟨ht₁, ht₂⟩ := hother b l₁' l₂' hnt
    apply List.rel_append
    · rw [List.forall₂_iff_zip]
      refine ⟨hlen, fun hxy => ?_⟩
      obtain ⟨hx, hy⟩ := List.of_mem_zip hxy
      simp [hs₁ _ hx, ht₁ _ hy]
    · refine .cons (by simp) ?_
      rw [List.forall₂_iff_zip]
      refine ⟨hlen', fun hxy => ?_⟩
      obtain ⟨hx, hy⟩ := List.of_mem_zip hxy
      simp [hs₂ _ hx, ht₂ _ hy]

/-- The place, in the order of the calls, that each event is recorded at. -/
def State.places (host : Host) : State → List Event → List (Option Nat)
  | _, [] => []
  | s, e :: events =>
    let (s', applied) := applyPiEvent host s e
    (applied.toolCallId.map fun id => s'.ids.idxOf id) :: s'.places host events

/-- The identities that are made up for each of the events. -/
def State.madeUps (host : Host) : State → List Event → List (Option JsString)
  | _, [] => []
  | s, e :: events => s.madeUp e :: (s.next host e).madeUps host events

/-- No event names an identity that one projection makes up for some event and
the other does not make up for the same event. -/
def Unmistaken (host : Host) (s t : State) (events : List Event) : Prop :=
  ∀ e ∈ events, ∀ id, readToolCallId e.data = some id →
    ∀ made ∈ (s.madeUps host events).zip (t.madeUps host events), made.1 = some id ↔ made.2 = some id

/-- An event as it arrived is recorded at the same place in both. -/
theorem Alike.target {s t : State} (h : Alike P M s t) (hs : s.WellFormed) (ht : t.WellFormed) {e : Event}
    (he : isToolEvent e.eventType)
    (hnamed : ∀ id, readToolCallId e.data = some id → M id id ∧ ∀ x y, M x y → (x = id ↔ y = id))
    (hmade : ∀ x y, s.madeUp e = some x → t.madeUp e = some y → M x y) :
    M (s.target e).1 (t.target e).1 ∧ SamePlace (s.target e).1 (t.target e).1 s t := by
  rcases target_cases s he with ⟨hid, -⟩ | ⟨tool, hnone, hresult, hopen, htarget, -⟩ | ⟨hnone, hopen, hnew⟩
  · obtain ⟨hself, hiff⟩ := hnamed _ hid
    generalize (s.target e).1 = id at hid hself hiff ⊢
    have htid : (t.target e).1 = id := by
      simp [State.target, canonicalizeToolCallId, hid]
    rw [htid]
    exact ⟨hself, h.calls.imp fun a b hab => hiff _ _ hab.2⟩
  · rcases h.openCall hs ht (readToolName e.data) with ⟨hn, -⟩ | ⟨a, b, ha, hb, hM, hplace⟩
    · rw [hopen] at hn
      cases hn
    · have hta : (t.target e).1 = b.toolCallId := by
        simp [State.target, canonicalizeToolCallId, hnone, hresult, hb]
      rw [hopen] at ha
      cases ha
      rw [htarget, hta]
      exact ⟨hM, hplace⟩
  · have hopen' : e.eventType = "pi.tool.result" → t.openCall (readToolName e.data) = none := by
      intro hresult
      rcases h.openCall hs ht (readToolName e.data) with ⟨-, hn⟩ | ⟨a, b, ha, -⟩
      · exact hn
      · rw [hopen hresult] at ha
        cases ha
    have hnew' : t.madeUp e = some (t.target e).1 := by
      rcases target_cases t he with ⟨hid, -⟩ | ⟨tool, -, hresult, hsome, -⟩ | ⟨-, -, hnew'⟩
      · rw [hnone] at hid
        cases hid
      · rw [hopen' hresult] at hsome
        cases hsome
      · exact hnew'
    refine ⟨hmade _ _ hnew hnew', ?_⟩
    -- neither identity is one of a call
    have hfresh := (target_generated hnone hopen).2
    have hfresh' := (target_generated hnone hopen').2
    unfold SamePlace
    rw [List.forall₂_iff_zip]
    refine ⟨h.calls.length_eq, fun {a b} hab => ?_⟩
    obtain ⟨ha, hb⟩ := List.of_mem_zip hab
    constructor
    · intro heq
      exact absurd (heq ▸ List.mem_map_of_mem ha) hfresh
    · intro heq
      exact absurd (heq ▸ List.mem_map_of_mem hb) hfresh'

theorem SamePlace.idxOf {i j : JsString} {s t : State} (h : SamePlace i j s t) : s.ids.idxOf i = t.ids.idxOf j := by
  unfold SamePlace at h
  unfold State.ids
  revert h
  generalize s.toolCalls = calls, t.toolCalls = calls'
  intro h
  induction h with
  | nil => rfl
  | @cons a b _ _ hab _ ih =>
    simp only [List.map_cons]
    by_cases ha : a.toolCallId = i
    · rw [ha, hab.1 ha, List.idxOf_cons_self, List.idxOf_cons_self]
    · rw [List.idxOf_cons_ne _ ha, List.idxOf_cons_ne _ (fun hb => ha (hab.2 hb)), ih]

theorem next_ids (host : Host) (s : State) {e : Event} (he : isToolEvent e.eventType) :
    (s.next host e).ids = if (s.target e).1 ∈ s.ids then s.ids else s.ids ++ [(s.target e).1] := by
  have hdelta : e.eventType ≠ "pi.stream.delta" := by
    intro heq
    rw [heq] at he
    exact absurd he (by decide)
  unfold State.next
  rw [if_neg hdelta, if_pos he, recordTool_ids]
  rfl

/-- Other events leave the calls as they are. -/
theorem next_ids_other (host : Host) (s : State) {e : Event} (he : ¬ isToolEvent e.eventType) :
    (s.next host e).ids = s.ids := by
  unfold State.next
  simp only [he, if_false, Bool.false_eq_true]
  split
  · unfold State.recordDelta
    split
    · rfl
    · rfl
    · split <;> rfl
  · split
    · rfl
    · split <;> rfl

/-- Calls keep their places. -/
theorem run_ids (host : Host) (s : State) (events : List Event) : s.ids <+: (s.run host events).ids := by
  induction events generalizing s with
  | nil => exact List.prefix_refl _
  | cons e events ih =>
    refine List.IsPrefix.trans ?_ (ih (s.next host e))
    by_cases he : isToolEvent e.eventType
    · rw [next_ids host s he]
      split
      · exact List.prefix_refl _
      · exact List.prefix_append _ _
    · simp only [next_ids_other host s he]
      exact List.prefix_refl _

theorem next_place {s t : State} (host : Host) {e : Event} (he : isToolEvent e.eventType)
    (h : SamePlace (s.target e).1 (t.target e).1 s t) :
    (s.next host e).ids.idxOf (s.target e).1 = (t.next host e).ids.idxOf (t.target e).1 := by
  have hlen : s.ids.length = t.ids.length := by
    have := h.length_eq
    simpa [State.ids] using this
  rw [next_ids host s he, next_ids host t he]
  by_cases hmem : (s.target e).1 ∈ s.ids
  · rw [if_pos hmem, if_pos (h.mem_iff.1 hmem)]
    exact h.idxOf
  · have hmem' : (t.target e).1 ∉ t.ids := fun hc => hmem (h.mem_iff.2 hc)
    rw [if_neg hmem, if_neg hmem', List.idxOf_append_of_notMem hmem, List.idxOf_append_of_notMem hmem', hlen]
    simp

/-- Two projections of one turn stay alike under events as they arrived. -/
theorem Alike.raw {s t : State} (h : Alike P M s t) (hs : s.WellFormed) (ht : t.WellFormed) (host : Host)
    (events : List Event)
    (hnamed : ∀ e ∈ events, ∀ id, readToolCallId e.data = some id → M id id ∧ ∀ x y, M x y → (x = id ↔ y = id))
    (hmade : ∀ x y, (some x, some y) ∈ (s.madeUps host events).zip (t.madeUps host events) → M x y) :
    Alike P M (s.run host events) (t.run host events) ∧ s.places host events = t.places host events := by
  induction events generalizing s t with
  | nil => exact ⟨h, rfl⟩
  | cons e events ih =>
    have htarget : isToolEvent e.eventType →
        M (s.target e).1 (t.target e).1 ∧ SamePlace (s.target e).1 (t.target e).1 s t := by
      intro he
      apply h.target hs ht he (hnamed e List.mem_cons_self)
      intro x y hx hy
      apply hmade
      simp only [State.madeUps, List.zip_cons_cons, hx, hy]
      exact List.mem_cons_self
    have hstep := h.next hs ht host (Follows.refl e) htarget
    obtain ⟨hrun, hplaces⟩ := ih hstep (hs.next host e) (ht.next host e)
      (fun e' he' => hnamed e' (List.mem_cons_of_mem _ he'))
      (fun x y hxy => hmade x y (List.mem_cons_of_mem _ hxy))
    refine ⟨hrun, ?_⟩
    simp only [State.places, applyPiEvent, hplaces, List.cons.injEq, and_true]
    by_cases he : isToolEvent e.eventType
    · rw [if_pos he, if_pos he, Option.map_some, Option.map_some, next_place host he (htarget he).2]
    · rw [if_neg he, if_neg he]
      rfl

/-! ## The theorem -/

/-- A trace without the identities of its calls, which are told by their place. -/
def TraceSnapshot.unnamed (trace : TraceSnapshot) : TraceSnapshot :=
  { trace with
    toolCalls := trace.toolCalls.map ({ · with toolCallId := [] })
    traceItems := trace.traceItems.map TraceItem.unnamed }

theorem Alike.unnamed_eq {host : Host} {p q : Projection} {x y : Option Value}
    (h : Alike (displayed host) M p.state q.state) (hpi : x.getD p.retainedPiInput = y.getD q.retainedPiInput) :
    (q.snapshot host y).unnamed = (p.snapshot host x).unnamed := by
  have hcalls : List.Forall₂ Eq (p.state.toolCalls.map (displayed host).of) (q.state.toolCalls.map (displayed host).of) := by
    rw [List.forall₂_map_left_iff, List.forall₂_map_right_iff]
    exact h.calls.imp fun _ _ hab => hab.1
  rw [List.forall₂_eq_eq_eq] at hcalls
  have hof : ∀ calls : List ToolCall,
      (calls.map (ToolCall.trace host)).map ({ · with toolCallId := [] }) = calls.map (displayed host).of := by
    intro calls
    rw [List.map_map]
    rfl
  unfold TraceSnapshot.unnamed Projection.snapshot
  simp only [hof, hcalls, h.assistant, h.usage, h.items, hpi]

theorem madeUp_new {s : State} {e : Event} {id : JsString} (h : s.madeUp e = some id) : id ∉ s.ids := by
  have he : isToolEvent e.eventType := by
    unfold State.madeUp at h
    split at h
    · rename_i hmade
      exact hmade.1
    · cases h
  rcases target_cases s he with ⟨-, -, hnone⟩ | ⟨_, -, -, -, -, -, hnone⟩ | ⟨hnone, hopen, hnew⟩
  · rw [h] at hnone
    cases hnone
  · rw [h] at hnone
    cases hnone
  · rw [h] at hnew
    cases hnew
    exact (target_generated hnone hopen).2

/-- Replay and restore agree with direct application: canonical data gives the
same snapshots, also on a projection restored at any moment. There, events as
they arrived are recorded at the same calls while none of them names an
identity that one side alone made up, and what is made up is new. Identities
are distinct and the trace has one item for each call. -/
theorem replay_and_restore_agree (host : Host) :
    (∀ events : List Event,
      let direct := Projection.create.run host events
      let replayed := Projection.create.run host (State.empty.canonical host events)
      replayed.rawSnapshot = direct.rawSnapshot ∧
        ∀ piInput, replayed.snapshot host piInput = direct.snapshot host piInput) ∧
    (∀ (steps : List Step) (piInput : Option Value) (after : List Event),
      let split := Projection.reach host steps
      let direct := split.run host after
      let restored :=
        (restoreTurnTraceProjection (split.snapshot host piInput)).run host (split.state.canonical host after)
      restored.snapshot host none = direct.snapshot host piInput ∧
      ∀ raws : List Event,
        direct.state.ids <+: (direct.run host raws).state.ids ∧
        direct.state.ids <+: (restored.run host raws).state.ids ∧
        (∀ e id, (restored.run host raws).state.madeUp e = some id → id ∉ (restored.run host raws).state.ids) ∧
        (Unmistaken host direct.state restored.state raws →
          restored.state.places host raws = direct.state.places host raws ∧
          ((restored.run host raws).snapshot host none).unnamed = ((direct.run host raws).snapshot host piInput).unnamed)) ∧
    ∀ steps : List Step,
      let s := (Projection.reach host steps).state
      s.ids.Nodup ∧ (∀ id ∈ s.ids, (toolItemIds s.traceItems).count id = 1) ∧ ∀ id ∈ toolItemIds s.traceItems, id ∈ s.ids := by
  refine ⟨?_, ?_, ?_⟩
  · intro events direct replayed
    have hwf : direct.state.WellFormed := State.WellFormed.empty.run host events
    have hwf' : replayed.state.WellFormed := State.WellFormed.empty.run host _
    have halike : Alike recorded Eq direct.state replayed.state :=
      (Alike.refl recorded State.empty).canonical .empty .empty host events
    have hshown : Alike (displayed host) Eq direct.state replayed.state :=
      (Alike.refl (displayed host) State.empty).canonical .empty .empty host events
    constructor
    · unfold Projection.rawSnapshot
      rw [halike.assistant, halike.usage, halike.traceItems_eq hwf hwf',
        halike.map_eq _ fun a b hof hid => by rw [recorded_ext hof hid]]
    · intro piInput
      exact hshown.snapshot_eq hwf hwf' rfl
  · intro steps piInput after split direct restored
    have hsplit : split.state.WellFormed := reach_wellFormed host steps
    have hwf : direct.state.WellFormed := hsplit.run host after
    have hwf' : restored.state.WellFormed := (hsplit.restored host piInput).run host _
    have halike : Alike (displayed host) Eq direct.state restored.state :=
      (Alike.restored hsplit.unique host piInput).canonical hsplit (hsplit.restored host piInput) host after
    refine ⟨halike.snapshot_eq hwf hwf' rfl, ?_⟩
    intro raws
    refine ⟨run_ids host _ raws, ?_, fun e id => madeUp_new, ?_⟩
    · rw [halike.ids_eq]
      exact run_ids host _ raws
    · intro hraws
      let M : JsString → JsString → Prop := fun x y =>
        x = y ∨ (some x, some y) ∈ (direct.state.madeUps host raws).zip (restored.state.madeUps host raws)
      have hM : Alike (displayed host) M direct.state restored.state := halike.mono fun _ _ => .inl
      obtain ⟨hrun, hplaces⟩ := hM.raw hwf hwf' host raws
        (by
          intro e he id hid
          refine ⟨.inl rfl, ?_⟩
          rintro x y (rfl | hmade)
          · exact Iff.rfl
          · simpa using hraws e he id hid _ hmade)
        (fun x y => .inr)
      exact ⟨hplaces.symm, hrun.unnamed_eq rfl⟩
  · intro steps s
    have hwf : s.WellFormed := reach_wellFormed host steps
    refine ⟨hwf.unique, ?_, ?_⟩
    · intro id hid
      rw [hwf.items]
      exact List.count_eq_one_of_mem hwf.unique hid
    · intro id hid
      rwa [← hwf.items]

/-! ## An identity that one side made up -/

/-- A host for texts in lower case without numbers and dates. -/
def plainHost : Host :=
  { number := fun _ => 0
    numberText := fun _ => []
    stringify := fun _ => []
    dateParse := fun _ => none
    localeCompare := fun _ _ => 0
    toLowerCase := id }

/-- A call of `read`, or its result, at a time. -/
def readEvent (eventType : String) (toolCallId : Option String) (timestamp : String) : Event :=
  { eventType
    data := [("name", .str (lit "read"))] ++ (toolCallId.elim [] fun id => [("toolCallId", .str (lit id))])
    fallbackTimestamp := lit timestamp }

/-- A completed call whose identity was made up, and a call that runs. -/
def beforeSplit : List Event :=
  [readEvent "pi.tool.call" none "a", readEvent "pi.tool.result" none "a", readEvent "pi.tool.call" (some "x") "a"]

/-- A call without an identity, a result that names the identity which only the
restored projection gave it, and a result of the latest running call. -/
def afterSplit : List Event :=
  [readEvent "pi.tool.call" none "b", readEvent "pi.tool.result" (some "read:b:1") "b",
    readEvent "pi.tool.result" none "b"]

/-- The last result reaches the call that was running at the split in the
restored projection, and another one in the projection that was not split. -/
theorem restored_result_elsewhere :
    let split := Projection.create.run plainHost beforeSplit
    let restored := restoreTurnTraceProjection (split.snapshot plainHost none)
    split.state.ids[1]? = some (lit "x") ∧ (split.state.toolCalls.map (·.status))[1]? = some .running ∧
      (restored.state.places plainHost afterSplit)[2]? = some (some 1) ∧
      (split.state.places plainHost afterSplit)[2]? = some (some 2) := by
  decide +kernel

/-- Without such a name both record the events at the same places. -/
theorem replay_and_restore_agree_at :
    let split := Projection.create.run plainHost beforeSplit
    let restored := restoreTurnTraceProjection (split.snapshot plainHost none)
    let raws := [readEvent "pi.tool.call" none "b", readEvent "pi.tool.result" none "b"]
    restored.state.places plainHost raws = split.state.places plainHost raws := by
  have hagree := ((replay_and_restore_agree plainHost).2.1 (beforeSplit.map .apply) none []).2
    [readEvent "pi.tool.call" none "b", readEvent "pi.tool.result" none "b"]
  refine (hagree.2.2.2 ?_).1
  intro e he id hid
  have hnone : readToolCallId e.data = none := by
    rcases List.mem_cons.1 he with rfl | he
    · decide
    · rw [List.mem_singleton.1 he]
      decide
  rw [hnone] at hid
  cases hid

end Leitwerk.Protocol.LiveTurn
